import Manuscript.Position
import Manuscript.Text.Words

/-!
# Literals and fields

A literal is a text as it stands in a source, with the position of its opening quote. The fields of
a block are literals under the keywords that introduce them.
-/

namespace Manuscript

/-- A text of a source and where it stands. -/
structure Literal where
  value : String
  position : Position
deriving DecidableEq

namespace Literal

/-- The text without the white space at its ends. -/
def trimmed (l : Literal) : String := Text.trim l.value

/-- The text holds nothing but white space. -/
def isBlank (l : Literal) : Bool := Text.isBlankText l.value

end Literal

end Manuscript
