import Manuscript.Specification.Literal
import Manuscript.Token.Keyword

/-!
# Fields

The lines `keyword "value"` of a block, in the order they were declared.
-/

namespace Manuscript

/-- Literals under the keywords that introduce them, first declared first. -/
abbrev Fields := List (Keyword × Literal)

namespace Fields

/-- The literal under a keyword. -/
def get (fields : Fields) (k : Keyword) : Option Literal := fields.lookup k

/-- The keyword was declared. -/
def declares (fields : Fields) (k : Keyword) : Bool := (fields.get k).isSome

/-- The fields with one more at the end. -/
def add (fields : Fields) (k : Keyword) (value : Literal) : Fields := fields ++ [(k, value)]

end Fields

end Manuscript
