import Manuscript.Specification.Literal

/-!
# Titles

A title is a list of fragments. A fragment is plain text or the title of a larger work that the
document's own title names.
-/

namespace Manuscript

/-- One part of a title. -/
inductive TitleFragment where
  | plain (text : Literal)
  | work (title : Literal)
deriving DecidableEq

/-- The literal of a fragment. -/
def TitleFragment.literal : TitleFragment → Literal
  | plain text => text
  | work title => title

/-- The title of a document; the position is that of the section, if it was declared. -/
structure Title where
  fragments : List TitleFragment := []
  position : Option Position := none
deriving DecidableEq

/-- The title as one text. -/
def Title.text (t : Title) : String :=
  Text.joinWith " " (t.fragments.map fun fragment => fragment.literal.trimmed)

end Manuscript
