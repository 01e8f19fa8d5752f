import Manuscript.Failure
import Manuscript.Guide.Rules
import Manuscript.Text.Case

/-!
# Tables of style guides

The guides that a compiler knows by name. Neither the case of a name nor white space around it
matters; a name that the table does not have is a failure.
-/

namespace Manuscript

/-- The registered guides, each once, last registered first. -/
structure GuideTable where
  guides : List Guide := []
deriving DecidableEq

namespace GuideTable

/-- The form in which names are compared. -/
def key (name : String) : String := Text.lowercase (Text.trim name)

/-- Register a guide under its own name. -/
def register (t : GuideTable) (g : Guide) : GuideTable :=
  ⟨g :: t.guides.filter fun h => h != g⟩

/-- The guide of a name. -/
def find? (t : GuideTable) (name : String) : Option Guide :=
  t.guides.find? fun g => Text.lowercase g.name == key name

/-- The names of the guides, sorted. -/
def names (t : GuideTable) : List String :=
  (t.guides.map Guide.name).mergeSort fun a b => decide (a ≤ b)

/-- The guide of a declared name. -/
def resolve (t : GuideTable) (name : String) (position : Option Position) :
    Except Failure Guide :=
  match t.find? name with
  | some g => .ok g
  | none => .error (.unknownGuide name t.names position)

/-- The table of all guides. -/
def full : GuideTable := Guide.all.foldl register {}

end GuideTable

end Manuscript
