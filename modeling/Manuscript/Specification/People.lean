import Manuscript.Specification.Fields

/-!
# Authors and assessors

A person goes by one name, or by a first name and a last name, and may have a role and an
institution.
-/

namespace Manuscript

/-- A declared person. -/
structure Person where
  name : Option Literal := none
  firstname : Option Literal := none
  lastname : Option Literal := none
  role : Option Literal := none
  institution : Option Literal := none
  position : Position
deriving DecidableEq

namespace Person

/-- The keywords of a person's fields. -/
def keywords : List Keyword := [.name, .firstname, .lastname, .role, .institution]

/-- The person that a block of fields describes. -/
def ofFields (fields : Fields) (position : Position) : Person :=
  { name := fields.get .name, firstname := fields.get .firstname
    lastname := fields.get .lastname, role := fields.get .role
    institution := fields.get .institution, position }

/-- The person that a single text names. -/
def named (name : Literal) : Person := { name := some name, position := name.position }

/-- The name in its usual order. -/
def fullName (p : Person) : String :=
  match p.name, p.firstname, p.lastname with
  | some name, _, _ => name.trimmed
  | none, some first, some last => first.trimmed ++ " " ++ last.trimmed
  | none, some only, none => only.trimmed
  | none, none, some only => only.trimmed
  | none, none, none => ""

end Person

/-- The authors or the assessors of a document; the position is that of their first section. -/
structure People where
  members : List Person := []
  position : Option Position := none
deriving DecidableEq

/-- The people with those of one more section. -/
def People.join (people : People) (members : List Person) (position : Position) : People :=
  ⟨people.members ++ members, some (people.position.getD position)⟩

end Manuscript
