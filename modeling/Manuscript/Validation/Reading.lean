import Manuscript.Calendar
import Manuscript.Style.Reader
import Manuscript.Number.Decimal
import Manuscript.Validation.Fault

/-!
# Reading the values of literals

A literal is read as a value of some type, or it is a fault at its position. Checking a
specification and using it both go through these functions, so that a value that passed the check
can be used.
-/

namespace Manuscript

open Manuscript.Number (Binary32)

namespace Literal

/-- The characters of a literal without the white space at its ends. -/
def trimmedChars (l : Literal) : List Char := Text.trimBoth Character.isBlank l.value.toList

/-- The literal holds more than white space. -/
def requireContent (l : Literal) (field : String) : Except Fault Unit :=
  if l.isBlank then .error (.found (.blankText field) l.position) else .ok ()

/-- The value that a reader finds in the literal. -/
def parse {α : Type} (r : Reader α) (l : Literal) : Except Fault α :=
  match r.read? l.value with
  | some value => .ok value
  | none => .error (.found (.unreadable (r.complaint l.value)) l.position)

/-- A whole number from one on. -/
def positive (field : String) (l : Literal) : Except Fault Nat :=
  match Number.positive? l.trimmedChars with
  | some n => .ok n
  | none => .error (.found (.notPositive l.value field) l.position)

/-- The distance between lines, as a positive multiple of their height. -/
def spacing (l : Literal) : Except Fault Binary32 :=
  match (Number.Binary.read? l.trimmedChars).filter fun x => x.isFinite && x.isPositive with
  | some x => .ok x
  | none => .error (.found (.badSpacing l.value) l.position)

/-- Letters are the same apart from ASCII case. -/
def sameWord (cs ds : List Char) : Bool := cs.map Char.toLower == ds.map Char.toLower

/-- A date, or none if the literal says that there is none. -/
def date (l : Literal) : Except Fault (Option Date) :=
  if sameWord l.trimmedChars ['n', 'o', 'n', 'e'] then .ok none
  else
    match Date.read? l.trimmedChars with
    | some d => .ok (some d)
    | none => .error (.found (.badDate l.value) l.position)

end Literal

/-! ## Optional literals -/

/-- A check of a field that need not be there. -/
def checkField {α : Type} (check : Literal → Except Fault α) : Option Literal → Except Fault Unit
  | some l => (check l).map fun _ => ()
  | none => .ok ()

/-- A field that need not be there is not blank. -/
def checkContent (field : Option Literal) (name : String) : Except Fault Unit :=
  checkField (·.requireContent name) field

/-- A reading of a field that need not be there. -/
def readField {α : Type} (read : Literal → Except Fault α) :
    Option Literal → Except Fault (Option α)
  | some l => (read l).map some
  | none => .ok none

end Manuscript
