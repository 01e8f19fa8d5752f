/-!
# Positions

A position names a character of a source by its line and its column. Both count from one; the
position `0:0` stands before every character and is where a reader starts.
-/

namespace Manuscript

/-- A line and a column of a source. -/
structure Position where
  line : Nat
  column : Nat
deriving DecidableEq

namespace Position

/-- Where reading starts. -/
def origin : Position := ⟨0, 0⟩

/-- The form `line:column` that messages use. -/
def display (p : Position) : String := s!"{p.line}:{p.column}"

/-- The ending ` at line:column` of a message, or nothing where no position is known. -/
def suffix : Option Position → String
  | some p => s!" at {p.display}"
  | none => ""

/-- One position stands before another: on an earlier line, or earlier on the same line. -/
def Before (p q : Position) : Prop := p.line < q.line ∨ p.line = q.line ∧ p.column < q.column

instance (p q : Position) : Decidable (p.Before q) := inferInstanceAs (Decidable (_ ∨ _))

end Position

end Manuscript
