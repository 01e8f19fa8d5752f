/-!
# Sets of characters given by ranges

A property of characters is a list of ranges of code points in ascending order. `inRanges` looks a
code point up in such a list, and `inRuns` in a list whose ranges also have a step, which is how
alphabets that alternate between capital and small letters are written down.
-/

namespace Manuscript.Character

/-- The code point lies in one of the ascending ranges; both ends belong to a range. -/
def inRanges : List (Nat × Nat) → Nat → Bool
  | [], _ => false
  | (first, last) :: rest, n => first ≤ n && (n ≤ last || inRanges rest n)

/-- The code point is the first of an ascending run, or a whole number of steps above it. -/
def inRuns : List (Nat × Nat × Nat) → Nat → Bool
  | [], _ => false
  | (first, last, step) :: rest, n =>
      first ≤ n && ((n ≤ last && (n - first) % step == 0) || inRuns rest n)

end Manuscript.Character
