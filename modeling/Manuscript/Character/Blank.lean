import Manuscript.Character.Ranges

/-!
# White space

The characters with the property `White_Space`. Lines, words and trimming are all understood in
terms of this one class.
-/

namespace Manuscript.Character

/-- Code points with the property `White_Space`. -/
def whiteSpace : List (Nat × Nat) :=
  [(0x9, 0xD), (0x20, 0x20), (0x85, 0x85), (0xA0, 0xA0), (0x1680, 0x1680), (0x2000, 0x200A),
   (0x2028, 0x2029), (0x202F, 0x202F), (0x205F, 0x205F), (0x3000, 0x3000)]

/-- The character is white space. -/
def isBlank (c : Char) : Bool := inRanges whiteSpace c.toNat

end Manuscript.Character
