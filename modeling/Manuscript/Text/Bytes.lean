/-!
# Bytes of a text

A text is stored as the bytes of its characters, which take one to four each. Parts of it are cut
out by numbers of bytes, which is possible only at the borders of characters.
-/

namespace Manuscript.Text

/-- The number of bytes that the characters take. -/
def byteLength : List Char → Nat
  | [] => 0
  | c :: cs => c.utf8Size + byteLength cs

/-- Cut a text in two behind a number of bytes. It is cut neither within a character nor behind its
end. -/
def cutAt? : Nat → List Char → Option (List Char × List Char)
  | 0, cs => some ([], cs)
  | _ + 1, [] => none
  | n + 1, c :: cs =>
    if c.utf8Size ≤ n + 1 then
      (cutAt? (n + 1 - c.utf8Size) cs).map fun (front, back) => (c :: front, back)
    else none

/-- The part of a text from one byte up to another one. -/
def slice? (start stop : Nat) (cs : List Char) : Option (List Char) := do
  let (_, behind) ← cutAt? start cs
  let (within, _) ← cutAt? (stop - start) behind
  return within

end Manuscript.Text
