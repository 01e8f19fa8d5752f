import Manuscript.Character.Case

/-!
# Lower case of a text

A text is lowered character by character, except that a capital sigma at the end of a word becomes
the final small sigma.
-/

namespace Manuscript.Text

open Manuscript.Character

/-- The nearest character that is not passed over has a case. -/
def meetsCased (cs : List Char) : Bool :=
  match cs.dropWhile isCaseIgnorable with
  | c :: _ => isCased c
  | [] => false

/-- Lower the rest of a text whose earlier characters, last one first, are `before`. -/
def lowerAfter (before : List Char) : List Char → List Char
  | [] => []
  | c :: rest =>
      (if c = 'Σ' then [if meetsCased before && !meetsCased rest then 'ς' else 'σ'] else lower c)
        ++ lowerAfter (c :: before) rest

/-- The text in lower case. -/
def lowercase (s : String) : String := String.ofList (lowerAfter [] s.toList)

end Manuscript.Text
