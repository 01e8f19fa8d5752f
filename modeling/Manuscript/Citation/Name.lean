import Manuscript.Text.Words

/-!
# Personal names

Bibliographies sort by surname and print the first author with the surname in front. The last word
of a name is taken to be the surname.
-/

namespace Manuscript

/-- A name, split into what stands in front of the surname and the surname. -/
structure PersonalName where
  given : Option String
  surname : String
deriving DecidableEq

namespace PersonalName

/-- Split a name in front of its last word. A name of one word is a surname alone. -/
def ofText (text : String) : PersonalName :=
  let words := Text.wordsOf text
  match words.getLast? with
  | none => ⟨none, ""⟩
  | some surname =>
    let given := words.dropLast
    ⟨if given.isEmpty then none else some (Text.joinWith " " given), surname⟩

/-- The name in its usual order. -/
def full (n : PersonalName) : String :=
  match n.given with
  | some given => given ++ " " ++ n.surname
  | none => n.surname

/-- The name with the surname in front. -/
def inverted (n : PersonalName) : String :=
  match n.given with
  | some given => n.surname ++ ", " ++ given
  | none => n.surname

end PersonalName

end Manuscript
