import Manuscript.Character.Case
import Manuscript.Text.Words

/-!
# Readers of style values

A reader says which texts of a specification stand for a value of a type, and what such a value is
called in messages. Choices from a short list are read leniently: case, surrounding white space and
the separators between words do not matter.
-/

namespace Manuscript

/-- How a type of values is read from texts. -/
structure Reader (α : Type) where
  /-- What a value of the type is called when a text is none. -/
  expected : String
  /-- The value that a text stands for. -/
  read? : String → Option α

namespace Reader

/-- A separator between the words of a choice. -/
def isSeparator (c : Char) : Bool := c == ' ' || c == '_' || c == '-'

/-- The spelling by which choices are compared: trimmed, in small letters, without separators. -/
def canonical (s : String) : String :=
  String.ofList (((Text.trimBoth Character.isBlank s.toList).filter fun c => !isSeparator c).flatMap
    Character.lower)

/-- A choice from a list of spellings. -/
def choice {α : Type} (expected : String) (spellings : List (String × α)) : Reader α :=
  ⟨expected, fun s => spellings.lookup (canonical s)⟩

/-- What is said about a text that is no value of the type. -/
def complaint {α : Type} (r : Reader α) (found : String) : String :=
  "\"" ++ found ++ "\" is not a valid " ++ r.expected

end Reader

end Manuscript
