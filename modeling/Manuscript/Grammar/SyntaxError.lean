import Manuscript.Token

/-!
# Syntax errors

Why a section does not follow the grammar. Every error knows the position it is reported at, and the
token that is at fault unless the source ended too early.
-/

namespace Manuscript

/-- A violation of the grammar. -/
inductive SyntaxError where
  /-- A token stands where something else was expected. -/
  | unexpected (expected : String) (found : Token)
  /-- The source ends where something was expected; the position is that of the last token. -/
  | endOfInput (expected : String) (position : Position)
  /-- A field or block that may stand once is opened again by this token. -/
  | repeated (found : Token)
  /-- A section that may stand once is opened again by this token. -/
  | repeatedSection (keyword : Keyword) (found : Token)
  /-- The version does not stand before every other section. -/
  | lateVersion (found : Token)
  /-- The values behind an image keyword do not make up an image. -/
  | imageValues (found : Token)
deriving DecidableEq

namespace SyntaxError

/-- What an unexpected token is called: a word that is no keyword of the language is called so. -/
def nameOf (t : Token) : String :=
  if t.isKeyword && t.keyword?.isNone then "unknown keyword `" ++ t.value ++ "`" else t.describe

/-- The token at fault, as the error describes it. -/
def found? : SyntaxError → Option String
  | unexpected _ t => some (nameOf t)
  | endOfInput _ _ => none
  | repeated t | repeatedSection _ t | lateVersion t | imageValues t => some t.describe

/-- Where the error is reported. -/
def position : SyntaxError → Position
  | unexpected _ t | repeated t | repeatedSection _ t | lateVersion t | imageValues t => t.position
  | endOfInput _ p => p

/-- The error in words, without its position. -/
def message : SyntaxError → String
  | unexpected expected t => "expected " ++ expected ++ ", found " ++ nameOf t
  | endOfInput expected _ => "expected " ++ expected ++ ", found end of input"
  | repeated t => "`" ++ t.value ++ "` is declared more than once"
  | repeatedSection k _ => "the `" ++ k.spelling ++ "` section is declared more than once"
  | lateVersion _ => "the version must be declared before every other section"
  | imageValues _ => "an image takes an id, then a size or a width and a height"

/-- The error in words, with its position. -/
def display (e : SyntaxError) : String :=
  "parse error at " ++ e.position.display ++ ": " ++ e.message

end SyntaxError

end Manuscript
