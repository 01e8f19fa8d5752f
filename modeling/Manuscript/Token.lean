import Manuscript.Position
import Manuscript.Text.Quoted
import Manuscript.Token.Keyword

/-!
# Tokens

The lexical alphabet of the language: texts, keywords, increases of indentation, line ends and list
separators. There is no token for a decrease of indentation. Every token carries the depth of the
line it stands on, and a block is over as soon as a token of a lower depth is met.
-/

namespace Manuscript

open Manuscript.Text (quoted)

/-- The five classes of tokens. -/
inductive TokenKind where
  | text
  | keyword
  | indent
  | lineEnd
  | separator
deriving DecidableEq

/-- The name of a class of tokens in messages. -/
def TokenKind.display : TokenKind → String
  | .text => "text"
  | .keyword => "keyword"
  | .indent => "indentation"
  | .lineEnd => "end of line"
  | .separator => "list separator"

/-- A finished token, with the indentation depth of its line. -/
structure Token where
  kind : TokenKind
  value : String
  position : Position
  indent : Nat
deriving DecidableEq

namespace Token

/-- The token is a text. -/
def isText (t : Token) : Bool := t.kind == .text

/-- The token is a word that may or may not be a keyword of the language. -/
def isKeyword (t : Token) : Bool := t.kind == .keyword

/-- The token marks an increase of indentation. -/
def isIndent (t : Token) : Bool := t.kind == .indent

/-- The token ends a line. -/
def isLineEnd (t : Token) : Bool := t.kind == .lineEnd

/-- The token separates the items of a list. -/
def isSeparator (t : Token) : Bool := t.kind == .separator

/-- The keyword of the language that the token spells. -/
def keyword? (t : Token) : Option Keyword := if t.isKeyword then Keyword.ofWord? t.value else none

/-- What messages call the token. -/
def describe (t : Token) : String :=
  match t.kind with
  | .text => "text \"" ++ t.value ++ "\""
  | .keyword => "`" ++ t.value ++ "`"
  | .indent => "indentation to depth " ++ t.value
  | .lineEnd => "end of line"
  | .separator => "`,`"

/-- The token as a listing of the token stream shows it. -/
def display (t : Token) : String :=
  let lexeme := match t.kind with
    | .text => "TEXT(" ++ quoted t.value ++ ")"
    | .keyword => "KEYWORD(" ++ t.value ++ ")"
    | .indent => "INDENT(" ++ t.value ++ ")"
    | .lineEnd => "NEW_LINE"
    | .separator => "LIST_SEPARATOR"
  lexeme ++ "@" ++ t.position.display

end Token

end Manuscript
