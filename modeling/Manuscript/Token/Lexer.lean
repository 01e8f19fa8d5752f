import Manuscript.Token

/-!
# The lexer

A machine that reads a source one character at a time and gives out the tokens that the character
completes. What it keeps between characters is a `Lexer`; what one character does is a `Lexer.Step`:
the lexer afterwards, the tokens completed, and an error if the character cannot stand where it
does. A lexer is usable after an error, so an error does not hide the state it was found in.

* Indentation is counted at the start of a line, a tab or four spaces for a unit. The first
  character that means something gives the line its depth, with a token if the depth grew.
* A line without tokens leaves no trace: it gives no line end and keeps the depth.
* A carriage return is skipped wherever it stands and has no column.
-/

namespace Manuscript

open Manuscript.Text (quotedChar asciiEscaped)

/-! ## Errors -/

/-- Why a source cannot be read as tokens. -/
inductive LexicalError where
  /-- A character that no token begins with. -/
  | unexpectedCharacter (character : Char) (position : Position)
  /-- A backslash before a character that it does not escape, after the part `value` of a text. -/
  | invalidEscape (character : Char) (value : String) (position : Position)
  /-- A text that the end of the source cuts off; the position is that of its opening quote. -/
  | unterminatedText (value : String) (position : Position)
deriving DecidableEq

namespace LexicalError

/-- Where the error was found. -/
def position : LexicalError → Position
  | unexpectedCharacter _ p | invalidEscape _ _ p | unterminatedText _ p => p

/-- The error in words. -/
def message : LexicalError → String
  | unexpectedCharacter c p => "unexpected character " ++ quotedChar c ++ " at " ++ p.display
  | invalidEscape c value p =>
      "invalid escape sequence `\\" ++ asciiEscaped c ++ "` in text \"" ++ value ++ "\" at "
        ++ p.display
  | unterminatedText value p =>
      "unterminated text \"" ++ value ++ "\" starting at " ++ p.display

end LexicalError

/-! ## The machine -/

namespace Lexer

/-- Spaces that make up one unit of indentation. -/
def spacesPerIndent : Nat := 4

/-- What the next character is part of. -/
inductive Mode where
  /-- The indentation of a line. -/
  | lineStart
  /-- A comment, up to the end of the line. -/
  | comment
  /-- The room between the tokens of a line. -/
  | between
  /-- A word of small letters. -/
  | keyword
  /-- A text between quotes. -/
  | text
  /-- The character after a backslash in a text. -/
  | escape
deriving DecidableEq

end Lexer

/-- What a lexer remembers between two characters. -/
structure Lexer where
  mode : Lexer.Mode := .lineStart
  /-- The value of the token that is being read. -/
  buffer : String := ""
  line : Nat := 1
  /-- Characters of the line read so far. -/
  column : Nat := 0
  /-- Tabs in the indentation of the line. -/
  tabs : Nat := 0
  /-- Spaces in the indentation of the line. -/
  spaces : Nat := 0
  /-- Indentation depth of the last line that has tokens. -/
  depth : Nat := 0
  /-- The depth that the next line is compared with. -/
  previousDepth : Nat := 0
  lineHasTokens : Bool := false
  /-- Where the token that is being read starts. -/
  start : Position := Position.origin
deriving DecidableEq

namespace Lexer

/-- What one character does. -/
structure Step where
  lexer : Lexer
  /-- The tokens that the character completes, in order. -/
  tokens : List Token := []
  error : Option LexicalError := none
deriving DecidableEq

/-- A letter that keywords are made of. -/
def isWordLetter (c : Char) : Bool := 'a' ≤ c && c ≤ 'z'

/-- A token on the current line. -/
def token (l : Lexer) (kind : TokenKind) (value : String) (position : Position) : Token :=
  ⟨kind, value, position, l.depth⟩

/-- The lexer at the start of the next line. -/
def endLine (l : Lexer) : Lexer :=
  { l with
    mode := .lineStart, line := l.line + 1, column := 0, tabs := 0, spaces := 0
    lineHasTokens := false }

/-- The same step after tokens that were completed before it. -/
def Step.after (tokens : List Token) (s : Step) : Step := { s with tokens := tokens ++ s.tokens }

/-- A character between two tokens of a line. -/
def stepBetween (l : Lexer) (c : Char) (p : Position) : Step :=
  if c = ' ' ∨ c = '\t' then { lexer := l }
  else if c = '\n' then { lexer := l.endLine, tokens := [l.token .lineEnd "" p] }
  else if c = ',' then
    { lexer := { l with lineHasTokens := true }, tokens := [l.token .separator "," p] }
  else if c = '"' then { lexer := { l with mode := .text, start := p, buffer := "" } }
  else if isWordLetter c then
    { lexer := { l with mode := .keyword, start := p, buffer := String.singleton c } }
  else { lexer := l, error := some (.unexpectedCharacter c p) }

/-- The depth of the indentation counted so far. -/
def measuredDepth (l : Lexer) : Nat := l.tabs + l.spaces / spacesPerIndent

/-- A character of the indentation, or the first character after it. -/
def stepLineStart (l : Lexer) (c : Char) (p : Position) : Step :=
  if c = '\t' then { lexer := { l with tabs := l.tabs + 1 } }
  else if c = ' ' then { lexer := { l with spaces := l.spaces + 1 } }
  else if c = '\n' then { lexer := l.endLine }
  else if c = '#' ∧ p.column = 1 then { lexer := { l with mode := .comment } }
  else
    let depth := l.measuredDepth
    let opened := { l with mode := .between, depth, previousDepth := depth }
    if l.previousDepth < depth then
      let marker := opened.token .indent (toString depth) ⟨l.line, 1⟩
      (stepBetween { opened with lineHasTokens := true } c p).after [marker]
    else stepBetween opened c p

/-- The word read so far, as a token. -/
def word (l : Lexer) : Token := l.token .keyword l.buffer l.start

/-- The lexer after the word read so far was given out. -/
def closeWord (l : Lexer) : Lexer :=
  { l with mode := .between, buffer := "", lineHasTokens := true }

/-- A character of a word, or the first character after it. -/
def stepKeyword (l : Lexer) (c : Char) (p : Position) : Step :=
  if isWordLetter c then { lexer := { l with buffer := l.buffer.push c } }
  else if c = ' ' ∨ c = '\t' ∨ c = '\n' ∨ c = ',' ∨ c = '"' then
    (stepBetween l.closeWord c p).after [l.word]
  else { lexer := l, error := some (.unexpectedCharacter c p) }

/-- A character of a text. A line break reads as a space, unless a space stands before it. -/
def stepText (l : Lexer) (c : Char) : Step :=
  if c = '"' then
    { lexer := { l with mode := .between, buffer := "", lineHasTokens := true }
      tokens := [l.token .text l.buffer l.start] }
  else if c = '\\' then { lexer := { l with mode := .escape } }
  else if c = '\n' then
    let buffer := if l.buffer.toList.getLast? = some ' ' then l.buffer else l.buffer.push ' '
    { lexer := { l with buffer, line := l.line + 1, column := 0 } }
  else { lexer := { l with buffer := l.buffer.push c } }

/-- The character that an escape stands for. -/
def unescape? (c : Char) : Option Char :=
  if c = '"' then some '"'
  else if c = '\\' then some '\\'
  else if c = 'n' then some '\n'
  else if c = 't' then some '\t'
  else none

/-- The character after a backslash. -/
def stepEscape (l : Lexer) (c : Char) (p : Position) : Step :=
  match unescape? c with
  | some d => { lexer := { l with mode := .text, buffer := l.buffer.push d } }
  | none => { lexer := l, error := some (.invalidEscape c l.buffer p) }

/-- Read one character. -/
def step (l : Lexer) (c : Char) : Step :=
  if c = '\r' then { lexer := l }
  else
    let l := { l with column := l.column + 1 }
    let p : Position := ⟨l.line, l.column⟩
    match l.mode with
    | .lineStart => stepLineStart l c p
    | .comment => { lexer := if c = '\n' then l.endLine else l }
    | .between => stepBetween l c p
    | .keyword => stepKeyword l c p
    | .text => stepText l c
    | .escape => stepEscape l c p

/-- Close the line that the source ends in. -/
def closeLine (l : Lexer) : Step :=
  if l.lineHasTokens then
    { lexer := l.endLine, tokens := [l.token .lineEnd "" ⟨l.line, l.column + 1⟩] }
  else { lexer := { l with mode := .lineStart } }

/-- Read the end of the source: a word is given out and the last line is closed. -/
def finish (l : Lexer) : Step :=
  match l.mode with
  | .text | .escape => { lexer := l, error := some (.unterminatedText l.buffer l.start) }
  | .keyword => (closeLine l.closeWord).after [l.word]
  | _ => closeLine l

/-- The tokens of the rest of a source, or its first error. -/
def read (l : Lexer) : List Char → Except LexicalError (List Token)
  | [] =>
    let s := l.finish
    match s.error with
    | some e => .error e
    | none => .ok s.tokens
  | c :: rest =>
    let s := l.step c
    match s.error with
    | some e => .error e
    | none => (read s.lexer rest).map (s.tokens ++ ·)

end Lexer

/-- The tokens of a whole source, or its first error. -/
def tokenize (source : String) : Except LexicalError (List Token) := Lexer.read {} source.toList

end Manuscript
