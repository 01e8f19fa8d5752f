import Manuscript.Character.Visible
import Manuscript.Text.Words

/-!
# Quoted texts

How messages and inspection output show a text so that every character of it can be seen: between
quotes, with escapes for the quotes, for line ends and tabs, and for everything invisible.
-/

namespace Manuscript.Text

open Manuscript.Character

/-- The hexadecimal digits of a number, in small letters. -/
def hexadecimal (n : Nat) : String := String.ofList (Nat.toDigits 16 n)

/-- A character named by its code point. -/
def codePoint (c : Char) : String := "\\u\x7b" ++ hexadecimal c.toNat ++ "\x7d"

/-- One character of a text that stands between two copies of `quote`. -/
def escaped (quote : Char) (c : Char) : String :=
  if c = '\x00' then "\\0"
  else if c = '\t' then "\\t"
  else if c = '\r' then "\\r"
  else if c = '\n' then "\\n"
  else if c = '\\' then "\\\\"
  else if c = quote then String.ofList ['\\', c]
  else if isVisible c && !isJoining c then String.singleton c
  else codePoint c

/-- The text between double quotes, with escapes. -/
def quoted (s : String) : String := "\"" ++ String.join (s.toList.map (escaped '"')) ++ "\""

/-- The character between single quotes, with escapes. -/
def quotedChar (c : Char) : String := "'" ++ escaped '\'' c ++ "'"

/-- Quoted texts between square brackets. -/
def quotedList (texts : List String) : String := "[" ++ joinWith ", " (texts.map quoted) ++ "]"

/-- A character as its escape shows it in ASCII: both quotes are escaped, and so is everything
beyond the visible ASCII characters. -/
def asciiEscaped (c : Char) : String :=
  if c = '\t' then "\\t"
  else if c = '\r' then "\\r"
  else if c = '\n' then "\\n"
  else if c = '\\' || c = '\'' || c = '"' then String.ofList ['\\', c]
  else if ' ' ≤ c && c ≤ '~' then String.singleton c
  else codePoint c

end Manuscript.Text
