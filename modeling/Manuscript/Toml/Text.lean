import Manuscript.Toml.Scan
import Manuscript.Number.Natural

/-!
# Texts of settings files

A text stands between single or double quotes, on one line or, between three of them, on several.
Backslashes have a meaning between double quotes only.
-/

namespace Manuscript.Toml

/-! ## Escapes -/

/-- The character with the code that hexadecimal digits write. -/
def ofHex? (ds : List Char) : Option Char := do
  let code ← ds.foldlM (fun n d => (Number.hexDigit? d).map (16 * n + ·)) 0
  if h : code.isValidChar then some (Char.ofNatAux code h) else none

/-- The character that an escape stands for. -/
def escape : Scan Char
  | '\\' :: 'b' :: rest => some ('\x08', rest)
  | '\\' :: 't' :: rest => some ('\t', rest)
  | '\\' :: 'n' :: rest => some ('\n', rest)
  | '\\' :: 'f' :: rest => some ('\x0c', rest)
  | '\\' :: 'r' :: rest => some ('\r', rest)
  | '\\' :: '"' :: rest => some ('"', rest)
  | '\\' :: '\\' :: rest => some ('\\', rest)
  | '\\' :: 'u' :: rest =>
    if rest.length < 4 then none else (ofHex? (rest.take 4)).map (·, rest.drop 4)
  | '\\' :: 'U' :: rest =>
    if rest.length < 8 then none else (ofHex? (rest.take 8)).map (·, rest.drop 8)
  | _ => none

/-! ## Texts on one line -/

/-- A character between double quotes that stands for itself. -/
def isPlain (c : Char) : Bool := isPrintable c && c != '"' && c != '\\'

/-- A character between single quotes. -/
def isVerbatim (c : Char) : Bool := isPrintable c && c != '\''

/-- A text between double quotes. -/
def quoted : Scan String
  | '"' :: rest => do
    let (cs, rest) ← Scan.many (.either (Scan.one isPlain) escape) rest
    let (_, rest) ← Scan.one (· == '"') rest
    return (String.ofList cs, rest)
  | _ => none

/-- A text between single quotes, in which nothing is escaped. -/
def verbatim : Scan String
  | '\'' :: rest => do
    let (cs, rest) ← Scan.run isVerbatim rest
    let (_, rest) ← Scan.one (· == '\'') rest
    return (String.ofList cs, rest)
  | _ => none

/-! ## Texts on several lines -/

/-- A line break at the end of a line that a backslash continues, with all white space after it. -/
def continuation : Scan (List Char)
  | '\\' :: rest => do
    let (_, rest) ← spaces rest
    let (_, rest) ← lineBreak rest
    let blank : Scan Unit := fun cs => (Scan.one isSpace cs).map fun (_, rest) => ((), rest)
    let (_, rest) ← Scan.many (.either blank lineBreak) rest
    return ([], rest)
  | _ => none

/-- One or two quotes that do not end a text between three of them. -/
def innerQuotes (quote : Char) : Scan (List Char) := fun cs =>
  let quotes := cs.takeWhile (· == quote)
  if quotes.length = 1 ∨ quotes.length = 2 then some (quotes, cs.drop quotes.length) else none

/-- The three quotes at the end of a text, with one or two in front of them that belong to it. -/
def closingQuotes (quote : Char) : Scan (List Char) := fun cs =>
  let quotes := cs.takeWhile (· == quote)
  if 3 ≤ quotes.length ∧ quotes.length ≤ 5 then some (quotes.drop 3, cs.drop quotes.length)
  else none

/-- A line break within a text, which is a line feed there. -/
def innerBreak : Scan (List Char) := fun cs => (lineBreak cs).map fun (_, rest) => (['\n'], rest)

/-- A text between three quotes, made of pieces. A line break right behind the quotes is left out.
-/
def block (quote : Char) (piece : Scan (List Char)) : Scan String := fun cs => do
  let (_, cs) ← Scan.spelling [quote, quote, quote] cs
  let (_, cs) ← Scan.optional lineBreak cs
  let (pieces, cs) ← Scan.many (.either innerBreak (.either (innerQuotes quote) piece)) cs
  let (quotes, cs) ← closingQuotes quote cs
  return (String.ofList (pieces.flatten ++ quotes), cs)

/-- A piece made of one character. -/
def piece (scan : Scan Char) : Scan (List Char) := fun cs =>
  (scan cs).map fun (c, rest) => ([c], rest)

/-- A text between three double quotes. -/
def quotedBlock : Scan String :=
  block '"' (.either (piece (Scan.one isPlain)) (.either continuation (piece escape)))

/-- A text between three single quotes. -/
def verbatimBlock : Scan String := block '\'' (piece (Scan.one isVerbatim))

/-- A text of any form. -/
def text : Scan String := .either quotedBlock (.either quoted (.either verbatimBlock verbatim))

/-! ## Keys -/

/-- A character of a key without quotes. -/
def isKeyCharacter (c : Char) : Bool :=
  c.isAlphanum || c == '_' || c == '-'

/-- A name of a key, with white space around it. -/
def keyPart : Scan String := fun cs => do
  let bare : Scan String := fun cs =>
    let name := cs.takeWhile isKeyCharacter
    if name.isEmpty then none else some (String.ofList name, cs.drop name.length)
  let (_, cs) ← spaces cs
  let (name, cs) ← Scan.either quoted (.either verbatim bare) cs
  let (_, cs) ← spaces cs
  return (name, cs)

/-- Keys and values are not nested as deeply as this. -/
def depthLimit : Nat := 80

/-- The names of a key, with points between them. -/
def key : Scan (List String) := fun cs => do
  let (first, cs) ← keyPart cs
  let further : Scan String := fun cs => do
    let (_, cs) ← Scan.one (· == '.') cs
    keyPart cs
  let (names, cs) ← Scan.many further cs
  if (first :: names).length < depthLimit then some (first :: names, cs) else none

end Manuscript.Toml
