/-!
# Scanning

A scan takes something from the front of a text and leaves the rest. Scans of settings files are put
together from the few below.
-/

namespace Manuscript.Toml

/-- A way to take a value from the front of a text. -/
abbrev Scan (α : Type) := List Char → Option (α × List Char)

namespace Scan

/-- One character of a class. -/
def one (p : Char → Bool) : Scan Char
  | c :: rest => if p c then some (c, rest) else none
  | [] => none

/-- The characters of a class, as many as there are. -/
def run (p : Char → Bool) : Scan (List Char) := fun cs => some (cs.takeWhile p, cs.dropWhile p)

/-- A fixed spelling. -/
def spelling (word : List Char) : Scan Unit := fun cs =>
  if word.isPrefixOf cs then some ((), cs.drop word.length) else none

/-- A value as often as one is found, at most the given number of times. -/
def upTo {α : Type} (scan : Scan α) : Nat → List Char → List α × List Char
  | 0, cs => ([], cs)
  | n + 1, cs =>
    match scan cs with
    | some (a, rest) =>
      let (as, rest) := upTo scan n rest
      (a :: as, rest)
    | none => ([], cs)

/-- A value as often as one is found. Each takes a character, so there are no more of them than
characters. -/
def many {α : Type} (scan : Scan α) : Scan (List α) := fun cs => some (scan.upTo cs.length cs)

/-- A value if one is found. -/
def optional {α : Type} (scan : Scan α) : Scan (Option α) := fun cs =>
  match scan cs with
  | some (a, rest) => some (some a, rest)
  | none => some (none, cs)

/-- A value that one scan finds, or else the other. -/
def either {α : Type} (first second : Scan α) : Scan α := fun cs => (first cs).or (second cs)

end Scan

/-- A text without the byte order mark that may stand in front of it. -/
def withoutMark : List Char → List Char
  | '\uFEFF' :: rest => rest
  | cs => cs

/-! ## Blanks, line ends and comments -/

/-- White space within a line. -/
def isSpace (c : Char) : Bool := c == ' ' || c == '\t'

/-- A character that may stand in a line, in comments and texts: a tab, or no control character. -/
def isPrintable (c : Char) : Bool := c == '\t' || ('\x20' ≤ c && c != '\x7f')

/-- White space within a line, as much as there is. -/
def spaces : Scan (List Char) := Scan.run isSpace

/-- A line break. -/
def lineBreak : Scan Unit
  | '\n' :: rest => some ((), rest)
  | '\r' :: '\n' :: rest => some ((), rest)
  | _ => none

/-- A line break, or the end of the text. -/
def lineEnd : Scan Unit
  | [] => some ((), [])
  | cs => lineBreak cs

/-- A comment, up to the end of its line. -/
def comment : Scan Unit
  | '#' :: rest => some ((), rest.dropWhile isPrintable)
  | _ => none

/-- What may stand between the elements of a list: white space, line breaks and comments. -/
def filler : Scan Unit := fun cs => do
  let blank : Scan Unit := fun cs => (Scan.one isSpace cs).map fun (_, rest) => ((), rest)
  let commentLine : Scan Unit := fun cs => do
    let (_, cs) ← comment cs
    lineBreak cs
  let (_, cs) ← Scan.many (.either blank (.either lineBreak commentLine)) cs
  return ((), cs)

/-- The rest of a line after a statement: white space and a comment. -/
def trailing : Scan Unit := fun cs => do
  let (_, cs) ← spaces cs
  let (_, cs) ← Scan.optional comment cs
  lineEnd cs

end Manuscript.Toml
