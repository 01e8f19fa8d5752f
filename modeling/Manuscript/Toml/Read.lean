import Manuscript.Toml.Text
import Manuscript.Toml.Value

/-!
# Reading settings files

A file is a list of lines: comments, keys with their values, and the lines that open a table for the
keys below them.
-/

namespace Manuscript.Toml

/-! ## Values -/

/-- A value that is not made of others. -/
def scalar : Scan Value := fun cs =>
  match cs with
  | 't' :: 'r' :: 'u' :: 'e' :: rest => some (.flag true, rest)
  | 'f' :: 'a' :: 'l' :: 's' :: 'e' :: rest => some (.flag false, rest)
  | '"' :: _ | '\'' :: _ => (text cs).map fun (s, rest) => (.text s, rest)
  | _ =>
    Scan.either (fun cs => (moment cs).map fun (m, rest) => (.moment m, rest))
      (fun cs => (numeral cs).map fun (n, rest) => (.number n, rest)) cs

/-- The elements of a list up to its closing bracket. A comma may follow the last one. -/
def listRest (element : Scan Value) : Scan Value := fun cs => do
  let item : Scan Value := fun cs => do
    let (_, cs) ← filler cs
    let (v, cs) ← element cs
    let (_, cs) ← filler cs
    match cs with
    | ',' :: rest => return (v, rest)
    | ']' :: _ => return (v, cs)
    | _ => none
  let (values, cs) ← Scan.many item cs
  let (_, cs) ← filler cs
  let (_, cs) ← Scan.one (· == ']') cs
  return (.list values, cs)

/-- A key, its value and the white space around them. -/
def entry (element : Scan Value) : Scan (List String × Value) := fun cs => do
  let (path, cs) ← key cs
  let (_, cs) ← Scan.one (· == '=') cs
  let (_, cs) ← spaces cs
  let (v, cs) ← element cs
  let (_, cs) ← spaces cs
  return ((path, v), cs)

/-- The entries of a table up to its closing bracket, on one line. -/
def tableRest (element : Scan Value) : Scan Value := fun cs => do
  let further : Scan (List String × Value) := fun cs => do
    let (_, cs) ← Scan.one (· == ',') cs
    entry element cs
  let (first, cs) ← Scan.optional (entry element) cs
  let (others, cs) ← if first.isSome then Scan.many further cs else some ([], cs)
  let (_, cs) ← spaces cs
  let (_, cs) ← Scan.one (· == '\x7d') cs
  return (← tableOf? (first.toList ++ others), cs)

/-- A value in which at most the given number of brackets are nested. -/
def valueWithin : Nat → Scan Value
  | 0, cs => scalar cs
  | depth + 1, '[' :: rest => listRest (valueWithin depth) rest
  | depth + 1, '\x7b' :: rest => tableRest (valueWithin depth) rest
  | _ + 1, cs => scalar cs

/-- A value. -/
def value : Scan Value := valueWithin (depthLimit - 1)

/-! ## Lines -/

/-- A line of a file that says something. -/
inductive Statement where
  /-- A key has a value. -/
  | assign (path : List String) (v : Value)
  /-- The keys below belong to a table. -/
  | table (path : List String)
  /-- The keys below belong to a further table under a key. -/
  | element (path : List String)

/-- The key between single or double brackets, and the rest of its line. -/
def header : Scan Statement := fun cs =>
  let single : Scan Statement := fun cs => do
    let (path, cs) ← key cs
    let (_, cs) ← Scan.spelling [']'] cs
    let (_, cs) ← trailing cs
    return (.table path, cs)
  let double : Scan Statement := fun cs => do
    let (path, cs) ← key cs
    let (_, cs) ← Scan.spelling [']', ']'] cs
    let (_, cs) ← trailing cs
    return (.element path, cs)
  match cs with
  | '[' :: '[' :: rest => double rest
  | '[' :: rest => single rest
  | _ => none

/-- A line: nothing or a comment, the head of a table, or a key with its value. -/
def line : Scan (Option Statement) := fun cs => do
  let (_, cs) ← spaces cs
  match cs with
  | [] => none
  | '#' :: _ | '\n' :: _ | '\r' :: _ => (trailing cs).map fun (_, rest) => (none, rest)
  | '[' :: _ => (header cs).map fun (s, rest) => (some s, rest)
  | _ => do
    let ((path, v), cs) ← entry value cs
    let (_, cs) ← trailing cs
    return (some (.assign path v), cs)

/-! ## Files -/

/-- The entries of a file so far, and the key of the table that is open. -/
structure Reading where
  entries : Entries := []
  opened : List String := []

/-- Apply a statement. -/
def Reading.add (r : Reading) : Statement → Option Reading
  | .assign path v => do
    return { r with entries := ← changeAt .implied (assign path v) r.opened .declared r.entries }
  | .table path => do return ⟨← declare path .declared r.entries, path⟩
  | .element path => do return ⟨← append path .declared r.entries, path⟩

/-- The entries that a text writes. A byte order mark may stand in front of them, and they must not
stand for a moment. -/
def read? (text : List Char) : Option (List (String × Value)) := do
  let (statements, rest) ← Scan.many line (withoutMark text)
  if rest.all isSpace then
    let reading ← (statements.filterMap id).foldlM Reading.add {}
    match ← (Value.table (entryValues reading.entries)).resolve? with
    | .table entries => some entries
    | _ => none
  else none

end Manuscript.Toml
