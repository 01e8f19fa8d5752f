import Manuscript.Toml.Numeral
import Manuscript.Toml.Moment

/-!
# Values of settings files

What a key of a settings file can stand for, and the tree that a file is while it is read. The tree
remembers how each table came to be, because a table may not be declared twice and what a dotted key
or a value between brackets made is not open to every later line.
-/

namespace Manuscript.Toml

/-- A value of a settings file. The keys of a table are different. -/
inductive Value where
  | text (s : String)
  | number (n : Numeral)
  | flag (b : Bool)
  | moment (m : Moment)
  | list (values : List Value)
  | table (entries : List (String × Value))

/-- How a table came to be. -/
inductive Origin where
  /-- It is a part of the key of another table. -/
  | implied
  /-- It is a part of the key of a value. -/
  | dotted
  /-- It has a line of its own. -/
  | declared
deriving DecidableEq

/-- What a key stands for while a file is read. -/
inductive Item where
  | value (v : Value)
  | table (origin : Origin) (entries : List (String × Item))
  /-- Tables under one key, the last of which is still open. -/
  | tables (earlier : List (List (String × Item))) (last : List (String × Item))

/-- The entries of a table. -/
abbrev Entries := List (String × Item)

/-! ## Entries -/

/-- What a function makes of the value of a key; the entry is added if there is none. -/
def alter {α : Type} (key : String) (change : Option α → α) : List (String × α) → List (String × α)
  | [] => [(key, change none)]
  | (k, a) :: rest =>
    if k = key then (k, change (some a)) :: rest else (k, a) :: alter key change rest

/-! ## Building a tree -/

/-- A change of the table at the end of a path. It is told how the table came to be. -/
abbrev Change := Origin → Entries → Option Entries

/-- Change the table at the end of a path below a table. Tables that are missing on the way are
made; of tables under one key the path goes through the last. A dotted key does not reach into a
table that was declared. -/
def changeAt (made : Origin) (change : Change) : List String → Change
  | [], origin, entries => change origin entries
  | key :: path, _, entries => do
    let changed ← match entries.lookup key with
      | none => (changeAt made change path made []).map (Item.table made)
      | some (.value _) => none
      | some (.table origin inner) =>
        if made = .dotted ∧ origin = .declared then none
        else (changeAt made change path origin inner).map (Item.table origin)
      | some (.tables earlier last) =>
        (changeAt made change path .declared last).map (Item.tables earlier)
    return alter key (fun _ => changed) entries

/-- Give a value to a key that has none. The table in which a dotted key ends must have been made by
dotted keys, and no other key ends in such a table. -/
def assign (path : List String) (v : Value) : Change :=
  changeAt .dotted (fun origin entries => do
    let name ← path.getLast?
    if (origin = .dotted ↔ path.length = 1) ∨ (entries.lookup name).isSome then none
    else some (alter name (fun _ => .value v) entries)) path.dropLast

/-- Declare a table that was not declared before. It stands behind the other entries, even if it was
implied earlier. -/
def declare (path : List String) : Change :=
  changeAt .implied (fun _ entries => do
    let name ← path.getLast?
    let inner ← match entries.lookup name with
      | none => some []
      | some (.table .implied inner) => some inner
      | _ => none
    return entries.filter (·.1 != name) ++ [(name, .table .declared inner)]) path.dropLast

/-- Open another table under a key that stands for a list of tables. -/
def append (path : List String) : Change :=
  changeAt .implied (fun _ entries => do
    let name ← path.getLast?
    let tables ← match entries.lookup name with
      | none => some (Item.tables [] [])
      | some (.tables earlier last) => some (.tables (earlier ++ [last]) [])
      | _ => none
    return alter name (fun _ => tables) entries) path.dropLast

/-! ## Closing a tree -/

mutual

/-- The value that an item of a finished tree is. -/
def Item.toValue : Item → Value
  | .value v => v
  | .table _ entries => .table (entryValues entries)
  | .tables earlier last => .list (tableValues earlier ++ [.table (entryValues last)])

/-- The values of entries. -/
def entryValues : List (String × Item) → List (String × Value)
  | [] => []
  | (key, item) :: rest => (key, item.toValue) :: entryValues rest

/-- The values of tables under one key. -/
def tableValues : List (List (String × Item)) → List Value
  | [] => []
  | entries :: rest => .table (entryValues entries) :: tableValues rest

end

/-- The table that assignments between brackets make. -/
def tableOf? (assignments : List (List String × Value)) : Option Value := do
  let entries ← assignments.foldlM (fun entries (path, v) => assign path v .declared entries) []
  return .table (entryValues entries)

/-! ## Moments in tables -/

/-- The key of a table that stands for a moment, which it holds as a text. -/
def momentKey : String := "$__toml_private_datetime"

/-- The moment that the value of `momentKey` writes. -/
def momentIn? : Value → Option Moment
  | .text s => Moment.read? s
  | _ => none

mutual

/-- The value with a moment in place of each table that stands for one. A table does if `momentKey`
is its first key; then it has to write a moment, and its other entries are not looked at. -/
def Value.resolve? : Value → Option Value
  | .list values => (resolveAll? values).map .list
  | .table [] => some (.table [])
  | .table ((key, v) :: rest) => do
    if key = momentKey then return .moment (← momentIn? v)
    else return .table ((key, ← v.resolve?) :: (← resolveEntries? rest))
  | .text s => some (.text s)
  | .number n => some (.number n)
  | .flag b => some (.flag b)
  | .moment m => some (.moment m)

/-- Resolve the elements of a list. -/
def resolveAll? : List Value → Option (List Value)
  | [] => some []
  | v :: rest => do return (← v.resolve?) :: (← resolveAll? rest)

/-- Resolve the values of entries. -/
def resolveEntries? : List (String × Value) → Option (List (String × Value))
  | [] => some []
  | (key, v) :: rest => do return (key, ← v.resolve?) :: (← resolveEntries? rest)

end

end Manuscript.Toml
