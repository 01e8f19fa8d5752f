import Manuscript.Toml.Text
import Manuscript.Toml.Value
import Manuscript.Text.Case

/-!
# Layers of settings

Settings come in layers, of which a later one is laid over the earlier ones: its tables are merged
into theirs, and all its other values replace theirs. Case does not matter in keys. A key at the top
of a layer may name a place further below by a path.
-/

namespace Manuscript.Settings

open Manuscript.Toml (Value Scan alter)

/-! ## Merging -/

/-- The entries of a table. No other value has any. -/
def entriesOf : Value → List (String × Value)
  | .table entries => entries
  | _ => []

mutual

/-- Lay a value over what a table has under a key. -/
def put (key : String) (v : Value) (base : Value) : Value :=
  let key := Text.lowercase key
  .table (alter key (fun old => match v with
    | .table entries => putAll entries (old.getD (.table []))
    | v => v) (entriesOf base))

/-- Lay entries over a table, one after the other. Without entries even a value that is no table
stays as it is. -/
def putAll (entries : List (String × Value)) (base : Value) : Value :=
  match entries with
  | [] => base
  | (key, v) :: rest => putAll rest (put key v base)

end

/-! ## Paths -/

/-- A step from a value to one that it is made of. -/
inductive PathStep where
  | key (name : String)
  /-- A place in a list, counted from its end if negative. -/
  | index (i : Int)

/-- A place in a table: a key, and steps from its value on. -/
structure Path where
  first : String
  steps : List PathStep

/-- A character of a name in a path. -/
def isNameCharacter (c : Char) : Bool := c.isAlphanum || c == ' ' || c == '_' || c == '-'

/-- A name in a path. -/
def name : Scan String := fun cs =>
  let cs' := cs.takeWhile isNameCharacter
  if cs'.isEmpty then none else some (String.ofList cs', cs.drop cs'.length)

/-- A place in a list, between brackets. -/
def index : Scan Int := fun cs => do
  let (_, cs) ← Scan.one (· == '[') cs
  let (_, cs) ← Toml.spaces cs
  let (minus, cs) ← Scan.optional (Scan.one (· == '-')) cs
  let (ds, cs) ← Scan.run Character.isAsciiDigit cs
  let (_, cs) ← Toml.spaces cs
  let (_, cs) ← Scan.one (· == ']') cs
  let n : Int := ← Number.digits? ds
  let i := if minus.isSome then -n else n
  if Toml.fits i then return (i, cs) else none

/-- A step of a path: a point and a name, or a place in a list. -/
def step : Scan PathStep :=
  .either
    (fun cs => do
      let (_, cs) ← Scan.one (· == '.') cs
      let (s, cs) ← name cs
      return (.key s, cs))
    (fun cs => (index cs).map fun (i, rest) => (.index i, rest))

/-- The path that a key writes, if it writes one. -/
def Path.read? (key : String) : Option Path := do
  let (first, cs) ← name key.toList
  let (steps, cs) ← Scan.many step cs
  if cs.isEmpty then some ⟨first, steps⟩ else none

/-- The elements of a list. No other value has any. -/
def elementsOf : Value → List Value
  | .list values => values
  | _ => []

/-- What a function makes of an element of a list, which is filled up with empty tables to hold it.
-/
def alterElement (i : Int) (change : Value → Value) (values : List Value) : List Value :=
  let place := if 0 ≤ i then i.toNat else values.length - i.natAbs
  let filled := values ++ List.replicate (place + 1 - values.length) (.table [])
  filled.modify place change

/-- Lay a value over what stands at the end of a path. A step by key makes a table of anything that
is none, and a step by place makes a list of anything that is none. -/
def putAt (v : Value) : List PathStep → Value → Value
  | [], _ => v
  | [.key s], base => put s v base
  | .key s :: steps, base =>
    .table (alter (Text.lowercase s) (fun old => putAt v steps (old.getD (.table [])))
      (entriesOf base))
  | .index i :: steps, base => .list (alterElement i (putAt v steps) (elementsOf base))

/-- Lay a value over what stands at a path. -/
def Path.put (p : Path) (v : Value) (base : Value) : Value :=
  putAt v (.key p.first :: p.steps) base

/-- Lay the entries of a layer over a table. A key that writes no path is taken as it is. -/
def overlay (base : Value) (layer : List (String × Value)) : Value :=
  layer.foldl (fun base (key, v) =>
    match Path.read? key with
    | some path => path.put v base
    | none => put key v base) base

end Manuscript.Settings
