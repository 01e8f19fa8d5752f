import Manuscript.Number.Decimal
import Manuscript.Toml.Scan

/-!
# Numbers of settings files

Whole numbers fit in 64 bits and may have a base of 16, 8 or 2. Other numbers are of double
precision. Single underscores may divide the digits of all of them.
-/

namespace Manuscript.Toml

open Manuscript.Number (Binary64)
open Manuscript.Character (isAsciiDigit)

/-- A number of a settings file. -/
inductive Numeral where
  | whole (n : Int)
  | real (x : Binary64)
  | notANumber

/-! ## Digits -/

/-- Digits with underscores between some of them, which are left out. -/
def digitRun (isDigit : Char → Bool) : Scan (List Char) := fun cs => do
  let (first, cs) ← Scan.one isDigit cs
  let further : Scan Char := fun cs => do
    let (_, cs) ← Scan.optional (Scan.one (· == '_')) cs
    Scan.one isDigit cs
  let (ds, cs) ← Scan.many further cs
  return (first :: ds, cs)

/-- A sign, and whether it is a minus. -/
def sign : Scan Bool := fun cs => some (Number.splitSign cs)

/-- Decimal digits that do not start with a zero, or a single zero. -/
def wholeDigits : Scan (List Char)
  | '0' :: rest => some (['0'], rest)
  | cs => digitRun isAsciiDigit cs

/-! ## Whole numbers -/

/-- The number fits in 64 bits. -/
def fits (n : Int) : Bool := -9223372036854775808 ≤ n && n ≤ 9223372036854775807

/-- A whole number if it fits. -/
def wholeNumeral? (n : Int) : Option Numeral := if fits n then some (.whole n) else none

/-- A digit of a base that is at most 16. -/
def isDigitOf (base : Nat) (c : Char) : Bool :=
  match Number.hexDigit? c with
  | some n => n < base
  | none => false

/-- A number behind the mark of its base. -/
def based (mark : Char) (base : Nat) : Scan Numeral := fun cs => do
  let (_, cs) ← Scan.spelling ['0', mark] cs
  let (ds, cs) ← digitRun (isDigitOf base) cs
  let n := ds.foldl (fun n d => base * n + (Number.hexDigit? d).getD 0) 0
  return (← wholeNumeral? n, cs)

/-- A whole number with a sign. -/
def wholeNumber : Scan Numeral := fun cs => do
  let (negative, cs) ← sign cs
  let (ds, cs) ← wholeDigits cs
  let n : Int := Number.ofDigits 0 ds
  return (← wholeNumeral? (if negative then -n else n), cs)

/-! ## Other numbers -/

/-- The digits behind a point. -/
def fraction : Scan (List Char) := fun cs => do
  let (_, cs) ← Scan.one (· == '.') cs
  digitRun isAsciiDigit cs

/-- An exponent of ten. -/
def exponent : Scan Int := fun cs => do
  let (_, cs) ← Scan.one (fun c => c == 'e' || c == 'E') cs
  let (negative, cs) ← sign cs
  let (ds, cs) ← digitRun isAsciiDigit cs
  let n : Int := Number.ofDigits 0 ds
  return (if negative then -n else n, cs)

/-- A number with a point or an exponent. One that is too large is refused, unless it is negative.
-/
def decimal : Scan Numeral := fun cs => do
  let (negative, cs) ← sign cs
  let (ds, cs) ← wholeDigits cs
  let (places, cs) ← Scan.optional fraction cs
  let (power, cs) ← Scan.optional exponent cs
  let places' := places.getD []
  if places.isNone && power.isNone then none
  else
    let x : Binary64 := .ofDecimal negative (Number.ofDigits 0 (ds ++ places'))
      (power.getD 0 - places'.length)
    if x = .infinite false then none else some (.real x, cs)

/-- The values that have names. -/
def namedNumber : Scan Numeral := fun cs => do
  let (negative, cs) ← sign cs
  let infinity : Scan Numeral := fun cs =>
    (Scan.spelling ['i', 'n', 'f'] cs).map fun (_, rest) => (.real (.infinite negative), rest)
  let nan : Scan Numeral := fun cs =>
    (Scan.spelling ['n', 'a', 'n'] cs).map fun (_, rest) => (.notANumber, rest)
  Scan.either infinity nan cs

/-- A number of any form. -/
def numeral : Scan Numeral :=
  .either decimal (.either namedNumber (.either (based 'x' 16) (.either (based 'o' 8)
    (.either (based 'b' 2) wholeNumber))))

end Manuscript.Toml
