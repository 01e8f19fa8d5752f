import Manuscript.Number.Natural
import Manuscript.Number.Binary

/-!
# Decimal texts of binary numbers

Reading a number from a text, and the shortest text that reads back as the same number. Two layouts
are written: the plain one, which never uses an exponent, and the one of document files, which marks
a number as not whole and uses exponents for very large and very small numbers.
-/

namespace Manuscript.Number

open Manuscript.Character (isAsciiDigit)

/-! ## Reading -/

/-- A sign in front of a number, and what follows it. -/
def splitSign : List Char → Bool × List Char
  | '-' :: rest => (true, rest)
  | '+' :: rest => (false, rest)
  | cs => (false, cs)

/-- The exponent part of a number: nothing, or an `e`, a sign and at least one digit. -/
def exponent? : List Char → Option Int
  | [] => some 0
  | c :: rest =>
    if c = 'e' ∨ c = 'E' then
      let (negative, ds) := splitSign rest
      (digits? ds).map fun n => if negative then -(n : Int) else n
    else none

/-- The number that a text writes: digits with at most one point among or around them, after an
optional sign and in front of an optional exponent. -/
def Binary.read? {f : Format} (cs : List Char) : Option (Binary f) :=
  let (negative, unsigned) := splitSign cs
  let whole := unsigned.takeWhile isAsciiDigit
  let afterWhole := unsigned.dropWhile isAsciiDigit
  let (fraction, afterFraction) := match afterWhole with
    | '.' :: rest => (rest.takeWhile isAsciiDigit, rest.dropWhile isAsciiDigit)
    | _ => ([], afterWhole)
  if (whole ++ fraction).isEmpty then none
  else (exponent? afterFraction).map fun e =>
    Binary.ofDecimal negative (ofDigits 0 (whole ++ fraction)) (e - fraction.length)

/-! ## The shortest digits -/

/-- Which of two decimals is taken if a number lies in the middle between them. -/
inductive Tie where
  /-- The one whose last digit is even. -/
  | toEven
  /-- The one that is farther from zero. -/
  | away
deriving DecidableEq

/-- The number of the grid of multiples of `10 ^ k` that lies nearest to `value / unit`, as a
multiple, if one lies between the bounds. All three are given as numerators over `unit`, and `tie`
says which of two that are equally near is taken. -/
def onGrid? (tie : Tie) (low value high unit : Nat) (inclusive : Bool) (k : Int) : Option Nat :=
  let step := if 0 ≤ k then unit * Nat.pow 10 k.toNat else unit
  let by10 := if 0 ≤ k then 1 else Nat.pow 10 (-k).toNat
  let (low, value, high) := (low * by10, value * by10, high * by10)
  let inside (n : Nat) : Bool :=
    let x := n * step
    if inclusive then low ≤ x && x ≤ high else low < x && x < high
  let below := value / step
  let above := below + 1
  match inside below, inside above with
  | true, true =>
    let toBelow := value - below * step
    let toAbove := above * step - value
    let tieBelow := tie == .toEven && below % 2 == 0
    if toBelow < toAbove || (toBelow == toAbove && tieBelow) then some below else some above
  | true, false => some below
  | false, true => some above
  | false, false => none

/-- Exponents of ten from the first one down to the second. -/
def descending (first last : Int) : List Int :=
  (List.range ((first - last).toNat + 1)).map fun (i : Nat) => first - (i : Int)

/-- The shortest decimal `digits * 10 ^ exponent10` that reads back as `significand * 2 ^ exponent`
in a format, and of several the nearest, where a tie goes as `tie` says. The coarsest grid that is
tried lies above the number, and the finest one has the number itself on it. -/
def shortest (f : Format) (tie : Tie) (significand : Nat) (exponent : Int) : Nat × Int :=
  if significand = 0 then (0, 0)
  else
    let atPowerOfTwo := significand == Nat.pow 2 (f.precision - 1) && f.minExponent < exponent
    let low := 4 * significand - (if atPowerOfTwo then 1 else 2)
    let value := 4 * significand
    let high := 4 * significand + 2
    let (factor, unit) := scale 1 1 (exponent - 2)
    let inclusive := significand % 2 == 0
    let grids := descending (max 0 (exponent + f.precision)) (min 0 exponent)
    let written := grids.findSome? fun k =>
      (onGrid? tie (low * factor) (value * factor) (high * factor) unit inclusive k).map (·, k)
    written.getD (0, 0)

/-! ## Layouts -/

/-- Digits with a point in front of the last `places` of them. -/
def withPoint (ds : List Char) (places : Nat) : List Char :=
  let padded := List.replicate (places + 1 - ds.length) '0' ++ ds
  padded.take (padded.length - places) ++ '.' :: padded.drop (padded.length - places)

/-- Digits times a power of ten, without an exponent. -/
def positional (ds : List Char) (exponent : Int) : List Char :=
  if 0 ≤ exponent then ds ++ List.replicate exponent.toNat '0'
  else withPoint ds (-exponent).toNat

/-- A minus sign in front of negative numbers. -/
def signed (negative : Bool) (cs : List Char) : List Char := if negative then '-' :: cs else cs

/-- The plain layout: no exponent, no point in whole numbers, and ties away from zero. -/
def Binary.plain {f : Format} : Binary f → String
  | .infinite negative => String.ofList (signed negative ['i', 'n', 'f'])
  | .finite negative significand exponent =>
    let (n, e) := shortest f .away significand exponent
    String.ofList (signed negative (positional (Nat.toDigits 10 n) e))

/-- Where the layout of document files turns to exponents: the first digit stands at most this many
places in front of the point. -/
def maxPlacesBefore : Int := 13

/-- Where the layout of document files turns to exponents: at most this many places lie between the
point and the first digit. -/
def maxPlacesAfter : Int := 5

/-- The layout of document files, which has no text for an infinity. Ties go to the even digit. -/
def Binary.layout? {f : Format} : Binary f → Option String
  | .infinite _ => none
  | .finite negative significand exponent =>
    let (n, e) := shortest f .toEven significand exponent
    let ds := Nat.toDigits 10 n
    let before : Int := ds.length + e
    let cs :=
      if n = 0 then ['0', '.', '0']
      else if 0 ≤ e ∧ before ≤ maxPlacesBefore then positional ds e ++ ['.', '0']
      else if e < 0 ∧ -maxPlacesAfter ≤ before ∧ before ≤ maxPlacesBefore then positional ds e
      else
        let mantissa := match ds with
          | [] => []
          | [d] => [d]
          | d :: rest => d :: '.' :: rest
        let sign := if 0 < before then ['+'] else ['-']
        mantissa ++ 'e' :: sign ++ Nat.toDigits 10 (before - 1).natAbs
    some (String.ofList (signed negative cs))

end Manuscript.Number
