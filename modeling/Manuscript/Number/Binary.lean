/-!
# Binary numbers of limited precision

Numbers with a significand of a fixed number of bits, as exact values: a sign, a whole significand
and an exponent of two. Every operation takes the exact result and rounds it once, to the nearest
number and to the even one of two that are equally near.
-/

namespace Manuscript.Number

/-- The numbers that a type of binary numbers has room for. -/
structure Format where
  /-- Bits of a significand. -/
  precision : Nat
  /-- The exponent of the smallest numbers. -/
  minExponent : Int
  /-- The exponent of the largest numbers. -/
  maxExponent : Int
deriving DecidableEq

/-- The format of single precision, which measures are kept in. -/
def Format.single : Format := ⟨24, -149, 104⟩

/-- The format of double precision, which settings are kept in. -/
def Format.double : Format := ⟨53, -1074, 971⟩

/-- A number of a format that is not a NaN. -/
inductive Binary (f : Format) where
  /-- The number `significand * 2 ^ exponent`, with its sign. -/
  | finite (negative : Bool) (significand : Nat) (exponent : Int)
  | infinite (negative : Bool)
deriving DecidableEq

/-- A number of single precision. -/
abbrev Binary32 := Binary .single

/-- A number of double precision. -/
abbrev Binary64 := Binary .double

/-- A fraction multiplied by a power of two. -/
def scale (num den : Nat) (exponent : Int) : Nat × Nat :=
  if 0 ≤ exponent then (num * Nat.pow 2 exponent.toNat, den)
  else (num, den * Nat.pow 2 (-exponent).toNat)

/-- The whole number nearest to a fraction, the even one if two are equally near. -/
def roundQuotient (num den : Nat) : Nat :=
  let q := num / den
  let r := num % den
  if den < 2 * r || (2 * r == den && q % 2 == 1) then q + 1 else q

/-- The exponent at which the integer part of a positive fraction fills the significand. -/
def Format.fittingExponent (f : Format) (num den : Nat) : Int :=
  let exponent : Int := (num.log2 : Int) - den.log2 - (f.precision - 1)
  let (n, d) := scale num den (-exponent)
  if n / d < Nat.pow 2 (f.precision - 1) then exponent - 1 else exponent

namespace Binary

variable {f : Format}

/-- The number nearest to a fraction. -/
def round (negative : Bool) (num den : Nat) : Binary f :=
  if num = 0 then finite negative 0 f.minExponent
  else
    let exponent := max (f.fittingExponent num den) f.minExponent
    let (n, d) := scale num den (-exponent)
    let significand := roundQuotient n d
    let (significand, exponent) :=
      if significand = Nat.pow 2 f.precision then (Nat.pow 2 (f.precision - 1), exponent + 1)
      else (significand, exponent)
    if f.maxExponent < exponent then infinite negative else finite negative significand exponent

/-- The number is not an infinity. -/
def isFinite : Binary f → Bool
  | finite .. => true
  | infinite _ => false

/-- The number is zero, of either sign. -/
def isZero : Binary f → Bool
  | finite _ significand _ => significand == 0
  | infinite _ => false

/-- The number is greater than zero. -/
def isPositive : Binary f → Bool
  | finite negative significand _ => !negative && significand != 0
  | infinite negative => !negative

/-- The number is zero or greater. Both zeros are. -/
def isNonNegative (x : Binary f) : Bool := x.isPositive || x.isZero

/-- The number times a positive fraction, rounded. -/
def scaleBy (x : Binary f) (num den : Nat) : Binary f :=
  match x with
  | infinite negative => infinite negative
  | finite negative significand exponent =>
    let (n, d) := scale (significand * num) den exponent
    round negative n d

/-- The number times a positive number. -/
def mul (x : Binary f) : Binary f → Binary f
  | infinite _ => x
  | finite _ significand exponent =>
    let (n, d) := scale significand 1 exponent
    x.scaleBy n d

/-- The number divided by a positive number. -/
def div (x : Binary f) : Binary f → Binary f
  | infinite _ => x
  | finite _ significand exponent =>
    let (n, d) := scale significand 1 exponent
    x.scaleBy d n

/-- The number nearest to `digits * 10 ^ exponent`. Exponents far outside the range of the format
are decided without computing the power of ten, which is larger than the same power of two. -/
def ofDecimal (negative : Bool) (digits : Nat) (exponent : Int) : Binary f :=
  let magnitude := (Nat.toDigits 10 digits).length + exponent
  if digits = 0 ∨ magnitude < f.minExponent then finite negative 0 f.minExponent
  else if f.maxExponent + f.precision < magnitude then infinite negative
  else if 0 ≤ exponent then round negative (digits * Nat.pow 10 exponent.toNat) 1
  else round negative digits (Nat.pow 10 (-exponent).toNat)

end Binary

end Manuscript.Number
