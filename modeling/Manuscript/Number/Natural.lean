import Manuscript.Character.Letter

/-!
# Whole numbers in texts

Reading the whole numbers that a specification may contain, which fit in 32 bits, and writing them
as ordinals and as Roman numerals.
-/

namespace Manuscript.Number

open Manuscript.Character (isAsciiDigit)

/-- The largest whole number that is read. -/
def limit : Nat := 4294967295

/-- The value of a digit. -/
def digitValue (c : Char) : Nat := c.toNat - '0'.toNat

/-- The number that a list of digits denotes, after the digits of `high`. -/
def ofDigits (high : Nat) (ds : List Char) : Nat :=
  ds.foldl (fun n d => 10 * n + digitValue d) high

/-- The number written by a non-empty list of digits, of any length. -/
def digits? (cs : List Char) : Option Nat :=
  if cs.isEmpty || !cs.all isAsciiDigit then none else some (ofDigits 0 cs)

/-- The number written by a text: digits after at most one plus sign, at most `limit`. -/
def natural? (cs : List Char) : Option Nat :=
  let unsigned := match cs with
    | '+' :: rest => rest
    | _ => cs
  (digits? unsigned).bind fun n => if n ≤ limit then some n else none

/-- A number that is not zero. -/
def positive? (cs : List Char) : Option Nat :=
  (natural? cs).bind fun n => if n = 0 then none else some n

/-- The value of a hexadecimal digit. -/
def hexDigit? (c : Char) : Option Nat :=
  if '0' ≤ c ∧ c ≤ '9' then some (c.toNat - '0'.toNat)
  else if 'a' ≤ c ∧ c ≤ 'f' then some (c.toNat - 'a'.toNat + 10)
  else if 'A' ≤ c ∧ c ≤ 'F' then some (c.toNat - 'A'.toNat + 10)
  else none

/-! ## Ordinals -/

/-- The English ordinal, such as `1st` or `12th`. -/
def ordinal (n : Nat) : String :=
  let ending :=
    if 11 ≤ n % 100 ∧ n % 100 ≤ 13 then "th"
    else if n % 10 = 1 then "st"
    else if n % 10 = 2 then "nd"
    else if n % 10 = 3 then "rd"
    else "th"
  toString n ++ ending

/-! ## Roman numerals -/

/-- The numerals that a Roman number is put together from, largest first. -/
def numerals : List (Nat × List Char) :=
  [(1000, ['m']), (900, ['c', 'm']), (500, ['d']), (400, ['c', 'd']), (100, ['c']),
    (90, ['x', 'c']), (50, ['l']), (40, ['x', 'l']), (10, ['x']), (9, ['i', 'x']), (5, ['v']),
    (4, ['i', 'v']), (1, ['i'])]

/-- Write each numeral as often as its value fits into what is left of the number. -/
def spell : List (Nat × List Char) → Nat → List Char
  | [], _ => []
  | (value, numeral) :: rest, n =>
      (List.replicate (n / value) numeral).flatten ++ spell rest (n % value)

/-- The number in small Roman numerals; zero is the empty text. -/
def roman (n : Nat) : List Char := spell numerals n

end Manuscript.Number
