import Manuscript.Number.Natural
import Manuscript.Character.Blank

/-!
# Dates

Days of the calendar, extended to all years that a date may have. A date is read from day, month and
year with slashes between them.
-/

namespace Manuscript

open Manuscript.Character (isAsciiDigit isBlank)

/-- A day of the calendar. -/
structure Date where
  year : Int
  month : Nat
  day : Nat
deriving DecidableEq

namespace Date

/-- The year has a 29th of February. -/
def isLeap (year : Int) : Bool := year % 4 == 0 && (year % 100 != 0 || year % 400 == 0)

/-- Days of a month; there are none in a month that does not exist. -/
def daysIn (year : Int) (month : Nat) : Nat :=
  match month with
  | 1 | 3 | 5 | 7 | 8 | 10 | 12 => 31
  | 4 | 6 | 9 | 11 => 30
  | 2 => if isLeap year then 29 else 28
  | _ => 0

/-- The first and the last year that a date may have. -/
def yearRange : Int × Int := (-262143, 262142)

/-- The day exists. -/
def isValid (d : Date) : Bool :=
  yearRange.1 ≤ d.year && d.year ≤ yearRange.2 && 1 ≤ d.day && d.day ≤ daysIn d.year d.month

/-! ## Reading -/

/-- A number of one to `width` digits in front of a text, with white space before it allowed. -/
def number? (width : Nat) (cs : List Char) : Option (Nat × List Char) :=
  let cs := cs.dropWhile isBlank
  let ds := (cs.take width).takeWhile isAsciiDigit
  (Number.digits? ds).map fun n => (n, cs.drop ds.length)

/-- A year in front of a text: at most four digits, or a sign and any number of digits. -/
def year? (cs : List Char) : Option (Int × List Char) :=
  let cs := cs.dropWhile isBlank
  let signed (rest : List Char) : Option (Nat × List Char) :=
    (Number.digits? (rest.takeWhile isAsciiDigit)).map (·, rest.dropWhile isAsciiDigit)
  match cs with
  | '-' :: rest => (signed rest).map fun (n, rest) => (-(n : Int), rest)
  | '+' :: rest => (signed rest).map fun (n, rest) => ((n : Int), rest)
  | _ => (number? 4 cs).map fun (n, rest) => ((n : Int), rest)

/-- The rest of a text behind a slash. -/
def slash? : List Char → Option (List Char)
  | '/' :: rest => some rest
  | _ => none

/-- The day that a text such as `03/06/2023` writes. -/
def read? (cs : List Char) : Option Date := do
  let (day, cs) ← number? 2 cs
  let (month, cs) ← number? 2 (← slash? cs)
  let (year, cs) ← year? (← slash? cs)
  let date : Date := ⟨year, month, day⟩
  if cs.isEmpty && date.isValid then some date else none

/-! ## Writing -/

/-- The English name of a month. -/
def monthName (month : Nat) : String :=
  match month with
  | 1 => "January" | 2 => "February" | 3 => "March" | 4 => "April" | 5 => "May" | 6 => "June"
  | 7 => "July" | 8 => "August" | 9 => "September" | 10 => "October" | 11 => "November"
  | _ => "December"

/-- A number with zeros in front of it up to a width. -/
def padded (width n : Nat) : String :=
  let ds := Nat.toDigits 10 n
  String.ofList (List.replicate (width - ds.length) '0' ++ ds)

/-- The year with at least four digits, and with a sign if it does not lie between 0 and 9999. -/
def yearText (year : Int) : String :=
  if year < 0 then "-" ++ padded 4 year.natAbs
  else if 9999 < year then "+" ++ padded 4 year.natAbs
  else padded 4 year.natAbs

/-- The form `3 June 2023`. -/
def dayFirst (d : Date) : String :=
  toString d.day ++ " " ++ monthName d.month ++ " " ++ yearText d.year

/-- The form `June 3, 2023`. -/
def monthFirst (d : Date) : String :=
  monthName d.month ++ " " ++ toString d.day ++ ", " ++ yearText d.year

end Date

end Manuscript
