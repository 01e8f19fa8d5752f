import Manuscript.Calendar
import Manuscript.Toml.Scan

/-!
# Dates and times of settings files

A moment is a day, a time of day, or both, and then perhaps the distance from universal time.
-/

namespace Manuscript.Toml

open Manuscript.Character (isAsciiDigit)

/-- A time of day. -/
structure DayTime where
  hour : Nat
  minute : Nat
  second : Nat
  nanosecond : Nat

/-- Where a time of day applies. -/
inductive Zone where
  /-- Universal time. -/
  | universal
  /-- A distance in minutes from universal time. -/
  | offset (minutes : Int)

/-- A date or a time of a settings file. -/
inductive Moment where
  | day (d : Date)
  | time (t : DayTime)
  | both (d : Date) (t : DayTime) (zone : Option Zone)

/-! ## Reading -/

/-- A number of exactly `width` digits in a range. -/
def fixed (width low high : Nat) : Scan Nat := fun cs => do
  let ds := cs.take width
  let n ← Number.digits? ds
  if ds.length = width ∧ low ≤ n ∧ n ≤ high then some (n, cs.drop width) else none

/-- A day, such as `2023-06-03`. -/
def day : Scan Date := fun cs => do
  let (year, cs) ← fixed 4 0 9999 cs
  let (_, cs) ← Scan.one (· == '-') cs
  let (month, cs) ← fixed 2 1 12 cs
  let (_, cs) ← Scan.one (· == '-') cs
  let (dayOfMonth, cs) ← fixed 2 1 (Date.daysIn year month) cs
  return (⟨year, month, dayOfMonth⟩, cs)

/-- The part of a second behind a point, in nanoseconds. Further digits are dropped. -/
def nanoseconds : Scan Nat := fun cs => do
  let (_, cs) ← Scan.one (· == '.') cs
  let ds := cs.takeWhile isAsciiDigit
  let n ← Number.digits? (ds.take 9)
  return (n * Nat.pow 10 (9 - ds.length), cs.drop ds.length)

/-- A time of day, such as `07:32:00.5`. A minute may end with a leap second. -/
def dayTime : Scan DayTime := fun cs => do
  let (hour, cs) ← fixed 2 0 23 cs
  let (_, cs) ← Scan.one (· == ':') cs
  let (minute, cs) ← fixed 2 0 59 cs
  let (_, cs) ← Scan.one (· == ':') cs
  let (second, cs) ← fixed 2 0 60 cs
  let (part, cs) ← Scan.optional nanoseconds cs
  return (⟨hour, minute, second, part.getD 0⟩, cs)

/-- A zone: `Z`, or a signed distance of hours and minutes. -/
def zone : Scan Zone :=
  let universal : Scan Zone := fun cs => do
    let (_, cs) ← Scan.one (fun c => c == 'Z' || c == 'z') cs
    return (.universal, cs)
  let distance : Scan Zone := fun cs => do
    let (sign, cs) ← Scan.one (fun c => c == '+' || c == '-') cs
    let (hour, cs) ← fixed 2 0 23 cs
    let (_, cs) ← Scan.one (· == ':') cs
    let (minute, cs) ← fixed 2 0 59 cs
    let minutes : Int := 60 * hour + minute
    return (.offset (if sign = '-' then -minutes else minutes), cs)
  .either universal distance

/-- A day, with a time of day and a zone behind it or not. -/
def dayMoment : Scan Moment := fun cs => do
  let (d, cs) ← day cs
  let timeOfDay : Scan (DayTime × Option Zone) := fun cs => do
    let (_, cs) ← Scan.one (fun c => c == 'T' || c == 't' || c == ' ') cs
    let (t, cs) ← dayTime cs
    let (z, cs) ← Scan.optional zone cs
    return ((t, z), cs)
  match ← Scan.optional timeOfDay cs with
  | (some (t, z), cs) => return (.both d t z, cs)
  | (none, cs) => return (.day d, cs)

/-- A moment of any form. -/
def moment : Scan Moment :=
  .either dayMoment fun cs => (dayTime cs).map fun (t, rest) => (.time t, rest)

/-- The moment that a whole text writes. -/
def Moment.read? (s : String) : Option Moment :=
  match moment s.toList with
  | some (m, []) => some m
  | _ => none

/-! ## Writing -/

/-- The day as it is read. -/
def dayText (d : Date) : String :=
  Date.padded 4 d.year.natAbs ++ "-" ++ Date.padded 2 d.month ++ "-" ++ Date.padded 2 d.day

/-- The part of a second behind a point, without zeros at the end; nothing for a full second. -/
def nanosecondText (n : Nat) : String :=
  if n = 0 then ""
  else
    let ds := (Date.padded 9 n).toList.reverse.dropWhile (· == '0')
    "." ++ String.ofList ds.reverse

/-- The time of day as it is read. -/
def DayTime.text (t : DayTime) : String :=
  Date.padded 2 t.hour ++ ":" ++ Date.padded 2 t.minute ++ ":" ++ Date.padded 2 t.second
    ++ nanosecondText t.nanosecond

/-- The zone as it is read. -/
def Zone.text : Zone → String
  | universal => "Z"
  | offset minutes =>
    (if minutes < 0 then "-" else "+") ++ Date.padded 2 (minutes.natAbs / 60) ++ ":"
      ++ Date.padded 2 (minutes.natAbs % 60)

/-- The moment as it is read, with a `T` in front of the time of day. -/
def Moment.text : Moment → String
  | day d => dayText d
  | time t => t.text
  | both d t z => dayText d ++ "T" ++ t.text ++ (z.map Zone.text).getD ""

end Manuscript.Toml
