import Manuscript.Number.Decimal
import Manuscript.Style.Reader
import Manuscript.Text.Bytes
import Manuscript.Text.Quoted

/-!
# Measures

Lengths, relative sizes, colours, page spans and page formats. Lengths end up in points, of which an
inch has 72.
-/

namespace Manuscript

open Manuscript.Number (Binary32)
open Manuscript.Character (isBlank)

/-- The rest of a text in front of an ending. -/
def before? (ending cs : List Char) : Option (List Char) :=
  if ending.isSuffixOf cs then some (cs.take (cs.length - ending.length)) else none

/-! ## Lengths -/

/-- The units in which lengths are written. -/
inductive LengthUnit where
  | inch
  | millimetre
deriving DecidableEq

namespace LengthUnit

/-- The name of a unit. -/
def name : LengthUnit → String
  | inch => "inch"
  | millimetre => "millimetre"

/-- The sign of a unit behind a number. -/
def sign : LengthUnit → String
  | inch => "in"
  | millimetre => "mm"

end LengthUnit

/-- A length that is not negative. -/
structure Length where
  value : Binary32
  unit : LengthUnit
deriving DecidableEq

namespace Length

/-- Points that make up an inch. -/
def pointsPerInch : Binary32 := .round false 72 1

/-- Millimetres that make up an inch. -/
def millimetresPerInch : Binary32 := .round false 254 10

/-- A whole number of tenths of an inch. -/
def tenths (n : Nat) : Length := ⟨.round false n 10, .inch⟩

/-- The length in points. -/
def points (l : Length) : Binary32 :=
  match l.unit with
  | .inch => l.value.mul pointsPerInch
  | .millimetre => (l.value.div millimetresPerInch).mul pointsPerInch

/-- The number and the unit that a trimmed text is made of. A number alone counts millimetres. -/
def split (cs : List Char) : List Char × LengthUnit :=
  match before? ['i', 'n'] cs with
  | some number => (number, .inch)
  | none =>
    match before? ['m', 'm'] cs with
    | some number => (number, .millimetre)
    | none => (cs, .millimetre)

/-- How lengths are read. -/
def reader : Reader Length where
  expected := "length (e.g. 1in or 25mm)"
  read? s :=
    let (number, unit) := split (Text.trimBoth isBlank s.toList)
    (Number.Binary.read? (Text.trimBoth isBlank number)).bind fun value =>
      if value.isFinite && value.isNonNegative then some ⟨value, unit⟩ else none

/-- The length with its unit. -/
def display (l : Length) : String := l.value.plain ++ l.unit.sign

end Length

/-! ## Sizes -/

/-- How percentages are read: a whole number from one on, in front of a percent sign. -/
def percentageReader : Reader Nat where
  expected := "size (a percentage such as 50%)"
  read? s :=
    (before? ['%'] (Text.trimBoth isBlank s.toList)).bind fun number =>
      Number.positive? (Text.trimBoth isBlank number)

/-! ## Colours -/

/-- A colour by its three channels. -/
structure Colour where
  red : UInt8
  green : UInt8
  blue : UInt8
deriving DecidableEq

namespace Colour

/-- The colour of ink. -/
def black : Colour := ⟨0, 0, 0⟩

/-- The channel that two hexadecimal digits write. -/
def channel? : List Char → Option UInt8
  | [high, low] => do
    return UInt8.ofNat (16 * (← Number.hexDigit? high) + (← Number.hexDigit? low))
  | _ => none

/-- The channel that the two bytes behind a border write. -/
def channelAt? (hex : List Char) (start : Nat) : Option UInt8 :=
  (Text.slice? start (start + 2) hex).bind channel?

/-- The text is six bytes long and made of hexadecimal digits. -/
def isHex (cs : List Char) : Bool :=
  Text.byteLength cs == 6 && cs.all fun c => (Number.hexDigit? c).isSome

/-- How colours are read: a hash sign and six hexadecimal digits, of which two bytes each are a
channel. -/
def reader : Reader Colour where
  expected := "colour (#rrggbb)"
  read? s :=
    match Text.trimBoth isBlank s.toList with
    | '#' :: hex =>
      if isHex hex then do
        return ⟨← channelAt? hex 0, ← channelAt? hex 2, ← channelAt? hex 4⟩
      else none
    | _ => none

/-- The digit of a number below 16. -/
def hexDigit (n : Nat) : Char := Nat.digitChar n

/-- A channel as two hexadecimal digits. -/
def hexPair (channel : UInt8) : List Char :=
  [hexDigit (channel.toNat / 16), hexDigit (channel.toNat % 16)]

/-- The colour as it is read, in small letters. -/
def display (c : Colour) : String :=
  String.ofList ('#' :: (hexPair c.red ++ hexPair c.green ++ hexPair c.blue))

end Colour

/-! ## Pages -/

/-- The pages from a first to a last one, both included. -/
structure PageSpan where
  first : Nat
  last : Nat
deriving DecidableEq

namespace PageSpan

/-- The pages of the span, in order. -/
def pages (s : PageSpan) : List Nat := List.range' s.first (s.last + 1 - s.first)

/-- A page number that a text writes, with white space around it allowed. -/
def page? (cs : List Char) : Option Nat := Number.positive? (Text.trimBoth isBlank cs)

/-- How page spans are read: a page, or two pages in ascending order with a hyphen between them. -/
def reader : Reader PageSpan where
  expected := "page or page span (e.g. 3 or 5-12)"
  read? s :=
    match s.toList.span (· != '-') with
    | (cs, []) => (page? cs).map fun n => ⟨n, n⟩
    | (before, _ :: after) => do
      let first ← page? before
      let last ← page? after
      if first < last then some ⟨first, last⟩ else none

end PageSpan

/-- The size of a page, in points. -/
structure PageFormat where
  name : String
  width : Binary32
  height : Binary32
deriving DecidableEq

namespace PageFormat

/-- The American format. -/
def letter : PageFormat := ⟨"letter", .round false 612 1, .round false 792 1⟩

/-- The international format. -/
def a4 : PageFormat := ⟨"a4", .round false 59528 100, .round false 84189 100⟩

end PageFormat

end Manuscript
