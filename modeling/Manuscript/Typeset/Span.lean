import Manuscript.Number.Binary
import Manuscript.Typeset.Normalize

/-!
# Spans and paragraphs

A span is a stretch of set text with one emphasis. Spans are joined to sentences and sentences to
paragraphs; neighbours of equal emphasis are merged in the end.
-/

namespace Manuscript

open Manuscript.Number (Binary32)
open Manuscript.Character (isBlank)
open Manuscript.Typeset

/-- How a stretch of text stands out. -/
inductive Emphasis where
  | regular
  | italic
  | bold
  /-- Markers of endnotes. -/
  | superscript
deriving DecidableEq

namespace Emphasis

/-- The spelling of an emphasis. -/
def name : Emphasis → String
  | regular => "regular"
  | italic => "italic"
  | bold => "bold"
  | superscript => "superscript"

/-- The emphasis that is left of a requested one under what a style allows. -/
def gate (bold italic : Allowance) : Emphasis → Emphasis
  | .bold => if bold.permits then .bold else .regular
  | .italic => if italic.permits then .italic else .regular
  | other => other

end Emphasis

/-- A stretch of text with one emphasis. -/
structure Span where
  text : String
  emphasis : Emphasis
deriving DecidableEq

namespace Span

/-- Text that does not stand out. -/
def regular (text : String) : Span := ⟨text, .regular⟩

/-- Text in italics. -/
def italic (text : String) : Span := ⟨text, .italic⟩

/-- The text of spans, whatever their emphasis. -/
def plainText (spans : List Span) : String := String.join (spans.map Span.text)

/-- Put a span in front of merged spans. -/
def mergeInto (s : Span) : List Span → List Span
  | [] => [s]
  | t :: rest =>
    if s.emphasis = t.emphasis then ⟨s.text ++ t.text, s.emphasis⟩ :: rest else s :: t :: rest

/-- Leave out empty spans and merge neighbours of equal emphasis. -/
def merge : List Span → List Span
  | [] => []
  | s :: rest => if s.text.isEmpty then merge rest else mergeInto s (merge rest)

/-! ## Sentences -/

/-- A space belongs between two texts of a sentence. -/
def needsSpaceBetween (previous next : String) : Bool :=
  match previous.toList.getLast?, next.toList.head? with
  | some last, some first =>
    !isBlank last && !isBlank first && !openingMarks.contains last
      && !(closingMarks.drop 2).contains first
      && !(['.', ',', ';', ':', '!', '?'].contains first)
  | _, _ => false

/-- Join the spans that follow a span of the same sentence. -/
def joinAfter (previous : Span) : List Span → List Span
  | [] => []
  | s :: rest =>
    if s.emphasis ≠ .superscript ∧ needsSpaceBetween previous.text s.text then
      regular " " :: s :: joinAfter s rest
    else s :: joinAfter s rest

/-- Join the runs of a sentence by single spaces. Markers of notes stand directly behind a run. -/
def joinSentence (spans : List Span) : List Span :=
  match spans.filter fun s => !s.text.isEmpty with
  | [] => []
  | s :: rest => s :: joinAfter s rest

/-- Capitalize the start of a sentence. -/
def capitalizeStart : List Span → List Span
  | [] => []
  | s :: rest => ⟨String.ofList (capitalizeFirst s.text.toList), s.emphasis⟩ :: rest

/-- The sentence without the markers at its end, and those markers. -/
def splitMarkers (spans : List Span) : List Span × List Span :=
  let isMarker (s : Span) : Bool := s.emphasis == .superscript
  ((spans.reverse.dropWhile isMarker).reverse, (spans.reverse.takeWhile isMarker).reverse)

/-- Put a full stop at the end of a sentence that has none. It stands in front of the markers. -/
def finish (isTerminal : Char → Bool) (spans : List Span) : List Span :=
  let (words, markers) := splitMarkers spans
  match words.getLast? with
  | none => spans
  | some last =>
    if endsSentence isTerminal last.text.toList then spans else words ++ regular "." :: markers

/-- A joined sentence with a capital at its start and a stop at its end. -/
def complete (isTerminal : Char → Bool) (spans : List Span) : List Span :=
  finish isTerminal (capitalizeStart spans)

end Span

/-! ## Paragraphs -/

/-- A paragraph, with the indentation of its first line in points. -/
structure Paragraph where
  indentation : Binary32
  spans : List Span
deriving DecidableEq

namespace Paragraph

/-- The text of a paragraph. -/
def text (p : Paragraph) : String := Span.plainText p.spans

/-- Sentences one after the other, with a separator in front of all but the first. -/
def chain (separator : String) : List (List Span) → List Span
  | [] => []
  | [sentence] => sentence
  | sentence :: next :: rest =>
    sentence ++ (if separator.isEmpty then [] else [Span.regular separator])
      ++ chain separator (next :: rest)

/-- Set sentences as one paragraph. Sentences without text are left out. -/
def assemble (indentation : Binary32) (separator : String) (completes : Bool)
    (isTerminal : Char → Bool) (sentences : List (List Span)) : Paragraph :=
  let joined := (sentences.map Span.joinSentence).filter fun s => !s.isEmpty
  let finished := if completes then joined.map (Span.complete isTerminal) else joined
  ⟨indentation, Span.merge (chain separator finished)⟩

end Paragraph

end Manuscript
