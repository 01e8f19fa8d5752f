import Manuscript.Citation.Work
import Manuscript.Number.Natural
import Manuscript.Typeset.Span

/-!
# Bibliography entries

A work is printed as one entry, in the form of a style guide. An entry keeps the key by which the
bibliography is sorted.
-/

namespace Manuscript

open Manuscript.Character (isBlank)

/-- An entry of a bibliography. -/
structure Entry where
  id : Option String
  spans : List Span
  sortKey : String × String
deriving DecidableEq

namespace Entry

/-- The text of an entry. -/
def text (e : Entry) : String := Span.plainText e.spans

/-! ## Pieces of entries -/

/-- The pages of a work inside a larger one. -/
def pageReference (s : PageSpan) : String :=
  if s.first = s.last then "p. " ++ toString s.first
  else "pp. " ++ toString s.first ++ "-" ++ toString s.last

/-- An edition. -/
def editionText (edition : Nat) : String := Number.ordinal edition ++ " ed."

/-- The text with a full stop, unless it ends with a mark that does for one. -/
def withStop (text : String) : String :=
  if text.toList.getLast?.any Typeset.isStop then text else text ++ "."

/-- The spans without the white space at the end of the last one. -/
def trimEnd (spans : List Span) : List Span :=
  match spans.getLast? with
  | none => []
  | some last =>
    spans.dropLast ++ [⟨String.ofList (Text.trimRight isBlank last.text.toList), last.emphasis⟩]

/-- The details as one sentence, or nothing if there are none. -/
def sentenceOf (details : List String) : List Span :=
  if details.isEmpty then [] else [Span.regular (Text.joinWith ", " details ++ ".")]

/-! ## The MLA form -/

/-- The details behind the title or the container, in the MLA form. -/
def mla9Details (w : Work) : List String :=
  let year := w.year.toList
  let own := match w.details with
    | .book publisher edition => (edition.map editionText).toList ++ [publisher] ++ year
    | .music _ label => label.toList ++ year
    | .periodical _ volume issue pages _ =>
      (volume.map fun n => "vol. " ++ toString n).toList
        ++ (issue.map fun n => "no. " ++ toString n).toList ++ year
        ++ (pages.map pageReference).toList
    | .poem _ publisher edition pages =>
      (edition.map editionText).toList ++ publisher.toList ++ year
        ++ (pages.map pageReference).toList
    | .videogame publisher platform =>
      (platform.map (· ++ " version")).toList ++ [publisher] ++ year
    | .webpage _ _ => year
  own ++ w.url.toList

/-- The date on which a work was looked up, where its kind has one. -/
def accessed? (w : Work) : Option Date :=
  match w.details with
  | .periodical _ _ _ _ accessed => accessed
  | .webpage _ accessed => accessed
  | _ => none

/-- An entry in the MLA form: authors, title, container, details and the date of access. -/
def mla9Spans (w : Work) : List Span :=
  let authors :=
    if w.authors.isEmpty then []
    else [Span.regular (withStop (Guide.authorList .mla9 w.authors) ++ " ")]
  let title :=
    if w.standsAlone then [Span.italic w.title, Span.regular ". "]
    else [Span.regular ("\"" ++ withStop w.title ++ "\" ")]
  let details := mla9Details w
  let place := match w.container? with
    | some container =>
      [Span.italic container,
        Span.regular (if details.isEmpty then "." else ", " ++ Text.joinWith ", " details ++ ".")]
    | none => sentenceOf details
  let access := (accessed? w).toList.map fun d =>
    Span.regular (" Accessed " ++ Guide.date .mla9 d ++ ".")
  trimEnd (authors ++ title ++ place ++ access)

/-! ## The house form -/

/-- Volume and issue of a periodical, as `volume(issue)`. -/
def issueText (volume issue : Option Nat) : String :=
  volume.elim "" (toString ·) ++ issue.elim "" fun n => "(" ++ toString n ++ ")"

/-- The details behind the title or the container, in the house form. -/
def houseDetails (w : Work) : List String :=
  let own := match w.details with
    | .book publisher edition => publisher :: (edition.map editionText).toList
    | .music _ label => label.toList
    | .periodical _ volume issue pages _ =>
      (if volume.isNone && issue.isNone then [] else [issueText volume issue])
        ++ (pages.map pageReference).toList
    | .poem _ publisher _ pages => publisher.toList ++ (pages.map pageReference).toList
    | .videogame publisher platform => publisher :: platform.toList
    | .webpage _ _ => []
  own ++ w.url.toList ++ (accessed? w).toList.map fun d => "accessed " ++ Guide.date .house d

/-- An entry in the house form: authors and year, title, container and details. -/
def houseSpans (w : Work) : List Span :=
  let year := w.year.elim "" fun y => " (" ++ y ++ ")"
  let head :=
    if w.authors.isEmpty then [Span.italic w.title, Span.regular (year ++ ". ")]
    else
      [Span.regular (Guide.authorList .house w.authors ++ year ++ ". "),
        if w.standsAlone then Span.italic w.title else Span.regular w.title,
        Span.regular ". "]
  let place := match w.container? with
    | some container => [Span.regular "In ", Span.italic container, Span.regular ". "]
    | none => []
  trimEnd (head ++ place ++ sentenceOf (houseDetails w))

/-! ## Entries -/

/-- The entry of a work in the form of a guide. -/
def ofWork (g : Guide) (w : Work) : Entry :=
  let spans := match g with
    | .mla9 => mla9Spans w
    | .house => houseSpans w
  ⟨w.id, Span.merge spans, w.sortKey⟩

/-- One key sorts before another, or they are equal. -/
def keyLe (k l : String × String) : Bool := k.1 < l.1 || (k.1 == l.1 && k.2 ≤ l.2)

/-- The entries by their keys; entries of one key keep their order. -/
def sort (entries : List Entry) : List Entry :=
  entries.mergeSort fun e f => keyLe e.sortKey f.sortKey

end Entry

end Manuscript
