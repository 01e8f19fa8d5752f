import Mathlib.Tactic.MkIffOfInductiveProp
import Manuscript.Validation.Check

/-!
# Valid specifications

What a specification has to satisfy to be used, said for each of its nodes by itself. Nothing here
depends on the order in which a specification is checked or on what is reported about it.

* `Literal.HasContent`, `IsValue`, `IsPositive`, `IsSpacing` and `IsDate` are about single texts.
* A structure `Valid` for each node lists the conditions on its fields and parts.
* `Specification.Valid` adds the conditions that tie sections to each other.
-/

namespace Manuscript

open Manuscript.Character (isAsciiDigit)

/-! ## Literals -/

namespace Literal

/-- The text has a character that is no white space. -/
def HasContent (l : Literal) : Prop := ∃ c ∈ l.value.toList, Character.isBlank c = false

/-- The text stands for a value of a type. -/
def IsValue {α : Type} (r : Reader α) (l : Literal) : Prop := ∃ value, r.read? l.value = some value

/-- The trimmed text is a whole number from one on that fits in 32 bits: digits, with at most one
plus sign in front. -/
def IsPositive (l : Literal) : Prop :=
  ∃ sign digits, l.trimmedChars = sign ++ digits ∧ (sign = [] ∨ sign = ['+']) ∧ digits ≠ []
    ∧ (∀ d ∈ digits, isAsciiDigit d = true)
    ∧ 0 < Number.ofDigits 0 digits ∧ Number.ofDigits 0 digits < 4294967296

/-- The trimmed text is a positive number that is finite. -/
def IsSpacing (l : Literal) : Prop :=
  ∃ x : Number.Binary32, Number.Binary.read? l.trimmedChars = some x
    ∧ x.isFinite = true ∧ x.isPositive = true

/-- The trimmed text is a day of the calendar. -/
def IsDate (l : Literal) : Prop := ∃ d, Date.read? l.trimmedChars = some d

/-- The trimmed text is the word that says that there is no date, in any case. -/
def SaysNone (l : Literal) : Prop :=
  l.trimmedChars.map Char.toLower = ['n', 'o', 'n', 'e']

end Literal

/-! ## Title, people and publication -/

/-- No fragment is blank, and there is one. -/
@[mk_iff]
structure Title.Valid (t : Title) : Prop where
  content : ∀ fragment ∈ t.fragments, fragment.literal.HasContent
  declared : t.fragments ≠ []

/-- No field is blank, and the person goes by one name, or by a first and a last name. -/
@[mk_iff]
structure Person.Valid (p : Person) : Prop where
  content : ∀ field ∈ [p.name, p.firstname, p.lastname, p.role, p.institution],
    ∀ l ∈ field, l.HasContent
  named : p.name.isSome ∧ p.firstname = none ∧ p.lastname = none
    ∨ p.name = none ∧ p.firstname.isSome ∧ p.lastname.isSome

/-- No field is blank, the date is a day or is said to be none, the edition is a number, and a chair
belongs to an institution. -/
@[mk_iff]
structure Publication.Valid (p : Publication) : Prop where
  content : ∀ field ∈ [p.title, p.venue, p.date, p.edition, p.institution, p.chair, p.semester],
    ∀ l ∈ field, l.HasContent
  date : ∀ l ∈ p.date, l.IsDate ∨ l.SaysNone
  edition : ∀ l ∈ p.edition, l.IsPositive
  chair : p.chair.isSome → p.institution.isSome

/-! ## Style -/

@[mk_iff]
structure FontBlock.Valid (b : FontBlock) : Prop where
  name : ∀ l ∈ b.name, l.HasContent
  size : ∀ l ∈ b.size, l.IsPositive
  colour : ∀ l ∈ b.colour, l.IsValue Colour.reader

@[mk_iff]
structure LayoutBlock.Valid (b : LayoutBlock) : Prop where
  width : ∀ l ∈ b.width, l.IsValue Length.reader
  height : ∀ l ∈ b.height, l.IsValue Length.reader
  margin : ∀ l ∈ b.margin, l.IsValue Length.reader
  spacing : ∀ l ∈ b.spacing, l.IsSpacing

@[mk_iff]
structure ParagraphBlock.Valid (b : ParagraphBlock) : Prop where
  indentation : ∀ l ∈ b.indentation, l.IsValue Length.reader

/-- The text in front of sentences may be any. -/
@[mk_iff]
structure SentenceBlock.Valid (b : SentenceBlock) : Prop where
  whitespace : ∀ l ∈ b.whitespace, l.IsValue WhitespacePolicy.reader
  bold : ∀ l ∈ b.bold, l.IsValue Allowance.reader
  italic : ∀ l ∈ b.italic, l.IsValue Allowance.reader

@[mk_iff]
structure NumerationBlock.Valid (b : NumerationBlock) : Prop where
  type : ∀ l ∈ b.type, l.IsValue Numeration.reader
  display : ∀ l ∈ b.display, l.IsValue NumberPlace.reader
  margin : ∀ l ∈ b.margin, l.IsValue Length.reader
  skip : ∀ l ∈ b.skip, l.IsValue PageSpan.reader

@[mk_iff]
structure EndnotesBlock.Valid (b : EndnotesBlock) : Prop where
  allow : ∀ l ∈ b.allow, l.IsValue Allowance.reader
  before : ∀ l ∈ b.before, l.IsValue Part.reader

/-- The parts that a list names and that may stand once: all but the blank pages. -/
def PartList.single (list : PartList) : List Part :=
  (list.parts.filterMap fun l => Part.reader.read? l.value).filter (· ≠ .blankPage)

/-- Every text names a part, and no part but a blank page is named twice. -/
@[mk_iff]
structure PartList.Valid (list : PartList) : Prop where
  parts : ∀ l ∈ list.parts, l.IsValue Part.reader
  once : list.single.Nodup

/-- The blocks are valid, and the names of guides are not blank. -/
@[mk_iff]
structure StyleBlock.Valid (style : StyleBlock) : Prop where
  font : ∀ b ∈ style.font, b.Valid
  layout : ∀ b ∈ style.layout, b.Valid
  paragraph : ∀ b ∈ style.paragraph, b.Valid
  sentence : ∀ b ∈ style.sentence, b.Valid
  numeration : ∀ b ∈ style.numeration, b.Valid
  parts : ∀ list ∈ style.parts, list.Valid
  endnotes : ∀ b ∈ style.endnotes, b.Valid
  base : ∀ l ∈ style.base, l.HasContent
  citation : ∀ l ∈ style.citation, l.HasContent

/-! ## Content -/

/-- The page of a citation. -/
def Run.page? : Run → Option Literal
  | citation _ page => page
  | _ => none

/-- Neither the run nor its page is blank. -/
@[mk_iff]
structure Run.Valid (r : Run) : Prop where
  content : r.literal.HasContent
  page : ∀ l ∈ r.page?, l.HasContent

/-- All runs are valid, and there is a sentence. -/
@[mk_iff]
structure ContentBlock.Valid (b : ContentBlock) : Prop where
  runs : ∀ s ∈ b.sentences, ∀ r ∈ s.runs, r.Valid
  declared : b.sentences ≠ []

/-- There is an id that is not blank, and the other fields are neither blank nor unreadable. -/
@[mk_iff]
structure Image.Valid (i : Image) : Prop where
  id : ∃ l ∈ i.id, l.HasContent
  width : ∀ l ∈ i.width, l.HasContent ∧ l.IsValue Length.reader
  height : ∀ l ∈ i.height, l.HasContent ∧ l.IsValue Length.reader
  size : ∀ l ∈ i.size, l.HasContent ∧ l.IsValue percentageReader
  display : ∀ l ∈ i.display, l.HasContent ∧ l.IsValue Alignment.reader

/-- What an element consists of is valid. -/
def Element.Valid : Element → Prop
  | .chapter heading => heading.HasContent
  | .content b => b.Valid
  | .image i => i.Valid
  | .header _ | .blank _ => True

/-! ## Bibliography -/

/-- The field that only sources of this kind have to have. -/
def Source.HasOwn (s : Source) : Prop :=
  match s.kind with
  | .book | .videogame => s.publisher.isSome
  | .periodical => s.journal.isSome
  | .webpage => s.website.isSome ∨ s.url.isSome
  | .music | .poem => True

/-- No field and no author is blank, the required fields are there, and numbers, pages and the date
can be read. -/
@[mk_iff]
structure Source.Valid (s : Source) : Prop where
  content : ∀ field ∈ [s.id, s.title, s.publisher, s.year, s.edition, s.container, s.journal,
    s.volume, s.issue, s.pages, s.album, s.label, s.platform, s.website, s.url, s.accessed],
    ∀ l ∈ field, l.HasContent
  authors : ∀ l ∈ s.authors, l.HasContent
  title : s.title.isSome
  own : s.HasOwn
  volume : ∀ l ∈ s.volume, l.IsPositive
  issue : ∀ l ∈ s.issue, l.IsPositive
  edition : ∀ l ∈ s.edition, l.IsPositive
  pages : ∀ l ∈ s.pages, l.IsValue PageSpan.reader
  accessed : ∀ l ∈ s.accessed, l.IsDate

/-- The sources are valid, and no two have one id. -/
@[mk_iff]
structure Bibliography.Valid (b : Bibliography) : Prop where
  sources : ∀ s ∈ b.sources, s.Valid
  ids : (b.sources.filterMap fun s => s.id.map Literal.trimmed).Nodup

/-! ## The whole specification -/

/-- The sections are valid, a book has a venue, and every citation has the id of a source. -/
@[mk_iff]
structure Specification.Valid (spec : Specification) : Prop where
  version : ∀ l ∈ spec.version, l.HasContent
  title : spec.title.Valid
  authored : spec.authors.members ≠ []
  authors : ∀ p ∈ spec.authors.members, p.Valid
  assessors : ∀ p ∈ spec.assessors.members, p.Valid
  publication : ∀ p ∈ spec.publication, p.Valid
  style : ∀ style ∈ spec.style, style.Valid
  body : ∀ e ∈ spec.body.elements, e.Valid
  bibliography : ∀ b ∈ spec.bibliography, b.Valid
  documentType : ∀ l ∈ spec.documentType, l.IsValue DocumentType.reader
  venue : ∀ l ∈ spec.documentType, DocumentType.reader.read? l.value = some .book →
    ∃ p ∈ spec.publication, p.venue.isSome
  citations : ∀ s ∈ spec.body.sentences, ∀ l ∈ s.citations,
    ∃ b ∈ spec.bibliography, ∃ source ∈ b.sources, ∃ id ∈ source.id, id.trimmed = l.trimmed

end Manuscript
