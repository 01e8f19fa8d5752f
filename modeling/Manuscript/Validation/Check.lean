import Manuscript.Specification.Tree
import Manuscript.Style.Choice
import Manuscript.Style.Measure
import Manuscript.Validation.Reading

/-!
# Checking a specification

A specification is checked from the top down and from the parts to the whole; the first fault
counts. A section is only checked after the things in it, so its own rules may rely on them. The
checks of the whole specification come last: they are about more than one section.
-/

namespace Manuscript

/-! ## Title and people -/

/-- No fragment is blank, and there is one. -/
def Title.check (t : Title) : Except Fault Unit := do
  t.fragments.forM fun fragment => fragment.literal.requireContent "title"
  if t.fragments.isEmpty then throw ⟨.noTitle, t.position⟩

/-- No field is blank, and the person goes either by one name or by a first and a last name. -/
def Person.check (p : Person) : Except Fault Unit := do
  checkContent p.name "name"
  checkContent p.firstname "firstname"
  checkContent p.lastname "lastname"
  checkContent p.role "role"
  checkContent p.institution "institution"
  match p.name, p.firstname, p.lastname with
  | some _, none, none => return ()
  | none, some _, some _ => return ()
  | some _, _, _ => throw (.found .nameAndParts p.position)
  | none, some _, none => throw (.found .noLastname p.position)
  | none, none, some _ => throw (.found .noFirstname p.position)
  | none, none, none => throw (.found .noName p.position)

/-- Every author passes, and there is one. -/
def People.checkAuthors (authors : People) : Except Fault Unit := do
  authors.members.forM Person.check
  if authors.members.isEmpty then throw ⟨.noAuthor, authors.position⟩

/-- Every assessor passes. -/
def People.checkAssessors (assessors : People) : Except Fault Unit :=
  assessors.members.forM Person.check

/-! ## Publication -/

/-- No field is blank, the date and the edition can be read, and a chair has an institution. -/
def Publication.check (p : Publication) : Except Fault Unit := do
  p.fields.forM fun (name, field) => checkContent field name
  checkField Literal.date p.date
  checkField (Literal.positive "edition") p.edition
  match p.chair, p.institution with
  | some chair, none => throw (.found .chairAlone chair.position)
  | _, _ => return ()

/-! ## Style -/

/-- The name is not blank; size and colour can be read. -/
def FontBlock.check (b : FontBlock) : Except Fault Unit := do
  checkContent b.name "font name"
  checkField (Literal.positive "font size") b.size
  checkField (Literal.parse Colour.reader) b.colour

/-- The lengths and the line spacing can be read. -/
def LayoutBlock.check (b : LayoutBlock) : Except Fault Unit := do
  checkField (Literal.parse Length.reader) b.width
  checkField (Literal.parse Length.reader) b.height
  checkField (Literal.parse Length.reader) b.margin
  checkField Literal.spacing b.spacing

/-- The length can be read. -/
def ParagraphBlock.check (b : ParagraphBlock) : Except Fault Unit :=
  checkField (Literal.parse Length.reader) b.indentation

/-- The allowances can be read. -/
def SentenceBlock.check (b : SentenceBlock) : Except Fault Unit := do
  checkField (Literal.parse WhitespacePolicy.reader) b.whitespace
  checkField (Literal.parse Allowance.reader) b.bold
  checkField (Literal.parse Allowance.reader) b.italic

/-- The settings and the pages can be read. -/
def NumerationBlock.check (b : NumerationBlock) : Except Fault Unit := do
  checkField (Literal.parse Numeration.reader) b.type
  checkField (Literal.parse NumberPlace.reader) b.display
  checkField (Literal.parse Length.reader) b.margin
  b.skip.forM fun l => (l.parse PageSpan.reader).map fun _ => ()

/-- The settings can be read. -/
def EndnotesBlock.check (b : EndnotesBlock) : Except Fault Unit := do
  checkField (Literal.parse Allowance.reader) b.allow
  checkField (Literal.parse Part.reader) b.before

/-- The parts that a list declares. -/
def PartList.read (list : PartList) : Except Fault (List Part) :=
  list.parts.mapM (Literal.parse Part.reader)

/-- No part that may stand once is among the parts seen before or stands twice. -/
def checkPartsOnce (seen : List Part) : List (Literal × Part) → Except Fault Unit
  | [] => .ok ()
  | (l, part) :: rest =>
    if part.isRepeatable then checkPartsOnce seen rest
    else if seen.contains part then .error (.found (.repeatedPart part) l.position)
    else checkPartsOnce (part :: seen) rest

/-- Every part can be read, and those that may stand once do. -/
def PartList.check (list : PartList) : Except Fault Unit := do
  checkPartsOnce [] (list.parts.zip (← list.read))

/-- A check of a block that need not be there. -/
def checkBlock {α : Type} (check : α → Except Fault Unit) : Option α → Except Fault Unit
  | some b => check b
  | none => .ok ()

/-- Every block passes, and the names of the guides are not blank. -/
def StyleBlock.check (style : StyleBlock) : Except Fault Unit := do
  checkBlock FontBlock.check style.font
  checkBlock LayoutBlock.check style.layout
  checkBlock ParagraphBlock.check style.paragraph
  checkBlock SentenceBlock.check style.sentence
  checkBlock NumerationBlock.check style.numeration
  checkBlock PartList.check style.parts
  checkBlock EndnotesBlock.check style.endnotes
  checkContent style.base "style name"
  checkContent style.citation "citation style"

/-! ## Content -/

/-- Neither the run nor its page is blank. -/
def Run.check (r : Run) : Except Fault Unit := do
  r.literal.requireContent "sentence"
  match r with
  | .citation _ page => checkContent page "page"
  | _ => return ()

/-- No run is blank. -/
def Sentence.check (s : Sentence) : Except Fault Unit := s.runs.forM Run.check

/-- Every sentence passes, and there is one. -/
def ContentBlock.check (b : ContentBlock) : Except Fault Unit := do
  b.sentences.forM Sentence.check
  if b.sentences.isEmpty then throw (.found (.noSentences b.kind) b.position)

/-- A field that need not be there is not blank and can be read. -/
def checkValue {α : Type} (field : Option Literal) (name : String) (r : Reader α) :
    Except Fault Unit := do
  checkContent field name
  checkField (Literal.parse r) field

/-- There is an id, no field is blank, and the settings can be read. -/
def Image.check (i : Image) : Except Fault Unit := do
  match i.id with
  | none => throw (.found .noImageId i.position)
  | some id => id.requireContent "image id"
  checkValue i.width "width" Length.reader
  checkValue i.height "height" Length.reader
  checkValue i.size "size" percentageReader
  checkValue i.display "display" Alignment.reader

/-- The element passes. -/
def Element.check : Element → Except Fault Unit
  | .chapter heading => heading.requireContent "chapter"
  | .content b => b.check
  | .image i => i.check
  | .header _ | .blank _ => .ok ()

/-- Every element passes. -/
def Body.check (b : Body) : Except Fault Unit := b.elements.forM Element.check

/-! ## Bibliography -/

/-- A field is there. -/
def Source.require (s : Source) (field : Option Literal) (name : String) : Except Fault Unit :=
  if field.isNone then .error (.found (.noSourceField s.kind name) s.position) else .ok ()

/-- The field that only this kind of source requires is there. -/
def Source.checkKind (s : Source) : Except Fault Unit :=
  match s.kind with
  | .book | .videogame => s.require s.publisher "publisher"
  | .periodical => s.require s.journal "journal"
  | .webpage =>
    if s.website.isNone && s.url.isNone then .error (.found .noWebLocation s.position) else .ok ()
  | .music | .poem => .ok ()

/-- The literal is a date. -/
def Literal.requireDate (l : Literal) : Except Fault Unit := do
  if (← l.date).isNone then throw (.found .undatedAccess l.position)

/-- No field is blank, the required fields are there, and numbers, pages and dates can be read. -/
def Source.check (s : Source) : Except Fault Unit := do
  s.fields.forM fun (name, field) => checkContent field name
  s.authors.forM fun l => l.requireContent "author"
  s.require s.title "title"
  s.checkKind
  checkField (Literal.positive "volume") s.volume
  checkField (Literal.positive "issue") s.issue
  checkField (Literal.positive "edition") s.edition
  checkField (Literal.parse PageSpan.reader) s.pages
  checkField Literal.requireDate s.accessed

/-- No source has the id of one seen before. -/
def checkIdsOnce (seen : List (String × Position)) : List Source → Except Fault Unit
  | [] => .ok ()
  | s :: rest =>
    match s.id with
    | none => checkIdsOnce seen rest
    | some id =>
      match seen.lookup id.trimmed with
      | some first => .error (.found (.repeatedSource id.trimmed first) id.position)
      | none => checkIdsOnce ((id.trimmed, id.position) :: seen) rest

/-- Every source passes, and ids differ. -/
def Bibliography.check (b : Bibliography) : Except Fault Unit := do
  b.sources.forM Source.check
  checkIdsOnce [] b.sources

/-! ## The whole specification -/

namespace Specification

/-- The declared type of the document, if there is one. -/
def readDocumentType (spec : Specification) : Except Fault (Option DocumentType) :=
  readField (Literal.parse DocumentType.reader) spec.documentType

/-- Some source has the id. -/
def knowsSource (spec : Specification) (id : String) : Bool :=
  spec.bibliography.any fun b => (b.find? id).isSome

/-- A citation names a source. -/
def checkCitation (spec : Specification) (citation : Literal) : Except Fault Unit :=
  if spec.knowsSource citation.trimmed then .ok ()
  else .error (.found (.unknownCitation citation.trimmed) citation.position)

/-- Every citation of the text names a source. -/
def checkCitations (spec : Specification) : Except Fault Unit :=
  (spec.body.sentences.flatMap Sentence.citations).forM spec.checkCitation

/-- A book has a publication venue. -/
def checkVenue (spec : Specification) : Except Fault Unit := do
  if (← spec.readDocumentType) = some .book ∧ (spec.publication.bind (·.venue)).isNone then
    throw ⟨.noVenue, spec.documentType.map (·.position)⟩

/-- The first fault of the specification, if it has one. -/
def check (spec : Specification) : Except Fault Unit := do
  checkContent spec.version "version"
  spec.title.check
  spec.authors.checkAuthors
  spec.assessors.checkAssessors
  checkBlock Publication.check spec.publication
  checkBlock StyleBlock.check spec.style
  spec.body.check
  checkBlock Bibliography.check spec.bibliography
  spec.checkVenue
  spec.checkCitations

end Specification

end Manuscript
