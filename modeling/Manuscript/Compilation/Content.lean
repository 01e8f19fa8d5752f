import Manuscript.Citation.Work
import Manuscript.Document.Model
import Manuscript.Specification.Body
import Manuscript.Style.Sheet
import Manuscript.Warning

/-!
# Setting the content

The running text is set element by element, in the order of declaration. Notes are numbered through
the whole text; each leaves a marker where it was written. Citations become references to works.

Every step gives its outcome as a piece, and pieces are put one behind the other, so that each
destination receives what the elements contribute in their own order.
-/

namespace Manuscript

/-- Works under the ids by which they are cited. -/
structure Shelf where
  works : List (String × Work) := []

namespace Shelf

/-- The shelf of some works; of two works with one id the later one counts. -/
def ofWorks (ws : List Work) : Shelf :=
  ⟨(ws.filterMap fun w => w.id.map fun id => (id, w)).reverse⟩

/-- The work with an id. -/
def find? (s : Shelf) (id : String) : Option Work := s.works.lookup id

end Shelf

/-! ## Sentences -/

/-- What a stretch of a paragraph contributes. -/
structure SetRuns where
  spans : List Span := []
  /-- Notes, in the order of their numbers. -/
  notes : List Block := []
  /-- The ids of the works that are cited. -/
  cited : List String := []
  warnings : List Warning := []
deriving DecidableEq

/-- One contribution behind another. -/
def SetRuns.append (a b : SetRuns) : SetRuns :=
  ⟨a.spans ++ b.spans, a.notes ++ b.notes, a.cited ++ b.cited, a.warnings ++ b.warnings⟩

/-- What the setting of content depends on. -/
structure Setting where
  sheet : Sheet
  shelf : Shelf
  /-- The lines that a header element shows. -/
  headerLines : List String := []

namespace Setting

/-- The note with a number. -/
def note (s : Setting) (number : Nat) (text : String) : Block :=
  .note number (s.sheet.setParagraph [[s.sheet.setText .regular text]])

/-- Set a run, where `count` notes were set before it. -/
def setRun (s : Setting) (count : Nat) : Run → SetRuns
  | .text l => { spans := [s.sheet.setText .regular l.value] }
  | .emphasise l =>
    { spans := [s.sheet.setText .italic l.value]
      warnings := if s.sheet.italic = .ifNecessary then [.found .italicsIfNecessary l.position]
        else [] }
  | .bold l =>
    { spans := [s.sheet.setText .bold l.value]
      warnings := if s.sheet.bold.permits then [] else [.found .boldForbidden l.position] }
  | .work l => { spans := [s.sheet.setText .italic l.value] }
  | .quote l =>
    let span := s.sheet.setText .regular l.value
    { spans := [⟨"\"" ++ span.text ++ "\"", span.emphasis⟩] }
  | .note l =>
    { spans := [⟨toString (count + 1), .superscript⟩], notes := [s.note (count + 1) l.value] }
  | .citation source page =>
    match s.shelf.find? source.trimmed with
    | some work =>
      { spans := [Span.regular (work.reference s.sheet.citation (page.map (·.trimmed)))]
        cited := [source.trimmed] }
    | none => {}

/-- Set the runs of a sentence. -/
def setRuns (s : Setting) (count : Nat) : List Run → SetRuns
  | [] => {}
  | r :: rest =>
    let first := s.setRun count r
    first.append (s.setRuns (count + first.notes.length) rest)

/-- Set the sentences of a block. The spans of each sentence are kept apart. -/
def setSentences (s : Setting) (count : Nat) : List Sentence → List (List Span) × SetRuns
  | [] => ([], {})
  | sentence :: rest =>
    let first := s.setRuns count sentence.runs
    let (others, later) := s.setSentences (count + first.notes.length) rest
    (first.spans :: others, first.append later)

end Setting

/-! ## Elements -/

/-- The content, sorted by where it goes. -/
structure SetContent where
  body : List Block := []
  /-- Paragraphs that go into a part of the document. -/
  placed : List (Part × Block) := []
  notes : List Block := []
  chapters : List String := []
  cited : List String := []
  warnings : List Warning := []
deriving DecidableEq

namespace SetContent

/-- One contribution behind another. -/
def append (a b : SetContent) : SetContent :=
  ⟨a.body ++ b.body, a.placed ++ b.placed, a.notes ++ b.notes, a.chapters ++ b.chapters,
    a.cited ++ b.cited, a.warnings ++ b.warnings⟩

/-- The paragraphs that go into a part. -/
def blocksFor (c : SetContent) (part : Part) : List Block :=
  c.placed.filterMap fun (p, block) => if p = part then some block else none

end SetContent

namespace Setting

/-- Set a block of sentences as a paragraph of the body or of a part. -/
def setBlock (s : Setting) (count : Nat) (b : ContentBlock) : SetContent :=
  let (sentences, pieces) := s.setSentences count b.sentences
  let paragraph := Block.paragraph (s.sheet.setParagraph sentences)
  let rest : SetContent :=
    { notes := pieces.notes, cited := pieces.cited, warnings := pieces.warnings }
  match b.kind.part? with
  | some part => { rest with placed := [(part, paragraph)] }
  | none => { rest with body := [paragraph] }

/-- The value of a setting of an image, if it is declared and can be read. -/
def readSetting {α : Type} (r : Reader α) (field : Option Literal) : Option α :=
  field.bind fun l => r.read? l.value

/-- Place an image, if it has an id. -/
def placeImage (s : Setting) (i : Image) : Option PlacedImage :=
  i.id.map fun id =>
    let scale := readSetting percentageReader i.size
    let points (field : Option Literal) :=
      if scale.isSome then none else (readSetting Length.reader field).map Length.points
    { id := id.trimmed
      alignment := (readSetting Alignment.reader i.display).getD s.sheet.guide.rules.alignment
      scale
      width := points i.width
      height := points i.height }

/-- Set an element of the text, where `count` notes were set before it. -/
def setElement (s : Setting) (count : Nat) : Element → SetContent
  | .chapter heading =>
    let text := (s.sheet.setText .regular heading.value).text
    { body := [.heading text 1], chapters := [text] }
  | .content b => s.setBlock count b
  | .header _ => { body := [.header s.headerLines] }
  | .blank _ => { body := [.blankPage] }
  | .image i => { body := (s.placeImage i).toList.map .image }

/-- Set elements one after the other. -/
def setElements (s : Setting) (count : Nat) : List Element → SetContent
  | [] => {}
  | e :: rest =>
    let first := s.setElement count e
    first.append (s.setElements (count + first.notes.length) rest)

/-- Set the whole content. -/
def setBody (s : Setting) (b : Body) : SetContent := s.setElements 0 b.elements

end Setting

end Manuscript
