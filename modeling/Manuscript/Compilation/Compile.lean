import Manuscript.Compilation.Queue
import Manuscript.Compilation.Sections
import Manuscript.Grammar.Parse
import Manuscript.Validation.Findings
import Manuscript.Version

/-!
# Compilation

From a source to a document: the version gate, the parser, the checks of the specification, the
style sheet, the content and the sections. What stops a compilation is its failure; everything else
is said in warnings, which do not change the outcome.
-/

namespace Manuscript

/-! ## Parsing -/

namespace TokenWindow

/-- Refuse a declared version that is not supported, before anything is parsed. A declaration that
is not well formed is left to the parser. -/
def checkVersion (w : TokenWindow) : Except Failure Unit × TokenWindow :=
  match w.peek 0 with
  | (.error e, w) => (.error (.lexical e), w)
  | (.ok none, w) => (.ok (), w)
  | (.ok (some keyword), w) =>
    if keyword.keyword? ≠ some .version then (.ok (), w)
    else
      match w.peek 1 with
      | (.error e, w) => (.error (.lexical e), w)
      | (.ok none, w) => (.ok (), w)
      | (.ok (some value), w) =>
        if value.isText then (Manuscript.checkVersion value.value (some value.position), w)
        else (.ok (), w)

/-- The specification that the tokens of a window declare, and the window behind what was read. -/
def parse (w : TokenWindow) : Except Failure Specification × TokenWindow :=
  match Grammar.sections.run { window := w } with
  | (.error (.byLexer e), c) => (.error (.lexical e), c.window)
  | (.error (.byGrammar e), c) => (.error (.grammar [e]), c.window)
  | (.ok progress, c) =>
    if progress.errors.isEmpty then (.ok (.ofDeclarations progress.declarations), c.window)
    else (.error (.grammar progress.errors), c.window)

/-- The specification of a window: the version gate first, then the parser. -/
def specification (w : TokenWindow) : Except Failure Specification :=
  match w.checkVersion with
  | (.error e, _) => .error e
  | (.ok (), w) => w.parse.1

end TokenWindow

/-- The specification that a source declares. -/
def parse (source : String) : Except Failure Specification :=
  (TokenWindow.ofSource source).specification

/-- The specification that a list of tokens declares. -/
def parseTokens (tokens : List Token) : Except Failure Specification :=
  (TokenWindow.ofTokens tokens).specification

/-! ## Processing -/

/-- What a compilation is given besides the source. -/
structure Compiler where
  guides : GuideTable := GuideTable.full
  /-- The guide of documents that name none. -/
  defaultStyle : String := "pipp"
  /-- The date of documents that declare no publication date. -/
  today : Date

namespace Compiler

/-- The version of the specification is supported and it has no faults. -/
def gate (spec : Specification) : Except Failure Unit := do
  match spec.version with
  | some l => checkVersion l.value (some l.position)
  | none => pure ()
  Sheet.orInvalid spec.check

/-- The works of all sources. -/
def worksOf (spec : Specification) : Except Fault (List Work) :=
  (spec.bibliography.elim [] Bibliography.sources).mapM Work.ofSource

/-- The date of the document: the declared one, which may be none, or today's. -/
def dateOf (c : Compiler) (spec : Specification) : Except Fault (Option Date) :=
  match spec.publication.bind (·.date) with
  | some l => l.date
  | none => .ok (some c.today)

/-- What the document says about itself. -/
def metadataOf (spec : Specification) (sheet : Sheet) (date : Option Date) : Metadata :=
  { title := spec.title.text
    authors := spec.authors.members.map Person.fullName
    assessors := spec.assessors.members.map Person.fullName
    date := date.map sheet.guide.date }

/-- What is known of a document before its content is set. -/
structure Preparation where
  sheet : Sheet
  works : List Work
  metadata : Metadata

/-- The style sheet, the works and the metadata. -/
def prepare (c : Compiler) (spec : Specification) : Except Failure Preparation := do
  let type ← Sheet.orInvalid spec.readDocumentType
  let sheet ← Sheet.resolve spec.style c.defaultStyle type c.guides
  let works ← Sheet.orInvalid (worksOf spec)
  let date ← Sheet.orInvalid (c.dateOf spec)
  return { sheet, works, metadata := metadataOf spec sheet date }

/-- What the specification has material for. -/
def materialOf (spec : Specification) (content : SetContent) (works : List Work) : Material :=
  { hasAbstract := spec.body.hasContent .abstract
    hasPreface := spec.body.hasContent .preface
    hasAcknowledgements := spec.body.hasContent .acknowledgements
    hasAppendix := spec.body.hasContent .appendix
    hasNotes := !content.notes.isEmpty
    hasSources := !works.isEmpty
    hasAssessors := !spec.assessors.members.isEmpty }

/-! ### Warnings about the outcome -/

/-- The parts that content can be declared for. -/
def contentParts : List Part := [.abstract, .preface, .acknowledgements, .appendix, .endnotes]

/-- Declared parts without content, and content without a part to go into. -/
def partFindings (spec : Specification) (sheet : Sheet) (parts : List Part) (m : Material) :
    List Warning :=
  let declaredAt := (spec.style.bind (·.parts)).map (·.position)
  (if sheet.parts.isSome then
    parts.flatMap fun part => warnIf (!m.fills part) ⟨.emptyPart part, declaredAt⟩
  else [])
  ++ (contentParts.flatMap fun part =>
    warnIf (m.fills part && !parts.contains part) ⟨.unplacedContent part, declaredAt⟩)
  ++ warnIf (m.hasSources && !parts.contains .bibliography)
    ⟨.unplacedSources, spec.bibliography.bind (·.position)⟩

/-- What a source that is never cited is called. -/
def uncitedLabel (s : Source) : String := s.title.elim s.kind.name (·.trimmed)

/-- Sources that the text never cites. -/
def citationFindings (spec : Specification) (cited : List String) : List Warning :=
  (spec.bibliography.elim [] Bibliography.sources).flatMap fun s =>
    warnIf (!s.citedAs.any cited.contains) (.found (.neverCited (uncitedLabel s)) s.position)

/-! ### The document -/

/-- Put the document together from what was prepared and set. -/
def assemble (spec : Specification) (p : Preparation) (content : SetContent) (parts : List Part) :
    Document :=
  let sheet := p.sheet
  let hasTitlePage := parts.contains .titlePage
  let plan : Plan := { spec, sheet, metadata := p.metadata, hasTitlePage }
  let supply : Supply :=
    { body := content.body, placed := content.placed, notes := content.notes
      entries := Entry.sort (p.works.map (Entry.ofWork sheet.citation)) }
  { compilerVersion := compilerVersion
    style := sheet.guide.name
    documentType := sheet.documentType
    metadata := p.metadata
    page := ⟨sheet.pageFormat, sheet.margin.points, sheet.spacing⟩
    font := ⟨sheet.font, sheet.fontSize, sheet.fontColour⟩
    numeration :=
      ⟨sheet.numeration, sheet.frontNumeration, sheet.numberPlace, sheet.numberMargin.points,
        sheet.skippedPages⟩
    heading :=
      if !hasTitlePage && sheet.guide == .mla9 then firstPageHeading spec p.metadata else []
    sections := fillContents (plan.sections supply (outlineOf parts)) }

/-- How the content of a specification is set. -/
def settingOf (spec : Specification) (p : Preparation) : Setting :=
  { sheet := p.sheet, shelf := .ofWorks p.works, headerLines := headerLines spec p.metadata }

/-- The content of a specification, set. -/
def contentOf (spec : Specification) (p : Preparation) : SetContent :=
  (settingOf spec p).setBody spec.body

/-- The document of a specification and the warnings raised on the way; after a failure those that
were raised before it. -/
def process (c : Compiler) (spec : Specification) : Except Failure Document × List Warning :=
  match gate spec with
  | .error e => (.error e, [])
  | .ok () =>
    match c.prepare spec with
    | .error e => (.error e, spec.findings)
    | .ok p =>
      let content := contentOf spec p
      let raised := spec.findings ++ content.warnings
      let material := materialOf spec content p.works
      let parts := p.sheet.partsOf material
      match checkOrder parts p.sheet material.hasNotes with
      | .error e => (.error e, raised)
      | .ok () =>
        (.ok (assemble spec p content parts),
          raised ++ partFindings spec p.sheet parts material ++ citationFindings spec content.cited)

/-- The document of a specification that was prepared. -/
def building (spec : Specification) (p : Preparation) : ExceptT Failure Raising Document := do
  let ((), content) ← ((settingOf spec p).layBody spec.body).run {}
  let material := materialOf spec content p.works
  let parts := p.sheet.partsOf material
  checkOrder parts p.sheet material.hasNotes
  Raising.pushAll (partFindings spec p.sheet parts material)
  Raising.pushAll (citationFindings spec content.cited)
  return assemble spec p content parts

/-- The document of a specification. The warnings go to the end of a queue that is handed on from
step to step, and those that were raised stay in it when a later step fails. -/
def processing (c : Compiler) (spec : Specification) : ExceptT Failure Raising Document := do
  gate spec
  spec.raiseFindings
  building spec (← c.prepare spec)

/-- Process a specification with a queue that has the warnings raised before. -/
def processOnto (c : Compiler) (spec : Specification) (queue : List Warning) :
    Except Failure Document × List Warning :=
  (c.processing spec).run.run queue

/-- The document of a source, with the warnings. -/
def compile (c : Compiler) (source : String) : Except Failure Document × List Warning :=
  match parse source with
  | .error e => (.error e, [])
  | .ok spec => c.process spec

end Compiler

end Manuscript
