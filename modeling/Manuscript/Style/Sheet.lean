import Manuscript.Guide.Table
import Manuscript.Specification.StyleBlock
import Manuscript.Typeset.Span
import Manuscript.Validation.Check

/-!
# Style sheets

The settings that a document is set with: those of its style guide, with the settings of its style
section in their place.
-/

namespace Manuscript

open Manuscript.Number (Binary32)

/-- The settings that are in effect. -/
structure Sheet where
  guide : Guide
  /-- The guide for references and the bibliography. -/
  citation : Guide
  documentType : DocumentType
  font : String
  fontSize : Nat
  fontColour : Colour
  pageFormat : PageFormat
  margin : Length
  spacing : Binary32
  indentation : Length
  sentenceSeparator : String
  whitespace : WhitespacePolicy
  bold : Allowance
  italic : Allowance
  numeration : Numeration
  frontNumeration : Numeration
  numberPlace : NumberPlace
  numberMargin : Length
  /-- The pages without a number, ascending. -/
  skippedPages : List Nat := []
  /-- The declared order of the parts. -/
  parts : Option (List Part) := none
  endnotes : Allowance
  /-- The part that the endnotes must stand before, and where that is declared. -/
  endnotesBefore : Option (Part × Position) := none
deriving DecidableEq

namespace Sheet

/-- The settings of a guide. -/
def ofGuide (g : Guide) (type : DocumentType) : Sheet :=
  { guide := g
    citation := g
    documentType := type
    font := g.rules.font
    fontSize := g.rules.fontSize
    fontColour := g.rules.fontColour
    pageFormat := g.rules.pageFormat
    margin := g.rules.margin
    spacing := g.rules.spacing
    indentation := g.rules.indentation
    sentenceSeparator := g.rules.sentenceSeparator
    whitespace := g.rules.whitespace
    bold := g.rules.bold
    italic := g.rules.italic
    numeration := g.rules.numeration
    frontNumeration := g.rules.frontNumeration
    numberPlace := g.rules.numberPlace
    numberMargin := g.rules.numberMargin
    endnotes := g.rules.endnotes }

/-! ## Settings of a style section -/

/-- The value of a declared setting, or the value it replaces. -/
def replacing {α : Type} (current : α) (read : Literal → Except Fault α) :
    Option Literal → Except Fault α
  | some l => read l
  | none => .ok current

/-- The sheet with the font settings. -/
def applyFont (sheet : Sheet) (b : FontBlock) : Except Fault Sheet := do
  return { sheet with
    font := ← replacing sheet.font (fun l => .ok l.trimmed) b.name
    fontSize := ← replacing sheet.fontSize (Literal.positive "font size") b.size
    fontColour := ← replacing sheet.fontColour (Literal.parse Colour.reader) b.colour }

/-- The sheet with the page settings. A page with a declared width or height has a format of its
own. -/
def applyLayout (sheet : Sheet) (b : LayoutBlock) : Except Fault Sheet := do
  let width ← readField (Literal.parse Length.reader) b.width
  let height ← readField (Literal.parse Length.reader) b.height
  let format : PageFormat :=
    if width.isSome || height.isSome then
      ⟨"custom", width.elim sheet.pageFormat.width Length.points,
        height.elim sheet.pageFormat.height Length.points⟩
    else sheet.pageFormat
  return { sheet with
    pageFormat := format
    margin := ← replacing sheet.margin (Literal.parse Length.reader) b.margin
    spacing := ← replacing sheet.spacing Literal.spacing b.spacing }

/-- The sheet with the paragraph settings. -/
def applyParagraph (sheet : Sheet) (b : ParagraphBlock) : Except Fault Sheet := do
  return { sheet with
    indentation := ← replacing sheet.indentation (Literal.parse Length.reader) b.indentation }

/-- The sheet with the sentence settings. -/
def applySentence (sheet : Sheet) (b : SentenceBlock) : Except Fault Sheet := do
  return { sheet with
    sentenceSeparator := ← replacing sheet.sentenceSeparator (fun l => .ok l.value) b.prefixText
    whitespace := ← replacing sheet.whitespace (Literal.parse WhitespacePolicy.reader) b.whitespace
    bold := ← replacing sheet.bold (Literal.parse Allowance.reader) b.bold
    italic := ← replacing sheet.italic (Literal.parse Allowance.reader) b.italic }

/-- Leave out every page that stands directly behind itself. -/
def dropRepeats : List Nat → List Nat
  | [] => []
  | n :: rest => if rest.head? = some n then dropRepeats rest else n :: dropRepeats rest

/-- The pages of some spans, ascending and each once. -/
def pagesOf (spans : List PageSpan) : List Nat :=
  dropRepeats ((spans.flatMap PageSpan.pages).mergeSort fun m n => decide (m ≤ n))

/-- The sheet with the settings of page numbers. -/
def applyNumeration (sheet : Sheet) (b : NumerationBlock) : Except Fault Sheet := do
  return { sheet with
    numeration := ← replacing sheet.numeration (Literal.parse Numeration.reader) b.type
    numberPlace := ← replacing sheet.numberPlace (Literal.parse NumberPlace.reader) b.display
    numberMargin := ← replacing sheet.numberMargin (Literal.parse Length.reader) b.margin
    skippedPages := pagesOf (← b.skip.mapM (Literal.parse PageSpan.reader)) }

/-- The sheet with a declared order of parts. -/
def applyParts (sheet : Sheet) (list : PartList) : Except Fault Sheet := do
  return { sheet with parts := some (← list.read) }

/-- The sheet with the endnotes settings. -/
def applyEndnotes (sheet : Sheet) (b : EndnotesBlock) : Except Fault Sheet := do
  return { sheet with
    endnotes := ← replacing sheet.endnotes (Literal.parse Allowance.reader) b.allow
    endnotesBefore := ← replacing sheet.endnotesBefore
      (fun l => (l.parse Part.reader).map fun part => some (part, l.position)) b.before }

/-- A block that need not be there, applied to a sheet. -/
def applyBlock {α : Type} (apply : Sheet → α → Except Fault Sheet) (block : Option α)
    (sheet : Sheet) : Except Fault Sheet :=
  match block with
  | some b => apply sheet b
  | none => .ok sheet

/-- The sheet with all settings of a style section, apart from the names of guides. -/
def applyStyle (sheet : Sheet) (style : StyleBlock) : Except Fault Sheet := do
  let sheet ← applyBlock applyFont style.font sheet
  let sheet ← applyBlock applyLayout style.layout sheet
  let sheet ← applyBlock applyParagraph style.paragraph sheet
  let sheet ← applyBlock applySentence style.sentence sheet
  let sheet ← applyBlock applyNumeration style.numeration sheet
  let sheet ← applyBlock applyParts style.parts sheet
  applyBlock applyEndnotes style.endnotes sheet

/-- An outcome whose fault is a failure of the compilation. -/
def orInvalid {α : Type} : Except Fault α → Except Failure α
  | .ok value => .ok value
  | .error fault => .error (.invalid fault)

/-- The guide of a declared name, or another one. -/
def resolveName (table : GuideTable) (otherwise : Except Failure Guide) :
    Option Literal → Except Failure Guide
  | some name => table.resolve name.value (some name.position)
  | none => otherwise

/-- The sheet of a document: its guide is the declared one or the default, its type the declared one
or the guide's. -/
def resolve (style : Option StyleBlock) (defaultStyle : String) (type : Option DocumentType)
    (table : GuideTable) : Except Failure Sheet := do
  let guide ← resolveName table (table.resolve defaultStyle none) (style.bind (·.base))
  let sheet := ofGuide guide (type.getD guide.rules.documentType)
  match style with
  | none => return sheet
  | some style =>
    let citation ← resolveName table (.ok guide) style.citation
    orInvalid (applyStyle { sheet with citation } style)

/-! ## Setting text -/

/-- Set the text of a run. -/
def setText (sheet : Sheet) (emphasis : Emphasis) (text : String) : Span :=
  ⟨String.ofList (Typeset.normalize sheet.whitespace sheet.guide.rules.strict
    sheet.guide.isPunctuation text.toList), emphasis.gate sheet.bold sheet.italic⟩

/-- Set sentences as one paragraph. -/
def setParagraph (sheet : Sheet) (sentences : List (List Span)) : Paragraph :=
  Paragraph.assemble sheet.indentation.points sheet.sentenceSeparator sheet.guide.rules.strict
    sheet.guide.isTerminal sentences

/-- The page numbers of a part. -/
def numerationOf (sheet : Sheet) (part : Part) : Numeration :=
  if part.isFrontMatter then sheet.frontNumeration else sheet.numeration

end Sheet

namespace Guide

/-- Set the text of a run with the guide's own settings. -/
def setText (g : Guide) (emphasis : Emphasis) (text : String) : Span :=
  (Sheet.ofGuide g g.rules.documentType).setText emphasis text

/-- Set sentences as one paragraph with the guide's own settings. -/
def setParagraph (g : Guide) (sentences : List (List Span)) : Paragraph :=
  (Sheet.ofGuide g g.rules.documentType).setParagraph sentences

end Guide

end Manuscript
