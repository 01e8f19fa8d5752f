import Manuscript.Proofs.Validation.Coverage

/-!
# What a style section sets

A style section is applied block by block, and a block setting by setting. Each setting that is
declared takes the place of one field of the sheet; all other fields stay as they are.

* `applyFont_ok` and its siblings: what a block sets.
* `Follows`: a sheet has the settings of a style section, on top of another sheet.
* `follows_of_resolve`: a resolved sheet follows its style section on top of its guide.
-/

namespace Manuscript.Sheet

variable {sheet sheet' : Sheet}

/-! ## Blocks -/

/-- What the font settings of a style section set. -/
theorem applyFont_ok {block : Option FontBlock}
    (h : applyBlock applyFont block sheet = .ok sheet') :
    ∃ font size colour,
      replacing sheet.font (fun l => .ok l.trimmed) (block.bind (·.name)) = .ok font
      ∧ replacing sheet.fontSize (Literal.positive "font size") (block.bind (·.size)) = .ok size
      ∧ replacing sheet.fontColour (Literal.parse Colour.reader) (block.bind (·.colour))
        = .ok colour
      ∧ sheet' = { sheet with font, fontSize := size, fontColour := colour } := by
  cases block with
  | none =>
    cases h
    exact ⟨_, _, _, rfl, rfl, rfl, rfl⟩
  | some b =>
    obtain ⟨font, hfont, h⟩ := of_bind_ok h
    obtain ⟨size, hsize, h⟩ := of_bind_ok h
    obtain ⟨colour, hcolour, h⟩ := of_bind_ok h
    cases h
    exact ⟨font, size, colour, hfont, hsize, hcolour, rfl⟩

/-- The format of a page with a declared width or height. -/
def customFormat (format : PageFormat) (width height : Option Length) : PageFormat :=
  if width.isSome || height.isSome then
    ⟨"custom", width.elim format.width Length.points, height.elim format.height Length.points⟩
  else format

theorem customFormat_width (format : PageFormat) (width height : Option Length) :
    (customFormat format width height).width = width.elim format.width Length.points := by
  cases width <;> cases height <;> rfl

theorem customFormat_height (format : PageFormat) (width height : Option Length) :
    (customFormat format width height).height = height.elim format.height Length.points := by
  cases width <;> cases height <;> rfl

/-- What the page settings of a style section set. -/
theorem applyLayout_ok {block : Option LayoutBlock}
    (h : applyBlock applyLayout block sheet = .ok sheet') :
    ∃ width height margin spacing,
      readField (Literal.parse Length.reader) (block.bind (·.width)) = .ok width
      ∧ readField (Literal.parse Length.reader) (block.bind (·.height)) = .ok height
      ∧ replacing sheet.margin (Literal.parse Length.reader) (block.bind (·.margin)) = .ok margin
      ∧ replacing sheet.spacing Literal.spacing (block.bind (·.spacing)) = .ok spacing
      ∧ sheet' = { sheet with
          pageFormat := customFormat sheet.pageFormat width height, margin, spacing } := by
  cases block with
  | none =>
    cases h
    exact ⟨_, _, _, _, rfl, rfl, rfl, rfl, rfl⟩
  | some b =>
    obtain ⟨width, hwidth, h⟩ := of_bind_ok h
    obtain ⟨height, hheight, h⟩ := of_bind_ok h
    obtain ⟨margin, hmargin, h⟩ := of_bind_ok h
    obtain ⟨spacing, hspacing, h⟩ := of_bind_ok h
    cases h
    exact ⟨width, height, margin, spacing, hwidth, hheight, hmargin, hspacing, rfl⟩

/-- What the paragraph settings of a style section set. -/
theorem applyParagraph_ok {block : Option ParagraphBlock}
    (h : applyBlock applyParagraph block sheet = .ok sheet') :
    ∃ indentation,
      replacing sheet.indentation (Literal.parse Length.reader) (block.bind (·.indentation))
        = .ok indentation
      ∧ sheet' = { sheet with indentation } := by
  cases block with
  | none =>
    cases h
    exact ⟨_, rfl, rfl⟩
  | some b =>
    obtain ⟨indentation, hindentation, h⟩ := of_bind_ok h
    cases h
    exact ⟨indentation, hindentation, rfl⟩

/-- What the sentence settings of a style section set. -/
theorem applySentence_ok {block : Option SentenceBlock}
    (h : applyBlock applySentence block sheet = .ok sheet') :
    ∃ separator whitespace bold italic,
      replacing sheet.sentenceSeparator (fun l => .ok l.value) (block.bind (·.prefixText))
        = .ok separator
      ∧ replacing sheet.whitespace (Literal.parse WhitespacePolicy.reader)
          (block.bind (·.whitespace)) = .ok whitespace
      ∧ replacing sheet.bold (Literal.parse Allowance.reader) (block.bind (·.bold)) = .ok bold
      ∧ replacing sheet.italic (Literal.parse Allowance.reader) (block.bind (·.italic)) = .ok italic
      ∧ sheet' = { sheet with sentenceSeparator := separator, whitespace, bold, italic } := by
  cases block with
  | none =>
    cases h
    exact ⟨_, _, _, _, rfl, rfl, rfl, rfl, rfl⟩
  | some b =>
    obtain ⟨separator, hseparator, h⟩ := of_bind_ok h
    obtain ⟨whitespace, hwhitespace, h⟩ := of_bind_ok h
    obtain ⟨bold, hbold, h⟩ := of_bind_ok h
    obtain ⟨italic, hitalic, h⟩ := of_bind_ok h
    cases h
    exact ⟨separator, whitespace, bold, italic, hseparator, hwhitespace, hbold, hitalic, rfl⟩

/-- The skipped pages are those of the declared spans; without page settings they stay. -/
def Skips (current : List Nat) (block : Option NumerationBlock) (pages : List Nat) : Prop :=
  match block with
  | none => pages = current
  | some b => ∃ spans, b.skip.mapM (Literal.parse PageSpan.reader) = .ok spans
      ∧ pages = pagesOf spans

/-- What the settings of page numbers of a style section set. -/
theorem applyNumeration_ok {block : Option NumerationBlock}
    (h : applyBlock applyNumeration block sheet = .ok sheet') :
    ∃ numeration place margin pages,
      replacing sheet.numeration (Literal.parse Numeration.reader) (block.bind (·.type))
        = .ok numeration
      ∧ replacing sheet.numberPlace (Literal.parse NumberPlace.reader) (block.bind (·.display))
        = .ok place
      ∧ replacing sheet.numberMargin (Literal.parse Length.reader) (block.bind (·.margin))
        = .ok margin
      ∧ Skips sheet.skippedPages block pages
      ∧ sheet' = { sheet with
          numeration, numberPlace := place, numberMargin := margin, skippedPages := pages } := by
  cases block with
  | none =>
    cases h
    exact ⟨_, _, _, _, rfl, rfl, rfl, rfl, rfl⟩
  | some b =>
    obtain ⟨numeration, hnumeration, h⟩ := of_bind_ok h
    obtain ⟨place, hplace, h⟩ := of_bind_ok h
    obtain ⟨margin, hmargin, h⟩ := of_bind_ok h
    obtain ⟨spans, hspans, h⟩ := of_bind_ok h
    cases h
    exact ⟨numeration, place, margin, pagesOf spans, hnumeration, hplace, hmargin,
      ⟨spans, hspans, rfl⟩, rfl⟩

/-- The parts are the declared ones; without a declaration they stay. -/
def Arranges (current : Option (List Part)) (block : Option PartList)
    (parts : Option (List Part)) : Prop :=
  match block with
  | none => parts = current
  | some list => ∃ read, list.read = .ok read ∧ parts = some read

/-- What the list of parts of a style section sets. -/
theorem applyParts_ok {block : Option PartList}
    (h : applyBlock applyParts block sheet = .ok sheet') :
    ∃ parts, Arranges sheet.parts block parts ∧ sheet' = { sheet with parts } := by
  cases block with
  | none =>
    cases h
    exact ⟨_, rfl, rfl⟩
  | some list =>
    obtain ⟨parts, hparts, h⟩ := of_bind_ok h
    cases h
    exact ⟨some parts, ⟨parts, hparts, rfl⟩, rfl⟩

/-- What the endnotes settings of a style section set. -/
theorem applyEndnotes_ok {block : Option EndnotesBlock}
    (h : applyBlock applyEndnotes block sheet = .ok sheet') :
    ∃ endnotes before,
      replacing sheet.endnotes (Literal.parse Allowance.reader) (block.bind (·.allow))
        = .ok endnotes
      ∧ replacing sheet.endnotesBefore
          (fun l => (l.parse Part.reader).map fun part => some (part, l.position))
          (block.bind (·.before)) = .ok before
      ∧ sheet' = { sheet with endnotes, endnotesBefore := before } := by
  cases block with
  | none =>
    cases h
    exact ⟨_, _, rfl, rfl, rfl⟩
  | some b =>
    obtain ⟨endnotes, hendnotes, h⟩ := of_bind_ok h
    obtain ⟨before, hbefore, h⟩ := of_bind_ok h
    cases h
    exact ⟨endnotes, before, hendnotes, hbefore, rfl⟩

/-! ## Style sections -/

/-- A sheet has the settings of a style section, and otherwise those of the sheet that the section
was applied to. -/
structure Follows (style : StyleBlock) (base sheet : Sheet) : Prop where
  guide : sheet.guide = base.guide
  citation : sheet.citation = base.citation
  documentType : sheet.documentType = base.documentType
  font : replacing base.font (fun l => .ok l.trimmed) (style.font.bind (·.name)) = .ok sheet.font
  fontSize : replacing base.fontSize (Literal.positive "font size") (style.font.bind (·.size))
    = .ok sheet.fontSize
  fontColour : replacing base.fontColour (Literal.parse Colour.reader) (style.font.bind (·.colour))
    = .ok sheet.fontColour
  pageFormat : ∃ width height,
    readField (Literal.parse Length.reader) (style.layout.bind (·.width)) = .ok width
    ∧ readField (Literal.parse Length.reader) (style.layout.bind (·.height)) = .ok height
    ∧ sheet.pageFormat = customFormat base.pageFormat width height
  margin : replacing base.margin (Literal.parse Length.reader) (style.layout.bind (·.margin))
    = .ok sheet.margin
  spacing : replacing base.spacing Literal.spacing (style.layout.bind (·.spacing))
    = .ok sheet.spacing
  indentation : replacing base.indentation (Literal.parse Length.reader)
    (style.paragraph.bind (·.indentation)) = .ok sheet.indentation
  sentenceSeparator : replacing base.sentenceSeparator (fun l => .ok l.value)
    (style.sentence.bind (·.prefixText)) = .ok sheet.sentenceSeparator
  whitespace : replacing base.whitespace (Literal.parse WhitespacePolicy.reader)
    (style.sentence.bind (·.whitespace)) = .ok sheet.whitespace
  bold : replacing base.bold (Literal.parse Allowance.reader) (style.sentence.bind (·.bold))
    = .ok sheet.bold
  italic : replacing base.italic (Literal.parse Allowance.reader) (style.sentence.bind (·.italic))
    = .ok sheet.italic
  numeration : replacing base.numeration (Literal.parse Numeration.reader)
    (style.numeration.bind (·.type)) = .ok sheet.numeration
  frontNumeration : sheet.frontNumeration = base.frontNumeration
  numberPlace : replacing base.numberPlace (Literal.parse NumberPlace.reader)
    (style.numeration.bind (·.display)) = .ok sheet.numberPlace
  numberMargin : replacing base.numberMargin (Literal.parse Length.reader)
    (style.numeration.bind (·.margin)) = .ok sheet.numberMargin
  skippedPages : Skips base.skippedPages style.numeration sheet.skippedPages
  parts : Arranges base.parts style.parts sheet.parts
  endnotes : replacing base.endnotes (Literal.parse Allowance.reader)
    (style.endnotes.bind (·.allow)) = .ok sheet.endnotes
  endnotesBefore : replacing base.endnotesBefore
    (fun l => (l.parse Part.reader).map fun part => some (part, l.position))
    (style.endnotes.bind (·.before)) = .ok sheet.endnotesBefore

/-- The blocks of a style section set fields of their own. -/
theorem follows_of_applyStyle {style : StyleBlock} (h : sheet.applyStyle style = .ok sheet') :
    Follows style sheet sheet' := by
  -- each block is applied to the sheet of the block before, whose other fields it keeps
  obtain ⟨_, hblock, h⟩ := of_bind_ok h
  obtain ⟨font, size, colour, hfont, hsize, hcolour, rfl⟩ := applyFont_ok hblock
  obtain ⟨_, hblock, h⟩ := of_bind_ok h
  obtain ⟨width, height, margin, spacing, hwidth, hheight, hmargin, hspacing, rfl⟩ :=
    applyLayout_ok hblock
  obtain ⟨_, hblock, h⟩ := of_bind_ok h
  obtain ⟨indentation, hindentation, rfl⟩ := applyParagraph_ok hblock
  obtain ⟨_, hblock, h⟩ := of_bind_ok h
  obtain ⟨separator, whitespace, bold, italic, hseparator, hwhitespace, hbold, hitalic, rfl⟩ :=
    applySentence_ok hblock
  obtain ⟨_, hblock, h⟩ := of_bind_ok h
  obtain ⟨numeration, place, numberMargin, pages, hnumeration, hplace, hnumberMargin, hpages,
    rfl⟩ := applyNumeration_ok hblock
  obtain ⟨_, hblock, h⟩ := of_bind_ok h
  obtain ⟨parts, hparts, rfl⟩ := applyParts_ok hblock
  obtain ⟨endnotes, before, hendnotes, hbefore, rfl⟩ := applyEndnotes_ok h
  exact {
    guide := rfl
    citation := rfl
    documentType := rfl
    font := hfont
    fontSize := hsize
    fontColour := hcolour
    pageFormat := ⟨width, height, hwidth, hheight, rfl⟩
    margin := hmargin
    spacing := hspacing
    indentation := hindentation
    sentenceSeparator := hseparator
    whitespace := hwhitespace
    bold := hbold
    italic := hitalic
    numeration := hnumeration
    frontNumeration := rfl
    numberPlace := hplace
    numberMargin := hnumberMargin
    skippedPages := hpages
    parts := hparts
    endnotes := hendnotes
    endnotesBefore := hbefore }

/-! ## Resolved sheets -/

variable {defaultStyle : String} {type : Option DocumentType} {table : GuideTable}

theorem of_orInvalid_ok {α : Type} {x : Except Fault α} {a : α} (h : orInvalid x = .ok a) :
    x = .ok a := by
  cases x with
  | error fault => cases h
  | ok _ =>
    cases h
    rfl

/-- A resolved sheet follows its style section on top of the settings of the base guide, with the
declared guide for citations. -/
theorem follows_of_resolve {style : StyleBlock}
    (h : resolve (some style) defaultStyle type table = .ok sheet) :
    ∃ guide citation,
      resolveName table (table.resolve defaultStyle none) style.base = .ok guide
      ∧ resolveName table (.ok guide) style.citation = .ok citation
      ∧ Follows style { ofGuide guide (type.getD guide.rules.documentType) with citation }
        sheet := by
  obtain ⟨guide, hguide, h⟩ := of_bind_ok h
  obtain ⟨citation, hcitation, h⟩ := of_bind_ok h
  exact ⟨guide, citation, hguide, hcitation, follows_of_applyStyle (of_orInvalid_ok h)⟩

end Manuscript.Sheet
