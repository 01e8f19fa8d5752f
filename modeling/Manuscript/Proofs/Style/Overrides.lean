import Manuscript.Proofs.Validation.Acceptance

/-!
# Independent settings

Every field of a style sheet depends on its own settings alone. What a style section says about
other fields, and whether it says anything, does not matter; where it says nothing about a field,
the field is that of the base guide.

* `Field`: a field of a sheet, with what a style section declares for it.
* `fields`: the fields of a sheet. They make up the whole of it, as `eq_of_fields` shows.
* `Field.Independent`: the field is a function of what is declared for it.
* `resolve_independent`: two style sections that declare the same for a field set it alike.
-/

namespace Manuscript.Sheet

open Manuscript.Number (Binary32)

/-! ## Fields -/

/-- A field of a sheet, or a part of one that is set by itself. -/
structure Field where
  /-- What can be declared for the field. -/
  Declared : Type
  Value : Type
  /-- What a style section declares for the field: texts, wherever they stand. -/
  declared : StyleBlock → Declared
  /-- Nothing is declared. -/
  undeclared : Declared
  /-- The field of a sheet. -/
  value : Sheet → Value

namespace Field

/-- A field that is set by one text. -/
def single {α : Type} (literal : StyleBlock → Option Literal) (value : Sheet → α) : Field where
  Declared := Option String
  Value := α
  declared style := (literal style).map Literal.value
  undeclared := none
  value := value

/-- A field that a style section cannot set. -/
def fixed {α : Type} (value : Sheet → α) : Field where
  Declared := Unit
  Value := α
  declared _ := ()
  undeclared := ()
  value := value

/-- The format of the page, with its name, which the width and the height set together. -/
def pageFormat : Field where
  Declared := Option String × Option String
  Value := PageFormat
  declared style :=
    ((style.layout.bind (·.width)).map Literal.value,
      (style.layout.bind (·.height)).map Literal.value)
  undeclared := (none, none)
  value := Sheet.pageFormat

/-- The skipped pages, which are set by a list of texts. -/
def skippedPages : Field where
  Declared := List String
  Value := List Nat
  declared style := (style.numeration.elim [] (·.skip)).map Literal.value
  undeclared := []
  value := Sheet.skippedPages

/-- The order of the parts, which is set by a list of texts if there is one. -/
def parts : Field where
  Declared := Option (List String)
  Value := Option (List Part)
  declared style := style.parts.map fun list => list.parts.map Literal.value
  undeclared := none
  value := Sheet.parts

/-- The part behind the endnotes, with the place of its declaration, which the sheet keeps. -/
def endnotesBefore : Field where
  Declared := Option Literal
  Value := Option (Part × Position)
  declared style := style.endnotes.bind (·.before)
  undeclared := none
  value := Sheet.endnotesBefore

end Field

/-- The fields of a sheet. The width and the height of the page are set by themselves, and so is the
part behind the endnotes without the place of its declaration. -/
def fields : List Field :=
  [.fixed Sheet.guide,
    .single (·.citation) Sheet.citation,
    .fixed Sheet.documentType,
    .single (·.font.bind (·.name)) Sheet.font,
    .single (·.font.bind (·.size)) Sheet.fontSize,
    .single (·.font.bind (·.colour)) Sheet.fontColour,
    .pageFormat,
    .single (·.layout.bind (·.width)) (·.pageFormat.width),
    .single (·.layout.bind (·.height)) (·.pageFormat.height),
    .single (·.layout.bind (·.margin)) Sheet.margin,
    .single (·.layout.bind (·.spacing)) Sheet.spacing,
    .single (·.paragraph.bind (·.indentation)) Sheet.indentation,
    .single (·.sentence.bind (·.prefixText)) Sheet.sentenceSeparator,
    .single (·.sentence.bind (·.whitespace)) Sheet.whitespace,
    .single (·.sentence.bind (·.bold)) Sheet.bold,
    .single (·.sentence.bind (·.italic)) Sheet.italic,
    .single (·.numeration.bind (·.type)) Sheet.numeration,
    .fixed Sheet.frontNumeration,
    .single (·.numeration.bind (·.display)) Sheet.numberPlace,
    .single (·.numeration.bind (·.margin)) Sheet.numberMargin,
    .skippedPages,
    .parts,
    .single (·.endnotes.bind (·.allow)) Sheet.endnotes,
    .endnotesBefore,
    .single (·.endnotes.bind (·.before)) (·.endnotesBefore.map Prod.fst)]

/-- Sheets that have the same fields are the same. -/
theorem eq_of_fields {sheet sheet' : Sheet} (h : ∀ f ∈ fields, f.value sheet = f.value sheet') :
    sheet = sheet' := by
  simp only [fields, List.forall_mem_cons, Field.single, Field.fixed, Field.pageFormat,
    Field.skippedPages, Field.parts, Field.endnotesBefore] at h
  cases sheet
  cases sheet'
  simp_all

/-! ## Readings that depend on texts alone -/

/-- The value that is read from a literal does not depend on where it stands. -/
def ReadsText {α : Type} (read : Literal → Except Fault α) : Prop :=
  ∀ l l' : Literal, l.value = l'.value → (read l).toOption = (read l').toOption

theorem readsText_parse {α : Type} (r : Reader α) : ReadsText (Literal.parse r) := by
  intro l l' h
  unfold Literal.parse
  rw [h]
  split <;> rfl

theorem ReadsText.map {α β : Type} {read : Literal → Except Fault α} (h : ReadsText read)
    (f : α → β) : ReadsText fun l => (read l).map f := by
  have hmap (x : Except Fault α) : (x.map f).toOption = x.toOption.map f := by
    cases x <;> rfl
  intro l l' hl
  rw [hmap, hmap, h l l' hl]

theorem readsText_positive (name : String) : ReadsText (Literal.positive name) := by
  intro l l' h
  unfold Literal.positive Literal.trimmedChars
  rw [h]
  split <;> rfl

theorem readsText_spacing : ReadsText Literal.spacing := by
  intro l l' h
  unfold Literal.spacing Literal.trimmedChars
  rw [h]
  split <;> rfl

/-- A reading that always succeeds, with a function of the text. -/
theorem readsText_ok {α : Type} (f : String → α) : ReadsText fun l => .ok (f l.value) :=
  fun _ _ h => congrArg (fun text => some (f text)) h

/-- The value of a setting whose text is declared, or the value it replaces. -/
def readText {α : Type} (current : α) (read : Literal → Except Fault α) : Option String → Option α
  | some text => (read ⟨text, ⟨1, 1⟩⟩).toOption
  | none => some current

theorem readText_of_replacing {α : Type} {current value : α} {read : Literal → Except Fault α}
    {field : Option Literal} (hread : ReadsText read)
    (h : replacing current read field = .ok value) :
    readText current read (field.map Literal.value) = some value := by
  cases field with
  | none =>
    cases h
    rfl
  | some l =>
    have hvalue : read l = .ok value := h
    show (read ⟨l.value, ⟨1, 1⟩⟩).toOption = some value
    rw [hread ⟨l.value, ⟨1, 1⟩⟩ l rfl, hvalue]
    rfl

/-- A function of a setting is set with the setting. -/
theorem replacing_map {α β : Type} {read : Literal → Except Fault α} {field : Option Literal}
    {current value : α} (h : replacing current read field = .ok value) (f : α → β) :
    replacing (f current) (fun l => (read l).map f) field = .ok (f value) := by
  cases field with
  | none => exact congrArg (Except.map f) h
  | some l => exact congrArg (Except.map f) h

/-- A setting that is only read takes the place of nothing. -/
theorem readField_eq_replacing {α : Type} (read : Literal → Except Fault α)
    (field : Option Literal) :
    readField read field = replacing none (fun l => (read l).map some) field := by
  cases field <;> rfl

theorem replacing_of_readField {α β : Type} {read : Literal → Except Fault α}
    {field : Option Literal} {value : Option α} (h : readField read field = .ok value) (f : α → β)
    (current : β) :
    replacing current (fun l => (read l).map f) field = .ok (value.elim current f) := by
  have hdeclared (x : Except Fault α) : (x.map some).map (·.elim current f) = x.map f := by
    cases x <;> rfl
  rw [readField_eq_replacing] at h
  have hset := replacing_map h (·.elim current f)
  simp only [hdeclared] at hset
  exact hset

/-- No span has no pages. -/
theorem pagesOf_nil : pagesOf [] = [] := by
  unfold pagesOf
  rw [List.flatMap_nil, List.mergeSort_nil]
  rfl

/-- The format of a page whose width and height may be declared. -/
def readFormat (format : PageFormat) (texts : Option String × Option String) :
    Option PageFormat := do
  let length := readText none fun l => (Literal.parse Length.reader l).map some
  return customFormat format (← length texts.1) (← length texts.2)

theorem readFormat_of_readField {format : PageFormat} {width height : Option Length}
    {ofWidth ofHeight : Option Literal}
    (hwidth : readField (Literal.parse Length.reader) ofWidth = .ok width)
    (hheight : readField (Literal.parse Length.reader) ofHeight = .ok height) :
    readFormat format (ofWidth.map Literal.value, ofHeight.map Literal.value)
      = some (customFormat format width height) := by
  rw [readField_eq_replacing] at hwidth hheight
  have hread := (readsText_parse Length.reader).map some
  -- width and height are read each from its own text; neither reading looks at the other
  unfold readFormat
  dsimp only
  rw [readText_of_replacing hread hwidth, readText_of_replacing hread hheight]
  rfl

/-! ## The fields of a resolved sheet -/

/-- The section is resolved to the sheet, on the base of the guide. -/
def ResolvesTo (table : GuideTable) (defaultStyle : String) (type : Option DocumentType) (g : Guide)
    (style : StyleBlock) (sheet : Sheet) : Prop :=
  resolveName table (table.resolve defaultStyle none) style.base = .ok g
    ∧ resolve (some style) defaultStyle type table = .ok sheet

variable {table : GuideTable} {defaultStyle : String} {type : Option DocumentType} {g : Guide}
  {style style' : StyleBlock} {sheet sheet' : Sheet}

/-- What a resolved sheet has from its guides and what it has from its style section. -/
theorem ResolvesTo.follows (h : ResolvesTo table defaultStyle type g style sheet) :
    ∃ citation, resolveName table (.ok g) style.citation = .ok citation
      ∧ Follows style { ofGuide g (type.getD g.rules.documentType) with citation } sheet := by
  obtain ⟨hbase, hresolve⟩ := h
  obtain ⟨guide, citation, hguide, hcitation, hfollows⟩ := follows_of_resolve hresolve
  cases hguide.symm.trans hbase
  exact ⟨citation, hcitation, hfollows⟩

variable (table defaultStyle type g) in
/-- The field of a resolved sheet is a function of what is declared for it; declarations that cannot
be read have no value. Nothing declared gives the field of the base guide. -/
def Field.Independent (f : Field) : Prop :=
  ∃ read : f.Declared → Option f.Value,
    read f.undeclared = some (f.value (ofGuide g (type.getD g.rules.documentType)))
      ∧ ∀ style sheet, ResolvesTo table defaultStyle type g style sheet →
        read (f.declared style) = some (f.value sheet)

namespace Field.Independent

variable {f : Field}

theorem value_eq (h : f.Independent table defaultStyle type g)
    (hsheet : ResolvesTo table defaultStyle type g style sheet)
    (hsheet' : ResolvesTo table defaultStyle type g style' sheet')
    (hsame : f.declared style = f.declared style') : f.value sheet = f.value sheet' := by
  obtain ⟨read, -, hread⟩ := h
  have hvalue := hread style sheet hsheet
  rw [hsame, hread style' sheet' hsheet'] at hvalue
  exact (Option.some.inj hvalue).symm

theorem value_eq_base (h : f.Independent table defaultStyle type g)
    (hsheet : ResolvesTo table defaultStyle type g style sheet)
    (hnone : f.declared style = f.undeclared) :
    f.value sheet = f.value (ofGuide g (type.getD g.rules.documentType)) := by
  obtain ⟨read, hbase, hread⟩ := h
  have hvalue := hread style sheet hsheet
  rw [hnone, hbase] at hvalue
  exact (Option.some.inj hvalue).symm

/-- A field that no setting changes, and that does not depend on the guide for citations. -/
theorem of_fixed {α : Type} {value : Sheet → α}
    (hcitation : ∀ (base : Sheet) citation, value { base with citation } = value base)
    (h : ∀ {style base sheet}, Follows style base sheet → value sheet = value base) :
    (Field.fixed value).Independent table defaultStyle type g := by
  refine ⟨fun _ => some (value (ofGuide g (type.getD g.rules.documentType))), rfl, ?_⟩
  intro style sheet hs
  obtain ⟨citation, -, hfollows⟩ := hs.follows
  exact congrArg some ((h hfollows).trans (hcitation _ citation)).symm

/-- A field that a text takes the place of, and that does not depend on the guide for citations. -/
theorem of_replacing {α : Type} {literal : StyleBlock → Option Literal} {value : Sheet → α}
    {read : Literal → Except Fault α} (hread : ReadsText read)
    (hcitation : ∀ (base : Sheet) citation, value { base with citation } = value base)
    (h : ∀ {style base sheet}, Follows style base sheet →
      replacing (value base) read (literal style) = .ok (value sheet)) :
    (Field.single literal value).Independent table defaultStyle type g := by
  refine ⟨readText (value (ofGuide g (type.getD g.rules.documentType))) read, rfl, ?_⟩
  intro style sheet hs
  obtain ⟨citation, -, hfollows⟩ := hs.follows
  rw [← hcitation _ citation]
  exact readText_of_replacing hread (h hfollows)

/-- The guide for citations is the base guide, unless it is declared. -/
theorem citation :
    (Field.single (·.citation) Sheet.citation).Independent table defaultStyle type g := by
  refine ⟨fun name => name.elim (some g) table.find?, rfl, ?_⟩
  intro style sheet hs
  obtain ⟨citation, hcitation, hfollows⟩ := hs.follows
  show (style.citation.map Literal.value).elim (some g) table.find? = some sheet.citation
  rw [hfollows.citation]
  cases hname : style.citation with
  | none =>
    rw [hname] at hcitation
    cases hcitation
    rfl
  | some name =>
    rw [hname] at hcitation
    have hresolve : table.resolve name.value (some name.position) = .ok citation := hcitation
    unfold GuideTable.resolve at hresolve
    show table.find? name.value = some citation
    cases hfind : table.find? name.value with
    | none =>
      rw [hfind] at hresolve
      cases hresolve
    | some found =>
      rw [hfind] at hresolve
      cases hresolve
      rfl

/-- The declared width and height make up the format of the page. -/
theorem pageFormat : Field.pageFormat.Independent table defaultStyle type g := by
  refine ⟨readFormat (ofGuide g (type.getD g.rules.documentType)).pageFormat, rfl, ?_⟩
  intro style sheet hs
  obtain ⟨citation, -, hfollows⟩ := hs.follows
  obtain ⟨width, height, hwidth, hheight, hformat⟩ := hfollows.pageFormat
  show readFormat _ _ = some sheet.pageFormat
  rw [hformat]
  exact readFormat_of_readField hwidth hheight

/-- A declared width of the page is set whatever is said about the height. -/
theorem pageWidth : (Field.single (·.layout.bind (·.width)) (·.pageFormat.width)).Independent
    table defaultStyle type g := by
  refine of_replacing ((readsText_parse Length.reader).map Length.points) (fun _ _ => rfl) ?_
  intro style base sheet h
  obtain ⟨width, height, hwidth, -, hformat⟩ := h.pageFormat
  rw [hformat, customFormat_width]
  exact replacing_of_readField hwidth _ _

/-- A declared height of the page is set whatever is said about the width. -/
theorem pageHeight : (Field.single (·.layout.bind (·.height)) (·.pageFormat.height)).Independent
    table defaultStyle type g := by
  refine of_replacing ((readsText_parse Length.reader).map Length.points) (fun _ _ => rfl) ?_
  intro style base sheet h
  obtain ⟨width, height, -, hheight, hformat⟩ := h.pageFormat
  rw [hformat, customFormat_height]
  exact replacing_of_readField hheight _ _

/-- The skipped pages are those of the declared spans. -/
theorem skippedPages : Field.skippedPages.Independent table defaultStyle type g := by
  refine ⟨fun texts => some (pagesOf (texts.filterMap PageSpan.reader.read?)),
    congrArg some pagesOf_nil, ?_⟩
  intro style sheet hs
  obtain ⟨citation, -, hfollows⟩ := hs.follows
  have hskips : Skips [] style.numeration sheet.skippedPages := hfollows.skippedPages
  show some (pagesOf (List.filterMap _ ((style.numeration.elim [] (·.skip)).map Literal.value)))
    = some sheet.skippedPages
  cases hblock : style.numeration with
  | none =>
    rw [hblock] at hskips
    rw [show sheet.skippedPages = [] from hskips]
    exact congrArg some pagesOf_nil
  | some b =>
    rw [hblock] at hskips
    obtain ⟨spans, hspans, hpages⟩ := hskips
    rw [hpages, ← filterMap_of_mapM_parse hspans, List.filterMap_map]
    rfl

/-- The order of the parts is the declared one. -/
theorem parts : Field.parts.Independent table defaultStyle type g := by
  refine ⟨fun texts => some (texts.map (List.filterMap Part.reader.read?)), rfl, ?_⟩
  intro style sheet hs
  obtain ⟨citation, -, hfollows⟩ := hs.follows
  have harranges : Arranges none style.parts sheet.parts := hfollows.parts
  show some ((style.parts.map fun list => list.parts.map Literal.value).map _) = some sheet.parts
  cases hblock : style.parts with
  | none =>
    rw [hblock] at harranges
    rw [show sheet.parts = none from harranges]
    rfl
  | some list =>
    rw [hblock] at harranges
    obtain ⟨read, hread, hparts⟩ := harranges
    rw [hparts, ← filterMap_of_mapM_parse hread]
    show some (some (List.filterMap _ (list.parts.map Literal.value))) = _
    rw [List.filterMap_map]
    rfl

/-- The part behind the endnotes is the declared one, with the place of its declaration. -/
theorem endnotesBefore : Field.endnotesBefore.Independent table defaultStyle type g := by
  refine ⟨fun field => (replacing none
    (fun l => (l.parse Part.reader).map fun part => some (part, l.position)) field).toOption,
    rfl, ?_⟩
  intro style sheet hs
  obtain ⟨citation, -, hfollows⟩ := hs.follows
  exact congrArg Except.toOption hfollows.endnotesBefore

/-- The part behind the endnotes does not depend on the place of its declaration. -/
theorem partBehindEndnotes :
    (Field.single (·.endnotes.bind (·.before)) (·.endnotesBefore.map Prod.fst)).Independent
      table defaultStyle type g := by
  refine of_replacing ((readsText_parse Part.reader).map some) (fun _ _ => rfl) ?_
  intro style base sheet h
  have hpart (l : Literal) (x : Except Fault Part) :
      (x.map fun part => some (part, l.position)).map (Option.map Prod.fst) = x.map some := by
    cases x <;> rfl
  simpa only [hpart] using replacing_map h.endnotesBefore (Option.map Prod.fst)

end Field.Independent

/-- Every field of a resolved sheet is a function of what is declared for it. -/
theorem independent_of_mem {f : Field} (hf : f ∈ fields) :
    f.Independent table defaultStyle type g := by
  -- one reading for each entry of the list
  have hall : ∀ f ∈ fields, f.Independent table defaultStyle type g := by
    simp only [fields, List.forall_mem_cons, List.not_mem_nil, false_implies, implies_true,
      and_true]
    refine ⟨.of_fixed (fun _ _ => rfl) (·.guide), .citation,
      .of_fixed (fun _ _ => rfl) (·.documentType),
      .of_replacing (readsText_ok Text.trim) (fun _ _ => rfl) (·.font),
      .of_replacing (readsText_positive _) (fun _ _ => rfl) (·.fontSize),
      .of_replacing (readsText_parse _) (fun _ _ => rfl) (·.fontColour),
      .pageFormat, .pageWidth, .pageHeight,
      .of_replacing (readsText_parse _) (fun _ _ => rfl) (·.margin),
      .of_replacing readsText_spacing (fun _ _ => rfl) (·.spacing),
      .of_replacing (readsText_parse _) (fun _ _ => rfl) (·.indentation),
      .of_replacing (readsText_ok id) (fun _ _ => rfl) (·.sentenceSeparator),
      .of_replacing (readsText_parse _) (fun _ _ => rfl) (·.whitespace),
      .of_replacing (readsText_parse _) (fun _ _ => rfl) (·.bold),
      .of_replacing (readsText_parse _) (fun _ _ => rfl) (·.italic),
      .of_replacing (readsText_parse _) (fun _ _ => rfl) (·.numeration),
      .of_fixed (fun _ _ => rfl) (·.frontNumeration),
      .of_replacing (readsText_parse _) (fun _ _ => rfl) (·.numberPlace),
      .of_replacing (readsText_parse _) (fun _ _ => rfl) (·.numberMargin),
      .skippedPages, .parts,
      .of_replacing (readsText_parse _) (fun _ _ => rfl) (·.endnotes), .endnotesBefore,
      .partBehindEndnotes⟩
  exact hall f hf

/-- Settings are independent. If two style sections are resolved on one base guide, each field for
which they declare the same texts is the same in both sheets, whatever else they declare; so with
the same declarations for all fields the sheets are the same. A field for which nothing is declared
is that of the base guide: the base guide itself renders the citations then, no page is skipped, and
no order of parts is given. -/
theorem resolve_independent
    (hbase : resolveName table (table.resolve defaultStyle none) style.base = .ok g)
    (hbase' : resolveName table (table.resolve defaultStyle none) style'.base = .ok g)
    (h : resolve (some style) defaultStyle type table = .ok sheet)
    (h' : resolve (some style') defaultStyle type table = .ok sheet') :
    (∀ f ∈ fields, f.declared style = f.declared style' → f.value sheet = f.value sheet')
      ∧ ((∀ f ∈ fields, f.declared style = f.declared style') → sheet = sheet')
      ∧ (∀ f ∈ fields, f.declared style = f.undeclared →
          f.value sheet = f.value (ofGuide g (type.getD g.rules.documentType)))
      ∧ (style.citation = none → sheet.citation = g)
      ∧ (style.numeration.elim [] (·.skip) = [] → sheet.skippedPages = [])
      ∧ (style.parts = none → sheet.parts = none) := by
  have hsame : ∀ f ∈ fields, f.declared style = f.declared style' →
      f.value sheet = f.value sheet' :=
    fun f hf => (independent_of_mem hf).value_eq ⟨hbase, h⟩ ⟨hbase', h'⟩
  have hnone : ∀ f ∈ fields, f.declared style = f.undeclared →
      f.value sheet = f.value (ofGuide g (type.getD g.rules.documentType)) :=
    fun f hf => (independent_of_mem hf).value_eq_base ⟨hbase, h⟩
  refine ⟨hsame, fun hall => eq_of_fields fun f hf => hsame f hf (hall f hf), hnone, ?_, ?_, ?_⟩
  · intro hcitation
    exact hnone (.single (·.citation) Sheet.citation) (by simp [fields])
      (congrArg (Option.map Literal.value) hcitation)
  · intro hskip
    exact hnone .skippedPages (by simp [fields]) (congrArg (List.map Literal.value) hskip)
  · intro hparts
    exact hnone .parts (by simp [fields])
      (congrArg (Option.map fun list : PartList => list.parts.map Literal.value) hparts)

/-- A narrow page in a large font. -/
def narrowPage : StyleBlock where
  base := some ⟨"mla9", ⟨2, 8⟩⟩
  font := some { size := some ⟨"14", ⟨4, 14⟩⟩, position := ⟨3, 5⟩ }
  layout := some { width := some ⟨"5in", ⟨6, 15⟩⟩, position := ⟨5, 5⟩ }
  position := ⟨1, 1⟩

/-- A page with the same font and width and a height of its own, and without bold text. -/
def smallPage : StyleBlock where
  base := some ⟨" MLA9 ", ⟨2, 8⟩⟩
  font := some { size := some ⟨"14", ⟨7, 14⟩⟩, position := ⟨6, 5⟩ }
  layout := some
    { width := some ⟨"5in", ⟨9, 15⟩⟩, height := some ⟨"8in", ⟨10, 16⟩⟩, position := ⟨8, 5⟩ }
  sentence := some { bold := some ⟨"No", ⟨4, 14⟩⟩, position := ⟨3, 5⟩ }
  position := ⟨1, 1⟩

/-- The two pages have one width and one size of font. The one without a height has that of the
guide. -/
theorem resolve_independent_pages :
    ∃ sheet sheet',
      resolveName .full (GuideTable.full.resolve "Pipp" none) narrowPage.base = .ok .mla9
      ∧ resolveName .full (GuideTable.full.resolve "Pipp" none) smallPage.base = .ok .mla9
      ∧ resolve (some narrowPage) "Pipp" none .full = .ok sheet
      ∧ resolve (some smallPage) "Pipp" none .full = .ok sheet'
      ∧ sheet.fontSize = sheet'.fontSize ∧ sheet.pageFormat.width = sheet'.pageFormat.width
      ∧ sheet.pageFormat.height = (ofGuide .mla9 .paper).pageFormat.height
      ∧ sheet.citation = .mla9 ∧ sheet.skippedPages = [] ∧ sheet.parts = none := by
  have hok : (resolve (some narrowPage) "Pipp" none .full).isOk = true := by decide +kernel
  have hok' : (resolve (some smallPage) "Pipp" none .full).isOk = true := by decide +kernel
  have hbase : resolveName .full (GuideTable.full.resolve "Pipp" none) narrowPage.base
      = .ok .mla9 := by decide +kernel
  have hbase' : resolveName .full (GuideTable.full.resolve "Pipp" none) smallPage.base
      = .ok .mla9 := by decide +kernel
  obtain ⟨sheet, h⟩ := succeeds_of_isOk hok
  obtain ⟨sheet', h'⟩ := succeeds_of_isOk hok'
  obtain ⟨hsame, -, hnone, hcitation, hskipped, hparts⟩ := resolve_independent hbase hbase' h h'
  refine ⟨sheet, sheet', hbase, hbase', h, h', ?_, ?_, ?_, hcitation rfl, hskipped rfl, hparts rfl⟩
  · exact hsame (.single (·.font.bind (·.size)) Sheet.fontSize) (by simp [fields]) rfl
  · exact hsame (.single (·.layout.bind (·.width)) (·.pageFormat.width)) (by simp [fields]) rfl
  · exact hnone (.single (·.layout.bind (·.height)) (·.pageFormat.height)) (by simp [fields]) rfl

end Manuscript.Sheet
