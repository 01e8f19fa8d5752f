import Manuscript.Proofs.Compilation.Paragraphs
import Manuscript.Proofs.Compilation.Placement
import Manuscript.Proofs.Compilation.Raised
import Manuscript.Proofs.Typeset.Conservation
import Manuscript.Proofs.Validation.Acceptance

/-!
# What a style allows

A style sheet says whether bold text and italics are allowed. What it does not allow is found in no
block of a document, whoever asks for it; bold text that it allows is printed bold. The warnings
about emphasis are raised run by run and agree with what is printed.

* `Processed.all`: what every block of a document is that was set.
* `Sheet.Bars`: an emphasis that the style does not allow.
* `Sheet.PrintsBold`: a paragraph that prints the bold runs of its block in bold.
* `process_emphasis`: the emphasis of a whole document, and the warnings about it.
-/

namespace Manuscript

open Manuscript.Span

/-! ## The spans of a document -/

namespace Block

/-- The spans of a paragraph or a note. -/
def textSpans : Block → List Span
  | paragraph p | note _ p => p.spans
  | _ => []

/-- All spans of a block: those of its text, or those of an entry of the bibliography. -/
def spans : Block → List Span
  | entry e => e.spans
  | block => block.textSpans

theorem textSpans_subset {block : Block} : block.textSpans ⊆ block.spans := by
  cases block with
  | entry e => exact List.nil_subset _
  | _ => exact List.Subset.refl _

end Block

namespace Setting

variable (s : Setting) {P : Block → Prop}

/-- The blocks that elements are set as: paragraphs of their sentences, and blocks without spans. -/
theorem forall_setElements (hplain : ∀ block, block.spans = [] → P block)
    (hparagraph : ∀ n sentences,
      P (.paragraph (s.sheet.setParagraph (s.setSentences n sentences).1)))
    (n : Nat) (es : List Element) :
    (∀ block ∈ (s.setElements n es).body, P block)
      ∧ ∀ x ∈ (s.setElements n es).placed, P x.2 := by
  induction es generalizing n with
  | nil => exact ⟨fun _ h => absurd h List.not_mem_nil, fun _ h => absurd h List.not_mem_nil⟩
  | cons e rest ih =>
    have helement : (∀ block ∈ (s.setElement n e).body, P block)
        ∧ ∀ x ∈ (s.setElement n e).placed, P x.2 := by
      have hnone : ∀ x ∈ ([] : List (Part × Block)), P x.2 := fun _ h => absurd h List.not_mem_nil
      cases e with
      | content b =>
        show (∀ block ∈ (s.setBlock n b).body, P block) ∧ ∀ x ∈ (s.setBlock n b).placed, P x.2
        cases hpart : b.kind.part? with
        | none => simp [setBlock, hpart, hparagraph]
        | some part => simp [setBlock, hpart, hparagraph]
      | chapter l => exact ⟨List.forall_mem_singleton.mpr (hplain _ rfl), hnone⟩
      | header position => exact ⟨List.forall_mem_singleton.mpr (hplain _ rfl), hnone⟩
      | blank position => exact ⟨List.forall_mem_singleton.mpr (hplain _ rfl), hnone⟩
      | image i =>
        refine ⟨?_, hnone⟩
        intro block hmem
        obtain ⟨placed, -, rfl⟩ := List.mem_map.mp hmem
        exact hplain _ rfl
    obtain ⟨hbody, hplaced⟩ := ih (n + (s.setElement n e).notes.length)
    exact ⟨List.forall_mem_append.mpr ⟨helement.1, hbody⟩,
      List.forall_mem_append.mpr ⟨helement.2, hplaced⟩⟩

/-- The notes of elements are notes. -/
theorem forall_notes (hnote : ∀ number text, P (s.note number text)) (n : Nat)
    (es : List Element) : ∀ block ∈ (s.setElements n es).notes, P block := by
  rw [notes_setElements]
  intro block hmem
  obtain ⟨i, hi, rfl⟩ := List.mem_mapIdx.mp hmem
  exact hnote _ _

end Setting

namespace Compiler

variable {c : Compiler} {spec : Specification} {p : Preparation} {doc : Document}
  {warnings : List Warning}

/-- Every block of a document is a paragraph of sentences, a note, an entry, the declaration of
integrity, or a block without spans. -/
theorem Processed.all {P : Block → Prop} (h : Processed c spec p doc warnings)
    (hplain : ∀ block, block.spans = [] → P block)
    (hparagraph : ∀ n sentences, P (.paragraph
      (p.sheet.setParagraph ((settingOf spec p).setSentences n sentences).1)))
    (hnote : ∀ number text, P ((settingOf spec p).note number text))
    (hentry : ∀ w, P (.entry (.ofWork p.sheet.citation w)))
    (hstatement : ∀ text, P (.paragraph (p.sheet.setParagraph [[Span.regular text]]))) :
    ∀ s ∈ doc.sections, ∀ block ∈ s.blocks, P block := by
  have hline : ∀ text, P (.line text) := fun text => hplain _ rfl
  obtain ⟨hbody, hplaced⟩ :=
    (settingOf spec p).forall_setElements hplain hparagraph 0 spec.body.elements
  have hnotes := (settingOf spec p).forall_notes hnote 0 spec.body.elements
  have hentries : ∀ entry ∈ (supplyOf p (contentOf spec p)).entries, P (.entry entry) := by
    intro entry hmem
    obtain ⟨w, -, rfl⟩ := List.mem_map.mp (List.mem_mergeSort.mp hmem)
    exact hentry w
  rw [h.document]
  exact all_assemble spec p _ _ hline
    (List.forall_mem_cons.mpr ⟨hstatement _, forall_lines hline _⟩)
    ⟨hbody, hplaced, hnotes, hentries⟩

end Compiler

/-! ## Emphasis that is not allowed -/

/-- The sheet sets no text in an emphasis. -/
def Sheet.Bars (sheet : Sheet) (e : Emphasis) : Prop :=
  ∀ requested : Emphasis, requested.gate sheet.bold sheet.italic ≠ e

namespace Sheet

variable {sheet : Sheet} {e : Emphasis}

theorem bars_bold (h : sheet.bold = .no) : sheet.Bars .bold := by
  intro requested
  rw [h]
  cases requested with
  | italic => cases sheet.italic <;> decide
  | _ => simp [Emphasis.gate, Allowance.permits]

theorem bars_italic (h : sheet.italic = .no) : sheet.Bars .italic := by
  intro requested
  rw [h]
  cases requested with
  | bold => cases sheet.bold <;> decide
  | _ => simp [Emphasis.gate, Allowance.permits]

/-- Regular text is always allowed. -/
theorem Bars.ne_regular (h : sheet.Bars e) : e ≠ .regular := (h .regular).symm

/-- So are the markers of notes. -/
theorem Bars.ne_superscript (h : sheet.Bars e) : e ≠ .superscript := (h .superscript).symm

/-- Regular sentences are set without any emphasis. -/
theorem emphasis_setParagraph_regular (he : e ≠ .regular) (span : Span)
    (hspan : span.emphasis = .regular) :
    ∀ s ∈ (sheet.setParagraph [[span]]).spans, s.emphasis ≠ e := by
  apply Paragraph.emphasis_assemble _ _ _ _ _ he
  intro s hs
  obtain rfl := List.mem_singleton.mp hs
  rw [hspan]
  exact he.symm

end Sheet

namespace Setting

variable {s : Setting} {e : Emphasis}

/-- A run asks for emphasis in vain that is not allowed. -/
theorem emphasis_setRun (hbars : s.sheet.Bars e) (n : Nat) (r : Run) :
    ∀ span ∈ (s.setRun n r).spans, span.emphasis ≠ e := by
  have hset (requested : Emphasis) (text : String) :
      ∀ span ∈ [s.sheet.setText requested text], span.emphasis ≠ e :=
    List.forall_mem_singleton.mpr (hbars requested)
  cases r with
  | text l => exact hset .regular l.value
  | emphasise l => exact hset .italic l.value
  | bold l => exact hset .bold l.value
  | work l => exact hset .italic l.value
  | quote l => exact List.forall_mem_singleton.mpr (hbars .regular)
  | note l => exact List.forall_mem_singleton.mpr hbars.ne_superscript.symm
  | citation l page =>
    cases h : s.shelf.find? l.trimmed with
    | none => simp [setRun, h]
    | some w => simpa [setRun, h, Span.regular] using hbars.ne_regular.symm

/-- No paragraph of sentences shows emphasis that is not allowed. -/
theorem emphasis_setParagraph (hbars : s.sheet.Bars e) (n : Nat) (sentences : List Sentence) :
    ∀ span ∈ (s.sheet.setParagraph (s.setSentences n sentences).1).spans, span.emphasis ≠ e := by
  apply Paragraph.emphasis_assemble _ _ _ _ _ hbars.ne_regular
  rw [flatten_setSentences]
  intro span hspan
  obtain ⟨x, -, hmem⟩ := List.mem_flatMap.mp hspan
  exact emphasis_setRun hbars x.1 x.2 span hmem

end Setting

namespace Entry

/-- Entries are regular and italic before their spans are merged. -/
theorem emphasis_trimEnd {e : Emphasis} {spans : List Span} (h : ∀ s ∈ spans, s.emphasis ≠ e) :
    ∀ s ∈ trimEnd spans, s.emphasis ≠ e := by
  unfold trimEnd
  cases hlast : spans.getLast? with
  | none => exact fun _ hs => absurd hs List.not_mem_nil
  | some last =>
    have hmem : last ∈ spans := List.mem_of_getLast? hlast
    exact List.forall_mem_append.mpr ⟨fun s hs => h s ((List.dropLast_sublist spans).subset hs),
      List.forall_mem_singleton.mpr (h last hmem)⟩

/-- No entry of a bibliography shows bold text. -/
theorem emphasis_ofWork (g : Guide) (w : Work) :
    ∀ s ∈ (ofWork g w).spans, s.emphasis ≠ .bold := by
  have hregular (text : String) : (Span.regular text).emphasis ≠ .bold := nofun
  have hitalic (text : String) : (Span.italic text).emphasis ≠ .bold := nofun
  have hsentence (details : List String) : ∀ s ∈ sentenceOf details, s.emphasis ≠ .bold := by
    unfold sentenceOf
    split_ifs <;> simp [hregular]
  apply emphasis_merge
  cases g with
  | mla9 =>
    apply emphasis_trimEnd
    simp only [List.forall_mem_append]
    -- the pieces of an entry: authors, title, place and access
    refine ⟨⟨⟨?_, ?_⟩, ?_⟩, ?_⟩
    · split_ifs <;> simp [hregular]
    · split_ifs <;> simp [hregular, hitalic]
    · split
      · simp [hregular, hitalic]
      · exact hsentence _
    · simp [hregular]
  | house =>
    apply emphasis_trimEnd
    simp only [List.forall_mem_append]
    refine ⟨⟨?_, ?_⟩, hsentence _⟩
    · split_ifs <;> simp [hregular, hitalic]
    · split <;> simp [hregular, hitalic]

end Entry

/-! ## Bold text that is allowed -/

namespace Run

/-- The text of a bold run. -/
def bold? : Run → Option Literal
  | bold l => some l
  | _ => none

/-- The text of an emphasised run. -/
def emphasised? : Run → Option Literal
  | emphasise l => some l
  | _ => none

end Run

/-- The texts of the bold runs of some sentences. -/
def boldOf (sentences : List Sentence) : List Literal := (runsOf sentences).filterMap Run.bold?

/-- The texts of the emphasised runs of some sentences. -/
def emphasisedOf (sentences : List Sentence) : List Literal :=
  (runsOf sentences).filterMap Run.emphasised?

theorem flatMap_toList {α β γ : Type} (f : α → Option β) (g : β → γ) (items : List α) :
    (items.flatMap fun a => (f a).toList.map g) = (items.filterMap f).map g := by
  induction items with
  | nil => rfl
  | cons a rest ih =>
    rw [List.flatMap_cons, ih, List.filterMap_cons]
    cases f a <;> rfl

namespace Sheet

/-- The text that a bold run is set as. -/
def boldText (sheet : Sheet) (l : Literal) : String := (sheet.setText .bold l.value).text

/-- A paragraph prints the bold runs of a block in bold, in their order, and none of them is empty.
Neighbours may be merged, and a run at the start of a sentence may get a capital. -/
structure PrintsBold (sheet : Sheet) (b : ContentBlock) (p : Paragraph) : Prop where
  nonempty : ∀ l ∈ boldOf b.sentences, (sheet.boldText l).isEmpty = false
  printed : ∃ texts,
    List.Forall₂ SameUpToCapital ((boldOf b.sentences).map sheet.boldText) texts
      ∧ Gathered texts (textsOf .bold p.spans)

/-- A text that holds more than white space is not set as nothing. -/
theorem isEmpty_boldText (sheet : Sheet) {l : Literal} (h : l.HasContent) :
    (sheet.boldText l).isEmpty = false := by
  have hne := Typeset.normalize_ne_nil sheet.whitespace sheet.guide.rules.strict
    sheet.guide.isPunctuation h
  unfold boldText setText
  simpa using hne

end Sheet

namespace Setting

variable {s : Setting}

/-- Where bold text is allowed, a bold run is set in bold, and other runs are not. -/
theorem bold_setRun (hbold : s.sheet.bold.permits = true) (n : Nat) {r : Run}
    (h : ∀ l ∈ r.bold?, l.HasContent) :
    textsOf .bold (shown (s.setRun n r).spans) = r.bold?.toList.map s.sheet.boldText := by
  have hother {spans : List Span} (h : ∀ span ∈ spans, span.emphasis ≠ .bold) :
      textsOf .bold (shown spans) = [] :=
    textsOf_eq_nil_iff.mpr fun span hspan => h span (List.mem_of_mem_filter hspan)
  have hitalic (text : String) : (s.sheet.setText .italic text).emphasis ≠ .bold := by
    show Emphasis.italic.gate s.sheet.bold s.sheet.italic ≠ .bold
    cases s.sheet.italic <;> simp [Emphasis.gate, Allowance.permits]
  cases r with
  | text l => exact hother (List.forall_mem_singleton.mpr nofun)
  | emphasise l => exact hother (List.forall_mem_singleton.mpr (hitalic l.value))
  | work l => exact hother (List.forall_mem_singleton.mpr (hitalic l.value))
  | quote l => exact hother (List.forall_mem_singleton.mpr nofun)
  | note l => exact hother (List.forall_mem_singleton.mpr nofun)
  | citation l page =>
    apply hother
    cases hfind : s.shelf.find? l.trimmed with
    | none => simp [setRun, hfind]
    | some w => simp [setRun, hfind, Span.regular]
  | bold l =>
    have hempty : (s.sheet.setText .bold l.value).text.isEmpty = false :=
      s.sheet.isEmpty_boldText (h l rfl)
    have hemphasis : (s.sheet.setText .bold l.value).emphasis = .bold := if_pos hbold
    have hspans : (s.setRun n (.bold l)).spans = [s.sheet.setText .bold l.value] := rfl
    rw [hspans, shown_eq_self (List.forall_mem_singleton.mpr hempty), textsOf_cons_of_eq hemphasis]
    rfl

theorem bold_setSentences (hbold : s.sheet.bold.permits = true) (n : Nat)
    {sentences : List Sentence} (h : ∀ l ∈ boldOf sentences, l.HasContent) :
    textsOf .bold (shown (s.setSentences n sentences).1.flatten)
      = (boldOf sentences).map s.sheet.boldText := by
  have hruns : ∀ x ∈ counted Run.notes n (runsOf sentences),
      textsOf .bold (shown (s.setRun x.1 x.2).spans) = x.2.bold?.toList.map s.sheet.boldText := by
    intro x hx
    have hmem : x.2 ∈ runsOf sentences := by
      rw [← map_snd_counted Run.notes n (runsOf sentences)]
      exact List.mem_map_of_mem hx
    exact bold_setRun hbold x.1 fun l hl => h l (List.mem_filterMap.mpr ⟨x.2, hmem, hl⟩)
  -- where bold text stands does not depend on the notes in front of it
  have hcounted := List.flatMap_map Prod.snd (fun r : Run => r.bold?.toList.map s.sheet.boldText)
    (l := counted Run.notes n (runsOf sentences))
  rw [map_snd_counted] at hcounted
  unfold boldOf
  rw [flatten_setSentences, textsOf_shown_flatMap, List.flatMap_congr hruns, ← flatMap_toList,
    hcounted]

/-- The paragraph of a block prints its bold runs in bold. -/
theorem printsBold_setParagraph (hbold : s.sheet.bold.permits = true) (n : Nat) {b : ContentBlock}
    (h : ∀ l ∈ boldOf b.sentences, l.HasContent) :
    s.sheet.PrintsBold b (s.sheet.setParagraph (s.setSentences n b.sentences).1) := by
  constructor
  · exact fun l hl => s.sheet.isEmpty_boldText (h l hl)
  · rw [← bold_setSentences hbold n h]
    exact Paragraph.gathered_assemble _ _ _ _ _ (by decide)

/-- So do the paragraphs of all blocks. -/
theorem printsBold_paragraphs (hbold : s.sheet.bold.permits = true) (n : Nat) {es : List Element}
    (h : ∀ l ∈ boldOf (es.flatMap Element.sentences), l.HasContent) :
    ∀ x ∈ s.paragraphs n es, s.sheet.PrintsBold x.1 x.2 := by
  fun_induction paragraphs s n es with
  | case1 n => exact fun _ hx => absurd hx List.not_mem_nil
  | case2 n b rest sentences pieces hset ih =>
    have hcons : boldOf ((Element.content b :: rest).flatMap Element.sentences)
        = boldOf b.sentences ++ boldOf (rest.flatMap Element.sentences) := by
      unfold boldOf runsOf
      rw [List.flatMap_cons, List.flatMap_append, List.filterMap_append]
      rfl
    rw [hcons] at h
    obtain ⟨hfirst, hrest⟩ := List.forall_mem_append.mp h
    have hprints := printsBold_setParagraph hbold n hfirst
    rw [hset] at hprints
    exact List.forall_mem_cons.mpr ⟨hprints, ih hrest⟩
  | case3 n e rest hne ih =>
    rw [List.flatMap_cons, (Element.of_ne_content hne).2] at h
    exact ih h

/-! ## Warnings about emphasis -/

variable (s)

/-- What is picked of the remarks about a text is picked run by run. -/
theorem filter_setBody {q : Warning → Bool} {f : Run → Option Literal} {g : Literal → Warning}
    (h : ∀ r, (s.remarks r).filter q = (f r).toList.map g) (b : Body) :
    (s.setBody b).warnings.filter q = ((runsOf b.sentences).filterMap f).map g := by
  unfold setBody
  rw [warnings_setElements, ← Body.sentences_eq, List.filter_flatMap, ← flatMap_toList]
  exact List.flatMap_congr fun r _ => h r

/-- Every bold run is warned about where bold text is not allowed, and none where it is. -/
theorem filter_boldForbidden (b : Body) :
    (s.setBody b).warnings.filter Warning.saysBoldForbidden
      = if s.sheet.bold.permits then []
        else (boldOf b.sentences).map fun l => .found .boldForbidden l.position := by
  have hbold (position : Position) :
      Warning.saysBoldForbidden (.found .boldForbidden position) = true :=
    says_iff.mpr ⟨rfl, rfl, rfl⟩
  have hitalics (position : Position) :
      Warning.saysBoldForbidden (.found .italicsIfNecessary position) = false := rfl
  have hremarks : ∀ r, (s.remarks r).filter Warning.saysBoldForbidden
      = (if s.sheet.bold.permits then none else r.bold?).toList.map fun l =>
        .found .boldForbidden l.position := by
    intro r
    cases r with
    | bold l => cases h : s.sheet.bold.permits <;> simp [remarks, warnIf, h, hbold, Run.bold?]
    | emphasise l => simp [remarks, hitalics, warnIf, Run.bold?]
    | _ => simp [remarks, Run.bold?]
  rw [s.filter_setBody hremarks]
  split_ifs with h
  · simp
  · rfl

/-- Every emphasised run is warned about where italics are allowed if they are necessary. -/
theorem filter_italics (b : Body) :
    (s.setBody b).warnings.filter Warning.saysItalics
      = if s.sheet.italic = .ifNecessary then
          (emphasisedOf b.sentences).map fun l => .found .italicsIfNecessary l.position
        else [] := by
  have hbold (position : Position) :
      Warning.saysItalics (.found .boldForbidden position) = false := rfl
  have hitalics (position : Position) :
      Warning.saysItalics (.found .italicsIfNecessary position) = true :=
    says_iff.mpr ⟨rfl, rfl, rfl⟩
  have hremarks : ∀ r, (s.remarks r).filter Warning.saysItalics
      = (if s.sheet.italic = .ifNecessary then r.emphasised? else none).toList.map fun l =>
        .found .italicsIfNecessary l.position := by
    intro r
    cases r with
    | bold l => simp [remarks, hbold, warnIf, Run.emphasised?]
    | emphasise l =>
      by_cases h : s.sheet.italic = .ifNecessary <;>
        simp [remarks, warnIf, h, hitalics, Run.emphasised?]
    | _ => simp [remarks, Run.emphasised?]
  rw [s.filter_setBody hremarks]
  split_ifs with h
  · rfl
  · simp

end Setting

/-- The bold runs of a checked body hold more than white space. -/
theorem hasContent_boldOf {b : Body} (h : b.check = .ok ()) :
    ∀ l ∈ boldOf b.sentences, l.HasContent := by
  intro l hl
  obtain ⟨r, hr, hbold⟩ := List.mem_filterMap.mp hl
  obtain ⟨sentence, hsentence, hmem⟩ := List.mem_flatMap.mp hr
  obtain ⟨block, hblock, hin⟩ := List.mem_flatMap.mp hsentence
  obtain ⟨e, he, hcontent⟩ := List.mem_filterMap.mp hblock
  have hvalid := Body.check_ok_iff.mp h e he
  cases e <;> cases hcontent
  have hrun := ContentBlock.Valid.runs hvalid sentence hin r hmem
  cases r <;> cases hbold
  exact hrun.content

/-! ## The whole document -/

namespace Compiler

variable {c : Compiler} {spec : Specification} {p : Preparation} {doc : Document}
  {warnings : List Warning}

/-- A document shows emphasis as its style sheet allows it, and the warnings say where that is not
what the text asks for. -/
structure EmphasisKept (spec : Specification) (sheet : Sheet) (doc : Document)
    (warnings : List Warning) : Prop where
  /-- Where bold text is not allowed, nothing in the document is bold. -/
  noBold : sheet.bold = .no →
    ∀ s ∈ doc.sections, ∀ block ∈ s.blocks, ∀ span ∈ block.spans, span.emphasis ≠ .bold
  /-- There is one warning for each bold run, in order and at its position, or none if bold text is
  allowed. -/
  boldWarned : warnings.filter Warning.saysBoldForbidden
    = if sheet.bold.permits then []
      else (boldOf spec.body.sentences).map fun l => .found .boldForbidden l.position
  /-- Where bold text is allowed, the paragraphs of the body print their bold runs in bold. -/
  boldBody : sheet.bold.permits = true → ∃ blocks, doc.blocksOf .body = [blocks]
    ∧ List.Forall₂ sheet.PrintsBold (spec.body.blocksOf .paragraph)
      (blocks.filterMap Block.paragraph?)
  /-- So do the paragraphs of the parts, which are in the document unless a warning misses them. -/
  boldParts : sheet.bold.permits = true → ∀ kind part, ContentKind.part? kind = some part →
    ∃ paragraphs : List Paragraph,
      doc.Accounts warnings (.part part) (paragraphs.map .paragraph)
          ("The document has " ++ part.name ++ " content but no " ++ part.name ++ " section")
        ∧ List.Forall₂ sheet.PrintsBold (spec.body.blocksOf kind) paragraphs
  /-- Where italics are not allowed, no paragraph and no note is italic. -/
  noItalics : sheet.italic = .no →
    ∀ s ∈ doc.sections, ∀ block ∈ s.blocks, ∀ span ∈ block.textSpans, span.emphasis ≠ .italic
  /-- There is one warning for each emphasised run if italics are allowed where necessary, and none
  otherwise. -/
  italicsWarned : warnings.filter Warning.saysItalics
    = if sheet.italic = .ifNecessary then
        (emphasisedOf spec.body.sentences).map fun l => .found .italicsIfNecessary l.position
      else []

/-- An emphasis that is not allowed is found in no paragraph and in no note. -/
theorem Processed.emphasis_textSpans (h : Processed c spec p doc warnings) {e : Emphasis}
    (hbars : p.sheet.Bars e) :
    ∀ s ∈ doc.sections, ∀ block ∈ s.blocks, ∀ span ∈ block.textSpans, span.emphasis ≠ e := by
  refine h.all (P := fun block => ∀ span ∈ block.textSpans, span.emphasis ≠ e) ?_ ?_ ?_ ?_ ?_
  · intro block hblock span hspan
    have hmem := Block.textSpans_subset hspan
    rw [hblock] at hmem
    cases hmem
  · exact Setting.emphasis_setParagraph (s := settingOf spec p) hbars
  · exact fun number text => Sheet.emphasis_setParagraph_regular hbars.ne_regular _ rfl
  · exact fun w span hspan => absurd hspan List.not_mem_nil
  · exact fun text => Sheet.emphasis_setParagraph_regular hbars.ne_regular _ rfl

/-- Bold text that is not allowed is found nowhere, for entries are never bold. -/
theorem Processed.emphasis_spans (h : Processed c spec p doc warnings)
    (hbars : p.sheet.Bars .bold) :
    ∀ s ∈ doc.sections, ∀ block ∈ s.blocks, ∀ span ∈ block.spans, span.emphasis ≠ .bold := by
  refine h.all (P := fun block => ∀ span ∈ block.spans, span.emphasis ≠ .bold) ?_ ?_ ?_ ?_ ?_
  · intro block hblock span hspan
    rw [hblock] at hspan
    cases hspan
  · exact Setting.emphasis_setParagraph (s := settingOf spec p) hbars
  · exact fun number text => Sheet.emphasis_setParagraph_regular hbars.ne_regular _ rfl
  · exact Entry.emphasis_ofWork p.sheet.citation
  · exact fun text => Sheet.emphasis_setParagraph_regular hbars.ne_regular _ rfl

/-- The blocks of a kind print their bold runs in bold, in the paragraphs that they are set as. -/
theorem printsBold_blocksOf (hcheck : spec.check = .ok ())
    (hbold : p.sheet.bold.permits = true) (kind : ContentKind) :
    List.Forall₂ p.sheet.PrintsBold (spec.body.blocksOf kind)
      ((((settingOf spec p).paragraphs 0 spec.body.elements).filter fun x =>
        x.1.kind == kind).map Prod.snd) := by
  have hcontent := hasContent_boldOf (passed_of_check hcheck).body
  rw [Body.sentences_eq] at hcontent
  have hprints := Setting.printsBold_paragraphs (s := settingOf spec p) hbold 0 hcontent
  unfold Body.blocksOf Body.blocks
  rw [← (settingOf spec p).fst_paragraphs 0 spec.body.elements, List.filter_map,
    List.forall₂_map_left_iff, List.forall₂_map_right_iff]
  exact List.forall₂_same.mpr fun x hx => hprints x (List.mem_of_mem_filter hx)

/-- Emphasis is kept in every document. -/
theorem Processed.emphasisKept (h : Processed c spec p doc warnings)
    (hprocess : c.process spec = (.ok doc, warnings)) :
    EmphasisKept spec p.sheet doc warnings where
  noBold hno := h.emphasis_spans (Sheet.bars_bold hno)
  boldWarned := by
    rw [filter_process_emphasis hprocess h.prepare picks_boldForbidden]
    exact (settingOf spec p).filter_boldForbidden spec.body
  boldBody hbold := by
    refine ⟨(contentOf spec p).body, h.blocksOf_body, ?_⟩
    have hsorts := (settingOf spec p).sorts_setElements 0 spec.body.elements
    have hkind : (fun x : ContentBlock × Paragraph => x.1.kind.part?.isNone)
        = fun x => x.1.kind == .paragraph := by
      funext x
      cases x.1.kind <;> rfl
    have hbody := hsorts.body
    rw [hkind] at hbody
    show List.Forall₂ _ _ (((settingOf spec p).setElements 0 spec.body.elements).body.filterMap _)
    rw [hbody]
    exact printsBold_blocksOf h.check hbold .paragraph
  boldParts hbold kind part hpart := by
    have hsorts := (settingOf spec p).sorts_setElements 0 spec.body.elements
    have hkind : (fun x : ContentBlock × Paragraph => x.1.kind.part? == some part)
        = fun x => x.1.kind == kind := by
      funext x
      cases kind <;> cases hpart <;> cases x.1.kind <;> rfl
    have hparts := hsorts.parts part
    rw [hkind] at hparts
    have haccounts := h.accounts_content hpart
    rw [show (contentOf spec p).blocksFor part = _ from hparts] at haccounts
    refine ⟨_, ?_, printsBold_blocksOf h.check hbold kind⟩
    rw [List.map_map]
    exact haccounts
  noItalics hno := h.emphasis_textSpans (Sheet.bars_italic hno)
  italicsWarned := by
    rw [filter_process_emphasis hprocess h.prepare picks_italics]
    exact (settingOf spec p).filter_italics spec.body

/-- The allowances of the style sheet in effect are kept in the whole document. -/
theorem process_emphasis (h : c.process spec = (.ok doc, warnings)) :
    ∃ sheet, c.sheetOf spec = .ok sheet ∧ EmphasisKept spec sheet doc warnings := by
  obtain ⟨p, hp⟩ := processed_of_ok h
  exact ⟨p.sheet, sheetOf_of_prepare hp.prepare, hp.emphasisKept h⟩

/-- An essay with bold and emphasised runs and a note, whose style allows neither bold text nor
italics that are not necessary. -/
def emphaticEssay : Specification :=
  let text (line column : Nat) (value : String) : Literal := ⟨value, ⟨line, column⟩⟩
  { title := ⟨[.plain (text 1 7 "On Ravens")], some ⟨1, 1⟩⟩
    authors := ⟨[.named (text 2 8 "Jane Doe")], some ⟨2, 1⟩⟩
    style := some
      { base := some (text 4 8 "MLA9"), position := ⟨3, 1⟩
        sentence := some
          { bold := some (text 6 14 "No"), italic := some (text 7 16 "If Necessary")
            position := ⟨5, 5⟩ } }
    body :=
      ⟨[.content ⟨.paragraph, [⟨[.bold (text 8 16 "Ravens"), .emphasise (text 8 35 "fly"),
        .note (text 8 46 "mostly"), .bold (text 8 60 "high")], ⟨8, 11⟩⟩], ⟨8, 1⟩⟩]⟩ }

/-- The essay is processed with its own allowances, and its emphasis is kept. -/
theorem process_emphasis_emphaticEssay : ∃ doc warnings,
    process { today := ⟨2024, 1, 1⟩ } emphaticEssay = (.ok doc, warnings)
      ∧ ∃ sheet, sheetOf { today := ⟨2024, 1, 1⟩ } emphaticEssay = .ok sheet
        ∧ sheet.bold = .no ∧ sheet.italic = .ifNecessary
        ∧ EmphasisKept emphaticEssay sheet doc warnings := by
  have hok : (process { today := ⟨2024, 1, 1⟩ } emphaticEssay).1.isOk = true := by decide +kernel
  have hallowed : ((sheetOf { today := ⟨2024, 1, 1⟩ } emphaticEssay).toOption.map fun sheet =>
      (sheet.bold, sheet.italic)) = some (.no, .ifNecessary) := by decide +kernel
  cases h : process { today := ⟨2024, 1, 1⟩ } emphaticEssay with
  | mk outcome warnings =>
    rw [h] at hok
    cases outcome with
    | error e => cases hok
    | ok doc =>
      obtain ⟨sheet, hsheet, hkept⟩ := process_emphasis h
      rw [hsheet] at hallowed
      obtain ⟨hbold, hitalic⟩ := Prod.mk.inj (Option.some.inj hallowed)
      exact ⟨doc, warnings, rfl, sheet, hsheet, hbold, hitalic, hkept⟩

end Compiler

end Manuscript
