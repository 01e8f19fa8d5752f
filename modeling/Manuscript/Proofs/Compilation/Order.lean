import Manuscript.Proofs.Compilation.Building
import Manuscript.Proofs.Compilation.Setting

/-!
# The order of the sections

The sections of every document are in order: there is one body, in front of the back matter; no part
but a blank page stands twice; and the endnotes keep the rules of the style sheet. The check of the
order asks for these rules and for nothing else, so that a specification whose style sheet can be
made is processed unless it breaks one of them. That one part stands somewhere in front of another
is said with a sublist of two.

* `checkOrder_iff`: what the check of the order asks for.
* `Processed.ordered`: the order of a document.
* `process_ordered`: both directions.
-/

namespace Manuscript

/-! ## What stands in front of what -/

/-- A part stands behind an anchor if it does so in the list. -/
theorem standsBehind_iff (part anchor : Part) (parts : List Part) :
    standsBehind part anchor parts = true ↔ [anchor, part].Sublist parts := by
  unfold standsBehind
  rw [List.contains_iff_mem]
  induction parts with
  | nil => simp
  | cons first rest ih =>
    by_cases hfirst : first = anchor
    · -- the first anchor is met: what stands behind it is the rest
      have hdrop : (List.dropWhile (· != anchor) (first :: rest)).drop 1 = rest := by
        simp [hfirst]
      rw [hdrop, hfirst, List.cons_sublist_cons, List.singleton_sublist]
    · have hdrop : List.dropWhile (· != anchor) (first :: rest)
          = rest.dropWhile (· != anchor) := by
        simp [hfirst]
      rw [hdrop, ih]
      constructor
      · exact fun h => h.cons first
      · intro h
        rcases List.sublist_cons_iff.mp h with h | ⟨r, hr, -⟩
        · exact h
        · cases hr
          exact absurd rfl hfirst

/-- A part stands in front of an anchor that stands once if it does so in the list. -/
theorem standsBefore_iff {part anchor : Part} {parts : List Part} (hmem : anchor ∈ parts)
    (honce : parts.count anchor ≤ 1) :
    standsBefore part anchor parts = true ↔ [part, anchor].Sublist parts := by
  unfold standsBefore
  rw [List.contains_iff_mem]
  induction parts with
  | nil => cases hmem
  | cons first rest ih =>
    by_cases hfirst : first = anchor
    · -- nothing stands in front of the anchor, and there is no other one
      have hnot : anchor ∉ rest := by
        rw [← List.count_eq_zero]
        rw [hfirst, List.count_cons_self] at honce
        omega
      have htake : List.takeWhile (· != anchor) (first :: rest) = [] := by
        simp [hfirst]
      rw [htake]
      constructor
      · exact fun h => absurd h List.not_mem_nil
      · intro h
        rcases List.sublist_cons_iff.mp h with h | ⟨r, hr, h⟩
        · exact absurd (h.subset (by simp)) hnot
        · cases hr
          exact absurd (h.subset (by simp)) hnot
    · have hrest : anchor ∈ rest := (List.mem_cons.mp hmem).resolve_left fun h => hfirst h.symm
      have hcount : rest.count anchor ≤ 1 := by
        rw [List.count_cons_of_ne hfirst] at honce
        exact honce
      have htake : List.takeWhile (· != anchor) (first :: rest)
          = first :: rest.takeWhile (· != anchor) := by
        simp [hfirst]
      rw [htake, List.mem_cons, ih hrest hcount]
      constructor
      · rintro (rfl | h)
        · exact (List.singleton_sublist.mpr hrest).cons_cons part
        · exact h.cons first
      · intro h
        rcases List.sublist_cons_iff.mp h with h | ⟨r, hr, -⟩
        · exact .inr h
        · cases hr
          exact .inl rfl

/-- Of two things in a list one stands in front of the other. -/
theorem sublist_or_sublist {α : Type} {a b : α} {l : List α} (ha : a ∈ l) (hb : b ∈ l)
    (hne : a ≠ b) : [a, b].Sublist l ∨ [b, a].Sublist l := by
  obtain ⟨before, behind, rfl⟩ := List.append_of_mem ha
  rcases List.mem_append.mp hb with hb | hb
  · right
    exact (List.singleton_sublist.mpr hb).append (List.singleton_sublist.mpr List.mem_cons_self)
  · left
    have hb : b ∈ behind := (List.mem_cons.mp hb).resolve_left hne.symm
    exact ((List.singleton_sublist.mpr hb).cons_cons a).trans (List.sublist_append_right _ _)

/-- One part stands in front of another in the outline if it does so among the parts. -/
theorem sublist_outlineOf {part other : Part} {parts : List Part} :
    [SectionKind.part part, .part other].Sublist (outlineOf parts)
      ↔ [part, other].Sublist parts := by
  constructor
  · intro h
    have hparts := h.filterMap SectionKind.part?
    rw [outlineOf_parts] at hparts
    exact hparts
  · intro h
    obtain ⟨front, back, rfl, houtline, -⟩ := outlineOf_eq parts
    have hmap := h.map SectionKind.part
    rw [List.map_append] at hmap
    rw [houtline]
    exact hmap.trans ((List.sublist_cons_self _ _).append_left _)

/-! ## The rules of the endnotes -/

/-- The endnotes are in place: they are allowed, no part that the guide wants in front of them
stands behind them, and the part that they must stand before is not in front of them. -/
structure EndnotesInPlace (sheet : Sheet) (parts : List Part) (notes : List Block) : Prop where
  allowed : sheet.endnotes = .no → .endnotes ∉ parts ∧ notes = []
  required : ∀ part ∈ sheet.guide.rules.beforeEndnotes, ¬ [.endnotes, part].Sublist parts
  anchored : ∀ x ∈ sheet.endnotesBefore, ¬ [x.1, .endnotes].Sublist parts

/-- The required parts pass if none of them stands behind the endnotes. -/
theorem checkRequired_iff (parts required : List Part) :
    checkRequired parts required = .ok ()
      ↔ ∀ part ∈ required, ¬ [.endnotes, part].Sublist parts := by
  induction required with
  | nil => simp [checkRequired]
  | cons part rest ih =>
    unfold checkRequired
    rw [List.forall_mem_cons, ← ih, ← standsBehind_iff]
    by_cases hbehind : standsBehind part .endnotes parts = true
    · simp [hbehind]
    · simp [hbehind]

/-- Where endnotes are, the check asks for the parts in front of them and for their anchor. -/
theorem checkOrder_of_mem {sheet : Sheet} {parts : List Part} {hasNotes : Bool}
    (hmem : .endnotes ∈ parts) (hallowed : sheet.endnotes ≠ .no) :
    checkOrder parts sheet hasNotes = .ok ()
      ↔ checkRequired parts sheet.guide.rules.beforeEndnotes = .ok ()
        ∧ ∀ x ∈ sheet.endnotesBefore, standsBefore x.1 .endnotes parts = false := by
  have hcontains : parts.contains .endnotes = true := List.contains_iff_mem.mpr hmem
  unfold checkOrder
  rw [if_neg hallowed, if_pos hcontains]
  cases hrequired : checkRequired parts sheet.guide.rules.beforeEndnotes with
  | error e =>
    constructor
    · intro h
      cases h
    · rintro ⟨h, -⟩
      cases h
  | ok _ =>
    cases hanchor : sheet.endnotesBefore with
    | none =>
      constructor
      · exact fun _ => ⟨rfl, fun x hx => absurd hx (by simp)⟩
      · exact fun _ => rfl
    | some x =>
      obtain ⟨anchor, position⟩ := x
      show (if standsBefore anchor .endnotes parts = true then
        throw (Failure.partOrder .endnotes anchor) else pure ()) = Except.ok () ↔ _
      by_cases hbefore : standsBefore anchor .endnotes parts = true
      · rw [if_pos hbefore]
        constructor
        · intro h
          cases h
        · rintro ⟨-, h⟩
          rw [h _ rfl] at hbefore
          cases hbefore
      · rw [if_neg hbefore]
        constructor
        · rintro -
          refine ⟨rfl, ?_⟩
          rintro x ⟨⟩
          exact Bool.eq_false_iff.mpr hbefore
        · exact fun _ => rfl

/-- Where endnotes are not, the check asks for their allowance only. -/
theorem checkOrder_of_not_mem {sheet : Sheet} {parts : List Part} {hasNotes : Bool}
    (hmem : .endnotes ∉ parts) : checkOrder parts sheet hasNotes = .ok ()
      ↔ (sheet.endnotes = .no → hasNotes = false) := by
  have hcontains : ¬ parts.contains .endnotes = true := fun h => hmem (List.contains_iff_mem.mp h)
  unfold checkOrder
  by_cases hno : sheet.endnotes = .no
  · rw [if_pos hno, if_neg hcontains]
    cases hasNotes with
    | false => exact ⟨fun _ _ => rfl, fun _ => if_neg hcontains⟩
    | true =>
      constructor
      · intro h
        cases h
      · intro h
        cases h hno
  · rw [if_neg hno]
    exact ⟨fun _ h => absurd h hno, fun _ => if_neg hcontains⟩

/-- The check of the order asks for the rules of the endnotes and for nothing else. -/
theorem checkOrder_iff {sheet : Sheet} {parts : List Part} (honce : PartsOnce parts)
    (notes : List Block) :
    checkOrder parts sheet (!notes.isEmpty) = .ok () ↔ EndnotesInPlace sheet parts notes := by
  by_cases hmem : .endnotes ∈ parts
  · by_cases hno : sheet.endnotes = .no
    · have hcontains : parts.contains .endnotes = true := List.contains_iff_mem.mpr hmem
      unfold checkOrder
      rw [if_pos hno, if_pos hcontains]
      constructor
      · intro h
        cases h
      · exact fun h => absurd hmem (h.allowed hno).1
    · have hcount : parts.count .endnotes ≤ 1 := honce.count_le (by decide)
      rw [checkOrder_of_mem hmem hno, checkRequired_iff]
      constructor
      · rintro ⟨hrequired, hanchored⟩
        refine ⟨fun h => absurd h hno, hrequired, ?_⟩
        intro x hx hsub
        rw [← standsBefore_iff hmem hcount, hanchored x hx] at hsub
        cases hsub
      · intro h
        refine ⟨h.required, ?_⟩
        intro x hx
        rw [Bool.eq_false_iff, ne_eq, standsBefore_iff hmem hcount]
        exact h.anchored x hx
  · rw [checkOrder_of_not_mem hmem, Bool.not_eq_false', List.isEmpty_iff]
    constructor
    · intro h
      refine ⟨fun hno => ⟨hmem, h hno⟩, ?_, ?_⟩
      · exact fun _ _ hsub => hmem (hsub.subset List.mem_cons_self)
      · exact fun _ _ hsub => hmem (hsub.subset (by simp))
    · exact fun h hno => (h.allowed hno).2

/-! ## Notes -/

/-- No note is set among the other blocks. -/
theorem isNote_setElements (s : Setting) (n : Nat) (es : List Element) :
    (∀ block ∈ (s.setElements n es).body, block.isNote = false)
      ∧ ∀ x ∈ (s.setElements n es).placed, x.2.isNote = false := by
  induction es generalizing n with
  | nil => exact ⟨fun _ h => absurd h List.not_mem_nil, fun _ h => absurd h List.not_mem_nil⟩
  | cons e rest ih =>
    have helement : (∀ block ∈ (s.setElement n e).body, block.isNote = false)
        ∧ ∀ x ∈ (s.setElement n e).placed, x.2.isNote = false := by
      cases e with
      | chapter l => simp [Setting.setElement, Block.isNote]
      | header position => simp [Setting.setElement, Block.isNote]
      | blank position => simp [Setting.setElement, Block.isNote]
      | image i => simp [Setting.setElement, Block.isNote]
      | content b =>
        cases hpart : b.kind.part? with
        | none => simp [Setting.setElement, Setting.setBlock, hpart, Block.isNote]
        | some part =>
          show (∀ block ∈ (s.setBlock n b).body, _) ∧ ∀ x ∈ (s.setBlock n b).placed, _
          rw [Setting.setBlock_of_part n hpart]
          simp [Block.isNote]
    obtain ⟨hbody, hplaced⟩ := ih (n + (s.setElement n e).notes.length)
    exact ⟨List.forall_mem_append.mpr ⟨helement.1, hbody⟩,
      List.forall_mem_append.mpr ⟨helement.2, hplaced⟩⟩

namespace Compiler

variable {c : Compiler} {spec : Specification} {p : Preparation} {doc : Document}
  {warnings : List Warning}

/-- The text has no notes if none were set. -/
theorem notesOf_eq_nil (hcheck : spec.check = .ok ()) (hprepare : c.prepare spec = .ok p)
    (h : (contentOf spec p).notes = []) : notesOf spec.body.sentences = [] := by
  obtain ⟨s, hshows⟩ := shows_contentOf hcheck hprepare
  have hlength := congrArg List.length (hshows.notes.symm.trans h)
  rw [Setting.length_endnotes, ← Body.sentences_eq] at hlength
  exact List.length_eq_zero_iff.mp hlength

/-! ## Documents -/

/-- The sections of a document are in order. -/
structure Ordered (spec : Specification) (p : Preparation) (doc : Document) : Prop where
  /-- There is one body. -/
  body : doc.outline.count .body = 1
  /-- No part but a blank page stands twice. -/
  once : ∀ part, part ≠ .blankPage → doc.outline.count (.part part) ≤ 1
  /-- The parts keep their order, with the body in front of the first one of the back matter. -/
  placed : ∃ front back, partsFor spec p = front ++ back
    ∧ doc.outline = front.map .part ++ .body :: back.map .part
    ∧ (∀ part ∈ front, part.isBackMatter = false)
    ∧ ∀ part ∈ back.head?, part.isBackMatter = true
  /-- The parts that the guide wants in front of the endnotes stand there and not behind them. -/
  required : .part .endnotes ∈ doc.outline →
    ∀ part ∈ p.sheet.guide.rules.beforeEndnotes, .part part ∈ doc.outline →
      [.part part, .part .endnotes].Sublist doc.outline
        ∧ ¬ [.part .endnotes, .part part].Sublist doc.outline
  /-- The part that the endnotes must stand before does not stand in front of them. -/
  anchored : ∀ x ∈ p.sheet.endnotesBefore,
    ¬ [.part x.1, .part .endnotes].Sublist doc.outline
  /-- Where endnotes are not allowed, there are none, and no notes. -/
  allowed : p.sheet.endnotes = .no → .part .endnotes ∉ doc.outline
    ∧ notesOf spec.body.sentences = [] ∧ ∀ s ∈ doc.sections, ∀ b ∈ s.blocks, b.isNote = false

/-- The sections of every document are in order. -/
theorem Processed.ordered (h : Processed c spec p doc warnings) : Ordered spec p doc := by
  have honce := once_partsFor h.check h.prepare
  have hrules := (checkOrder_iff honce _).mp h.order
  have houtline : doc.outline = outlineOf (partsFor spec p) := by
    rw [h.document, outline_assemble]
  have hmem : ∀ part, .part part ∈ outlineOf (partsFor spec p) ↔ part ∈ partsFor spec p := by
    intro part
    rw [← List.count_pos_iff, count_outlineOf, List.count_pos_iff]
  constructor
  · rw [houtline]
    exact count_body_outlineOf _
  · intro part hpart
    rw [houtline, count_outlineOf]
    exact honce.count_le hpart
  · rw [houtline]
    exact outlineOf_eq _
  · rw [houtline]
    intro hendnotes part hpart hin
    rw [sublist_outlineOf, sublist_outlineOf]
    have hbehind := hrules.required part hpart
    have hne : part ≠ .endnotes := by
      rintro rfl
      cases hguide : p.sheet.guide <;> rw [hguide] at hpart <;> revert hpart <;> decide
    refine ⟨?_, hbehind⟩
    have horder := sublist_or_sublist ((hmem part).mp hin) ((hmem _).mp hendnotes) hne
    exact horder.resolve_right hbehind
  · rw [houtline]
    intro x hx
    rw [sublist_outlineOf]
    exact hrules.anchored x hx
  · intro hno
    obtain ⟨habsent, hnotes⟩ := hrules.allowed hno
    refine ⟨?_, notesOf_eq_nil h.check h.prepare hnotes, ?_⟩
    · rw [houtline, hmem]
      exact habsent
    · rw [h.document]
      obtain ⟨hbody, hplaced⟩ := isNote_setElements
        { sheet := p.sheet, shelf := .ofWorks p.works, headerLines := headerLines spec p.metadata }
        0 spec.body.elements
      exact noNotes_assemble spec p _ _ ⟨hnotes, hbody, hplaced⟩

/-- What passed the gate is prepared if its style sheet can be made. -/
theorem prepare_of_sheetOf {sheet : Sheet} (hcheck : spec.check = .ok ())
    (hsheet : c.sheetOf spec = .ok sheet) : ∃ p, c.prepare spec = .ok p ∧ p.sheet = sheet := by
  have hread := readable_of_check c hcheck
  obtain ⟨type, htype, hresolve⟩ := of_bind_ok hsheet
  obtain ⟨works, hworks⟩ := of_orInvalid hread.works
  obtain ⟨date, hdate⟩ := of_orInvalid hread.date
  refine ⟨{ sheet, works, metadata := metadataOf spec sheet date }, ?_, rfl⟩
  unfold prepare
  rw [htype]
  show (Sheet.resolve spec.style c.defaultStyle type c.guides >>= _) = _
  rw [hresolve]
  show (Sheet.orInvalid (worksOf spec) >>= _) = _
  rw [hworks]
  show (Sheet.orInvalid (c.dateOf spec) >>= _) = _
  rw [hdate]
  rfl

/-- What was prepared behind the gate is processed if the check of the order passes. -/
theorem succeeds_process_iff (hgate : gate spec = .ok ()) (hprepare : c.prepare spec = .ok p) :
    Succeeds (c.process spec).1
      ↔ checkOrder (partsFor spec p) p.sheet (!(contentOf spec p).notes.isEmpty) = .ok () := by
  have hcheck : checkOrder (p.sheet.partsOf (materialOf spec (contentOf spec p) p.works)) p.sheet
      (materialOf spec (contentOf spec p) p.works).hasNotes =
        checkOrder (partsFor spec p) p.sheet (!(contentOf spec p).notes.isEmpty) := rfl
  unfold process
  rw [hgate, hprepare]
  dsimp only
  rw [hcheck]
  cases checkOrder (partsFor spec p) p.sheet (!(contentOf spec p).notes.isEmpty) with
  | error e =>
    constructor
    · rintro ⟨_, h⟩
      cases h
    · intro h
      cases h
  | ok _ => exact ⟨fun _ => rfl, fun _ => ⟨_, rfl⟩⟩

/-- The sections of every document are in order, and a specification that passes the gate and whose
style sheet can be made is processed if and only if its endnotes are in place. -/
theorem process_ordered (c : Compiler) (spec : Specification) :
    (∀ doc warnings, c.process spec = (.ok doc, warnings) →
      ∃ p, c.prepare spec = .ok p ∧ Ordered spec p doc)
    ∧ ∀ sheet, gate spec = .ok () → c.sheetOf spec = .ok sheet →
      ∃ p, c.prepare spec = .ok p ∧ p.sheet = sheet
        ∧ (Succeeds (c.process spec).1
          ↔ EndnotesInPlace sheet (partsFor spec p) (contentOf spec p).notes) := by
  constructor
  · intro doc warnings h
    obtain ⟨p, hp⟩ := processed_of_ok h
    exact ⟨p, hp.prepare, hp.ordered⟩
  · intro sheet hgate hsheet
    have hcheck := check_of_gate hgate
    obtain ⟨p, hprepare, rfl⟩ := prepare_of_sheetOf hcheck hsheet
    refine ⟨p, hprepare, rfl, ?_⟩
    rw [succeeds_process_iff hgate hprepare, checkOrder_iff (once_partsFor hcheck hprepare)]

/-- The annotated essay with its abstract declared behind the endnotes. -/
def misplacedEssay : Specification :=
  { annotatedEssay with
    style := some
      { base := some ⟨"MLA9", ⟨15, 8⟩⟩, position := ⟨15, 1⟩
        parts := some ⟨[⟨"endnotes", ⟨16, 17⟩⟩, ⟨"abstract", ⟨16, 27⟩⟩], ⟨16, 5⟩⟩ } }

/-- The sections of the annotated essay are in order; with the abstract behind the endnotes it is
not processed, and the endnotes are not in place. -/
theorem process_ordered_annotatedEssay :
    (∃ doc warnings p, process { today := ⟨2024, 1, 1⟩ } annotatedEssay = (.ok doc, warnings)
      ∧ prepare { today := ⟨2024, 1, 1⟩ } annotatedEssay = .ok p ∧ Ordered annotatedEssay p doc)
    ∧ ∃ sheet p, gate misplacedEssay = .ok ()
      ∧ sheetOf { today := ⟨2024, 1, 1⟩ } misplacedEssay = .ok sheet
      ∧ prepare { today := ⟨2024, 1, 1⟩ } misplacedEssay = .ok p
      ∧ ¬ EndnotesInPlace sheet (partsFor misplacedEssay p) (contentOf misplacedEssay p).notes := by
  constructor
  · have hok : (process { today := ⟨2024, 1, 1⟩ } annotatedEssay).1.isOk = true := by decide +kernel
    cases h : process { today := ⟨2024, 1, 1⟩ } annotatedEssay with
    | mk outcome warnings =>
      rw [h] at hok
      cases outcome with
      | error e => cases hok
      | ok doc =>
        obtain ⟨p, hprepare, hordered⟩ := (process_ordered _ _).1 doc warnings h
        exact ⟨doc, warnings, p, rfl, hprepare, hordered⟩
  · have hgate : gate misplacedEssay = .ok () := ok_of_isOk (by decide +kernel)
    have hok : (sheetOf { today := ⟨2024, 1, 1⟩ } misplacedEssay).isOk = true := by decide +kernel
    have hfails : (process { today := ⟨2024, 1, 1⟩ } misplacedEssay).1.isOk = false := by
      decide +kernel
    cases hsheet : sheetOf { today := ⟨2024, 1, 1⟩ } misplacedEssay with
    | error e =>
      rw [hsheet] at hok
      cases hok
    | ok sheet =>
      obtain ⟨p, hprepare, -, hiff⟩ := (process_ordered _ _).2 sheet hgate hsheet
      refine ⟨sheet, p, hgate, rfl, hprepare, ?_⟩
      intro hplace
      obtain ⟨doc, hdoc⟩ := hiff.mpr hplace
      rw [hdoc] at hfails
      cases hfails

end Compiler

end Manuscript
