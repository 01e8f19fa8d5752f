import Manuscript.Proofs.Compilation.Parts

/-!
# What the built sections hold

The sections of a document are built in the order of its outline, and each takes what it shows out
of the supply. A section takes nothing that belongs to a section of another kind, so that the only
section of a kind gets all that was set for it, whatever is built before it.

* `outline_assemble`: the sections of a document are those of its outline.
* `blocks_build_of_ne`: a section leaves the content of the other kinds alone.
* `blocksOf_assemble`: the section of a kind that stands once holds what was set for it.
* `all_assemble`: what every block that was set is, every block of the document is.
-/

namespace Manuscript

/-- The block is a note. -/
def Block.isNote : Block → Bool
  | note _ _ => true
  | _ => false

/-- The section is of a kind. -/
def Section.isOf (kind : SectionKind) (s : Section) : Bool := s.kind == kind

@[simp] theorem Section.isOf_iff {kind : SectionKind} {s : Section} :
    s.isOf kind = true ↔ s.kind = kind := beq_iff_eq

/-- The blocks of the sections of a kind, section by section. -/
def Document.blocksOf (d : Document) (kind : SectionKind) : List (List Block) :=
  (d.sections.filter (Section.isOf kind)).map (·.blocks)

/-! ## The supply -/

/-- The blocks that wait for a part. -/
def Supply.blocksFor (supply : Supply) (part : Part) : List Block :=
  supply.placed.filterMap fun (p, block) => if p = part then some block else none

namespace Plan

variable (plan : Plan) (supply : Supply)

/-- A section is of the kind that was asked for. -/
theorem kind_build (kind : SectionKind) : (plan.build supply kind).1.kind = kind := by
  cases kind <;> rfl

/-- Blocks that wait for one part are left where those of another part are taken out. -/
theorem blocksFor_without {part other : Part} (h : part ≠ other) :
    Supply.blocksFor { supply with placed := supply.placed.filter fun (p, _) => p != part } other
      = supply.blocksFor other := by
  unfold Supply.blocksFor
  rw [List.filterMap_filter]
  apply List.filterMap_congr
  intro x _
  by_cases hx : x.1 = part
  · have hother : x.1 ≠ other := by
      rw [hx]
      exact h
    simp [hother]
  · simp [hx]

/-- Taking out the blocks of a part leaves those of the other parts. -/
theorem blocksFor_blocksOf {part other : Part} (h : part ≠ other) :
    (plan.blocksOf supply part).2.blocksFor other = supply.blocksFor other := by
  unfold blocksOf
  split
  · rfl
  · rfl
  · rfl
  · rfl
  · exact blocksFor_without supply h

/-- Only the endnotes take out the notes. -/
theorem notes_blocksOf {part : Part} (h : part ≠ .endnotes) :
    (plan.blocksOf supply part).2.notes = supply.notes := by
  unfold blocksOf
  split
  · rfl
  · exact absurd rfl h
  · rfl
  · rfl
  · rfl

/-- Only the bibliography takes out the entries. -/
theorem entries_blocksOf {part : Part} (h : part ≠ .bibliography) :
    (plan.blocksOf supply part).2.entries = supply.entries := by
  unfold blocksOf
  split
  · rfl
  · rfl
  · exact absurd rfl h
  · rfl
  · rfl

/-- No part takes out the body. -/
theorem body_blocksOf (part : Part) : (plan.blocksOf supply part).2.body = supply.body := by
  unfold blocksOf
  split <;> rfl

/-- The blocks of a part are made of what the supply has for it, and of nothing else that the supply
has. -/
theorem blocksOf_congr {part : Part} {s t : Supply} (hplaced : s.blocksFor part = t.blocksFor part)
    (hnotes : part = .endnotes → s.notes = t.notes)
    (hentries : part = .bibliography → s.entries = t.entries) :
    (plan.blocksOf s part).1 = (plan.blocksOf t part).1 := by
  unfold blocksOf
  split
  · rfl
  · exact hnotes rfl
  · exact congrArg (List.map Block.entry) (hentries rfl)
  · rfl
  · exact hplaced

/-- A section leaves what waits for the sections of other kinds. -/
theorem blocks_build_of_ne {kind other : SectionKind} (h : kind ≠ other) :
    (plan.build (plan.build supply kind).2 other).1.blocks
      = (plan.build supply other).1.blocks := by
  cases other with
  | body =>
    cases kind with
    | body => exact absurd rfl h
    | part p => exact body_blocksOf plan supply p
  | part p =>
    cases kind with
    | body => exact blocksOf_congr plan rfl (fun _ => rfl) fun _ => rfl
    | part q =>
      have hne : q ≠ p := fun hqp => h (congrArg SectionKind.part hqp)
      apply blocksOf_congr plan (blocksFor_blocksOf plan supply hne)
      · intro hp
        exact notes_blocksOf plan supply (hp ▸ hne)
      · intro hp
        exact entries_blocksOf plan supply (hp ▸ hne)

/-! ## All sections -/

/-- There is one section for each kind of an outline. -/
theorem kinds_sections (kinds : List SectionKind) :
    (plan.sections supply kinds).map Section.kind = kinds := by
  induction kinds generalizing supply with
  | nil => rfl
  | cons kind rest ih =>
    show (plan.build supply kind).1.kind
      :: (plan.sections (plan.build supply kind).2 rest).map Section.kind = _
    rw [kind_build, ih]

/-- There are no sections of a kind that the outline does not have. -/
theorem sections_of_not_mem {kind : SectionKind} {kinds : List SectionKind} (h : kind ∉ kinds) :
    (plan.sections supply kinds).filter (Section.isOf kind) = [] := by
  apply List.filter_eq_nil_iff.mpr
  intro s hs hkind
  have hmem : s.kind ∈ (plan.sections supply kinds).map Section.kind := List.mem_map_of_mem hs
  rw [kinds_sections, Section.isOf_iff.mp hkind] at hmem
  exact h hmem

/-- The section of a kind that stands once in an outline gets the blocks that it would get if it was
built first. -/
theorem blocks_sections {kind : SectionKind} {kinds : List SectionKind} (hmem : kind ∈ kinds)
    (honce : kinds.count kind ≤ 1) :
    ((plan.sections supply kinds).filter (Section.isOf kind)).map (·.blocks)
      = [(plan.build supply kind).1.blocks] := by
  induction kinds generalizing supply with
  | nil => cases hmem
  | cons first rest ih =>
    show (((plan.build supply first).1 :: plan.sections (plan.build supply first).2 rest).filter
      (Section.isOf kind)).map (·.blocks) = _
    by_cases hfirst : first = kind
    · -- the first section is the one of this kind, and none of the others is
      have hnot : kind ∉ rest := by
        rw [← List.count_eq_zero]
        rw [hfirst, List.count_cons_self] at honce
        omega
      have hkind : (plan.build supply first).1.isOf kind = true := by
        rw [Section.isOf_iff, kind_build, hfirst]
      rw [List.filter_cons_of_pos hkind, sections_of_not_mem plan _ hnot, hfirst]
      rfl
    · have hkind : ¬ (plan.build supply first).1.isOf kind = true := by
        rw [Section.isOf_iff, kind_build]
        exact hfirst
      have hrest : kind ∈ rest := (List.mem_cons.mp hmem).resolve_left fun h => hfirst h.symm
      have hcount : rest.count kind ≤ 1 := by
        rw [List.count_cons_of_ne hfirst] at honce
        exact honce
      rw [List.filter_cons_of_neg hkind, ih _ hrest hcount, blocks_build_of_ne plan supply hfirst]

end Plan

/-! ## The table of contents -/

/-- Filling in the table of contents does not change which sections there are. -/
theorem kinds_fillContents (ss : List Section) :
    (fillContents ss).map Section.kind = ss.map Section.kind := by
  induction ss with
  | nil => rfl
  | cons s rest ih =>
    unfold fillContents
    by_cases hs : s.kind = .part .tableOfContents
    · rw [if_pos hs]
      rfl
    · rw [if_neg hs, List.map_cons, List.map_cons, ih]

/-- Filling in the table of contents leaves all other sections as they are. -/
theorem filter_fillContents (ss : List Section) {kind : SectionKind}
    (h : kind ≠ .part .tableOfContents) :
    (fillContents ss).filter (Section.isOf kind) = ss.filter (Section.isOf kind) := by
  induction ss with
  | nil => rfl
  | cons s rest ih =>
    unfold fillContents
    by_cases hs : s.kind = .part .tableOfContents
    · have hkind : ∀ blocks, ¬ Section.isOf kind { s with blocks := blocks } = true := by
        intro blocks
        rw [Section.isOf_iff]
        exact fun hkind => h (hkind.symm.trans hs)
      rw [if_pos hs, List.filter_cons_of_neg (hkind _), List.filter_cons_of_neg (hkind _)]
    · rw [if_neg hs, List.filter_cons, List.filter_cons, ih]

/-- The table of contents is made of lines. -/
theorem forall_contentsLines {P : Block → Prop} (hline : ∀ text, P (.line text)) (s : Section) :
    ∀ block ∈ contentsLines s, P block := by
  intro block hmem
  unfold contentsLines at hmem
  rcases List.mem_append.mp hmem with hmem | hmem
  · obtain ⟨text, -, rfl⟩ := List.mem_map.mp hmem
    exact hline text
  · split at hmem
    · obtain ⟨source, -, hsource⟩ := List.mem_filterMap.mp hmem
      cases source <;> cases hsource
      exact hline _
    · cases hmem

/-- Filling in the table of contents adds nothing but lines to any section. -/
theorem forall_fillContents {P : Block → Prop} (hline : ∀ text, P (.line text))
    {ss : List Section} (h : ∀ s ∈ ss, ∀ block ∈ s.blocks, P block) :
    ∀ s ∈ fillContents ss, ∀ block ∈ s.blocks, P block := by
  induction ss with
  | nil => exact fun s hs => absurd hs List.not_mem_nil
  | cons first rest ih =>
    intro s hs
    unfold fillContents at hs
    by_cases hfirst : first.kind = .part .tableOfContents
    · rw [if_pos hfirst] at hs
      rcases List.mem_cons.mp hs with rfl | hs
      · intro block hmem
        obtain ⟨other, -, hother⟩ := List.mem_flatMap.mp hmem
        exact forall_contentsLines hline other block hother
      · exact h s (List.mem_cons_of_mem first hs)
    · rw [if_neg hfirst] at hs
      rcases List.mem_cons.mp hs with rfl | hs
      · exact h s List.mem_cons_self
      · exact ih (fun t ht => h t (List.mem_cons_of_mem first ht)) s hs

/-! ## What every block is -/

/-- Every block of the supply has a property. -/
structure Supply.All (P : Block → Prop) (supply : Supply) : Prop where
  body : ∀ block ∈ supply.body, P block
  placed : ∀ x ∈ supply.placed, P x.2
  notes : ∀ block ∈ supply.notes, P block
  entries : ∀ entry ∈ supply.entries, P (.entry entry)

/-- The supply has no notes, neither as such nor among the other blocks. -/
structure Supply.NoNotes (supply : Supply) : Prop where
  notes : supply.notes = []
  body : ∀ block ∈ supply.body, block.isNote = false
  placed : ∀ x ∈ supply.placed, x.2.isNote = false

theorem forall_lines {P : Block → Prop} (hline : ∀ text, P (.line text)) (texts : List String) :
    ∀ block ∈ texts.map Block.line, P block := by
  intro block hmem
  obtain ⟨text, -, rfl⟩ := List.mem_map.mp hmem
  exact hline text

namespace Plan

variable (plan : Plan) {supply : Supply} {P : Block → Prop}

/-- A part shows blocks of the supply, lines and the declaration of integrity, and leaves the other
blocks of the supply. -/
theorem all_blocksOf (hline : ∀ text, P (.line text))
    (hintegrity : ∀ block ∈ integrityBlocks plan.sheet plan.metadata, P block) (h : supply.All P)
    (part : Part) :
    (∀ block ∈ (plan.blocksOf supply part).1, P block) ∧ (plan.blocksOf supply part).2.All P := by
  unfold blocksOf
  split
  · exact ⟨forall_lines hline _, h⟩
  · exact ⟨h.notes, h.body, h.placed, fun _ hmem => absurd hmem List.not_mem_nil, h.entries⟩
  · refine ⟨?_, h.body, h.placed, h.notes, fun _ hmem => absurd hmem List.not_mem_nil⟩
    intro block hmem
    obtain ⟨entry, hentry, rfl⟩ := List.mem_map.mp hmem
    exact h.entries entry hentry
  · exact ⟨hintegrity, h⟩
  · refine ⟨?_, h.body, fun x hx => h.placed x (List.mem_of_mem_filter hx), h.notes, h.entries⟩
    intro block hmem
    obtain ⟨x, hx, hblock⟩ := List.mem_filterMap.mp hmem
    dsimp only at hblock
    split_ifs at hblock
    cases hblock
    exact h.placed x hx

/-- What every block of the supply is, every block of the sections is, if lines and the declaration
of integrity are. -/
theorem all_sections (hline : ∀ text, P (.line text))
    (hintegrity : ∀ block ∈ integrityBlocks plan.sheet plan.metadata, P block) (h : supply.All P)
    (kinds : List SectionKind) :
    ∀ s ∈ plan.sections supply kinds, ∀ block ∈ s.blocks, P block := by
  induction kinds generalizing supply with
  | nil => exact fun s hs => absurd hs List.not_mem_nil
  | cons kind rest ih =>
    have hbuild : (∀ block ∈ (plan.build supply kind).1.blocks, P block)
        ∧ (plan.build supply kind).2.All P := by
      cases kind with
      | body =>
        exact ⟨h.body, fun _ hmem => absurd hmem List.not_mem_nil, h.placed, h.notes, h.entries⟩
      | part part => exact plan.all_blocksOf hline hintegrity h part
    intro s hs
    rcases List.mem_cons.mp hs with rfl | hs
    · exact hbuild.1
    · exact ih hbuild.2 s hs

end Plan

/-! ## The document -/

namespace Compiler

variable (spec : Specification) (p : Preparation) (content : SetContent) (parts : List Part)

/-- What is handed out to the sections of a document. -/
def supplyOf : Supply :=
  { body := content.body, placed := content.placed, notes := content.notes
    entries := Entry.sort (p.works.map (Entry.ofWork p.sheet.citation)) }

/-- What the sections of a document are built from besides its supply. -/
def planOf : Plan :=
  { spec, sheet := p.sheet, metadata := p.metadata, hasTitlePage := parts.contains .titlePage }

theorem sections_assemble : (assemble spec p content parts).sections
    = fillContents ((planOf spec p parts).sections (supplyOf p content) (outlineOf parts)) := rfl

/-- The sections of a document are those of its outline. -/
theorem outline_assemble : (assemble spec p content parts).outline = outlineOf parts := by
  unfold Document.outline
  rw [sections_assemble, kinds_fillContents, Plan.kinds_sections]

/-- The section of a kind that stands once in the outline holds what was set for it. -/
theorem blocksOf_assemble {kind : SectionKind} (hne : kind ≠ .part .tableOfContents)
    (hmem : kind ∈ outlineOf parts) (honce : (outlineOf parts).count kind ≤ 1) :
    (assemble spec p content parts).blocksOf kind
      = [((planOf spec p parts).build (supplyOf p content) kind).1.blocks] := by
  unfold Document.blocksOf
  rw [sections_assemble, filter_fillContents _ hne, Plan.blocks_sections _ _ hmem honce]

/-- What every block of the supply is, every block of the document is, if lines and the declaration
of integrity are. -/
theorem all_assemble {P : Block → Prop} (hline : ∀ text, P (.line text))
    (hintegrity : ∀ block ∈ integrityBlocks p.sheet p.metadata, P block)
    (h : (supplyOf p content).All P) :
    ∀ s ∈ (assemble spec p content parts).sections, ∀ block ∈ s.blocks, P block := by
  rw [sections_assemble]
  exact forall_fillContents hline ((planOf spec p parts).all_sections hline hintegrity h _)

/-- Where no notes were set, no section of the document shows one. -/
theorem noNotes_assemble (h : (supplyOf p content).NoNotes) :
    ∀ s ∈ (assemble spec p content parts).sections, ∀ block ∈ s.blocks, block.isNote = false := by
  have hnotes : ∀ block ∈ (supplyOf p content).notes, block.isNote = false := by
    rw [h.notes]
    exact fun _ hmem => absurd hmem List.not_mem_nil
  have hintegrity : ∀ block ∈ integrityBlocks p.sheet p.metadata, block.isNote = false :=
    List.forall_mem_cons.mpr ⟨rfl, forall_lines (fun _ => rfl) _⟩
  exact all_assemble spec p content parts (fun _ => rfl) hintegrity
    ⟨h.body, h.placed, hnotes, fun _ _ => rfl⟩

/-! ## Processed specifications -/

variable {c : Compiler} {spec : Specification} {p : Preparation}

/-- The parts of the document of a specification. -/
def partsFor (spec : Specification) (p : Preparation) : List Part :=
  p.sheet.partsOf (materialOf spec (contentOf spec p) p.works)

/-- A specification that passed the gate passed its check. -/
theorem check_of_gate (h : gate spec = .ok ()) : spec.check = .ok () := by
  have hlast : Sheet.orInvalid spec.check = .ok () := by
    unfold gate at h
    cases hversion : spec.version with
    | none =>
      rw [hversion] at h
      exact h
    | some l =>
      rw [hversion] at h
      exact (of_seq_ok h).2
  cases hcheck : spec.check with
  | error e =>
    rw [hcheck] at hlast
    cases hlast
  | ok _ => rfl

/-- The style sheet of a document: its type is read first. -/
def sheetOf (c : Compiler) (spec : Specification) : Except Failure Sheet := do
  let type ← Sheet.orInvalid spec.readDocumentType
  Sheet.resolve spec.style c.defaultStyle type c.guides

/-- What was prepared has the style sheet of the document. -/
theorem sheetOf_of_prepare (h : c.prepare spec = .ok p) : c.sheetOf spec = .ok p.sheet := by
  unfold prepare at h
  obtain ⟨type, htype, h⟩ := of_bind_ok h
  obtain ⟨sheet, hsheet, h⟩ := of_bind_ok h
  obtain ⟨works, -, h⟩ := of_bind_ok h
  obtain ⟨date, -, h⟩ := of_bind_ok h
  cases h
  unfold sheetOf
  rw [htype]
  exact hsheet

/-- The parts of a specification that passed its check stand once. -/
theorem once_partsFor (hcheck : spec.check = .ok ()) (hprepare : c.prepare spec = .ok p) :
    PartsOnce (partsFor spec p) := by
  obtain ⟨type, -, hresolve⟩ := of_bind_ok (sheetOf_of_prepare hprepare)
  obtain ⟨-, hparts⟩ := Sheet.frame_of_resolve hresolve
  apply Sheet.once_partsOf
  intro parts hmem
  cases hlist : spec.style.bind (·.parts) with
  | none =>
    rw [hlist] at hparts
    rw [hparts] at hmem
    cases hmem
  | some list =>
    rw [hlist] at hparts
    obtain ⟨read, hread, hset⟩ := hparts
    rw [hset] at hmem
    cases hmem
    obtain ⟨style, hstyle, hdeclared⟩ := Option.bind_eq_some_iff.mp hlist
    have hpassed := of_checkBlock (passed_of_check hcheck).style style hstyle
    obtain ⟨-, hpassed⟩ := of_seq_ok hpassed
    obtain ⟨-, hpassed⟩ := of_seq_ok hpassed
    obtain ⟨-, hpassed⟩ := of_seq_ok hpassed
    obtain ⟨-, hpassed⟩ := of_seq_ok hpassed
    obtain ⟨-, hpassed⟩ := of_seq_ok hpassed
    obtain ⟨hpassed, -⟩ := of_seq_ok hpassed
    exact PartList.once_of_check (of_checkBlock hpassed list hdeclared) hread

/-- How a document and the warnings about it come from a specification that was prepared. -/
structure Processed (c : Compiler) (spec : Specification) (p : Preparation) (doc : Document)
    (warnings : List Warning) : Prop where
  check : spec.check = .ok ()
  prepare : c.prepare spec = .ok p
  order : checkOrder (partsFor spec p) p.sheet (!(contentOf spec p).notes.isEmpty) = .ok ()
  document : doc = assemble spec p (contentOf spec p) (partsFor spec p)
  warned : ∀ w ∈ partFindings spec p.sheet (partsFor spec p)
    (materialOf spec (contentOf spec p) p.works), w ∈ warnings

/-- Every document comes about in this way. -/
theorem processed_of_ok {doc : Document} {warnings : List Warning}
    (h : c.process spec = (.ok doc, warnings)) : ∃ p, Processed c spec p doc warnings := by
  unfold process at h
  cases hgate : gate spec with
  | error e =>
    rw [hgate] at h
    cases h
  | ok _ =>
    rw [hgate] at h
    dsimp only at h
    cases hprepare : c.prepare spec with
    | error e =>
      rw [hprepare] at h
      cases h
    | ok p =>
      rw [hprepare] at h
      dsimp only at h
      split at h
      · cases h
      · rename_i horder
        cases h
        refine ⟨p, check_of_gate hgate, hprepare, horder, rfl, ?_⟩
        intro w hw
        exact List.mem_append_left _ (List.mem_append_right _ hw)

end Compiler

end Manuscript
