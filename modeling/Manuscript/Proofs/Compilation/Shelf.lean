import Mathlib.Data.List.Pairwise
import Manuscript.Proofs.Validation.Coverage

/-!
# Sources, works and ids

A source is known by its id in three places: when citations are checked, as a work, and on the shelf
that citations are looked up on. Ids differ in a bibliography that passed its check, so that the
three agree.

* `nodup_citedAs`: no two sources of a checked specification have one id.
* `shelf_find`: on the shelf of a checked specification, the id of a source leads to its work.
* `Setting.Agrees.setElements_eq`: content is set alike where citations find the same works.
-/

namespace Manuscript

/-! ## Works of sources -/

/-- What a list of computations gave is what its members gave. -/
theorem mem_of_mapM_ok {ε α β : Type} {f : α → Except ε β} {as : List α} {bs : List β}
    (h : as.mapM f = .ok bs) :
    (∀ a ∈ as, ∃ b ∈ bs, f a = .ok b) ∧ ∀ b ∈ bs, ∃ a ∈ as, f a = .ok b := by
  induction mapM_ok_iff.mp h with
  | nil => simp
  | @cons a b as bs hb hrest ih =>
    obtain ⟨hto, hfrom⟩ := ih (mapM_ok_iff.mpr hrest)
    constructor
    · intro x hx
      rcases List.mem_cons.mp hx with rfl | hx
      · exact ⟨b, List.mem_cons_self, hb⟩
      · obtain ⟨y, hy, hxy⟩ := hto x hx
        exact ⟨y, List.mem_cons_of_mem b hy, hxy⟩
    · intro y hy
      rcases List.mem_cons.mp hy with rfl | hy
      · exact ⟨a, List.mem_cons_self, hb⟩
      · obtain ⟨x, hx, hxy⟩ := hfrom y hy
        exact ⟨x, List.mem_cons_of_mem a hx, hxy⟩

/-- A work is cited by the id of its source. -/
theorem id_ofSource {s : Source} {w : Work} (h : Work.ofSource s = .ok w) : w.id = s.citedAs := by
  unfold Work.ofSource at h
  obtain ⟨_, -, h⟩ := of_bind_ok h
  obtain ⟨_, -, h⟩ := of_bind_ok h
  cases h
  rfl

/-! ## Ids -/

/-- An id was not seen if it is not the one seen last and was not seen before. -/
theorem lookup_cons_eq_none_iff {seen : List (String × Position)} {id key : String}
    {p : Position} :
    ((key, p) :: seen).lookup id = none ↔ id ≠ key ∧ seen.lookup id = none := by
  rw [List.lookup_eq_none_iff, List.lookup_eq_none_iff, List.forall_mem_cons]
  simp

/-- Ids are found to differ if they do and none of them was seen before. -/
theorem checkIdsOnce_ok_iff {seen : List (String × Position)} {sources : List Source} :
    checkIdsOnce seen sources = .ok () ↔
      (sources.filterMap Source.citedAs).Nodup
        ∧ ∀ id ∈ sources.filterMap Source.citedAs, seen.lookup id = none := by
  induction sources generalizing seen with
  | nil => exact iff_of_true rfl ⟨List.nodup_nil, fun _ hmem => absurd hmem List.not_mem_nil⟩
  | cons s rest ih =>
    unfold checkIdsOnce
    cases hid : s.id with
    | none =>
      have hs : s.citedAs = none := by
        unfold Source.citedAs
        rw [hid]
        rfl
      rw [List.filterMap_cons_none hs]
      exact ih
    | some l =>
      have hs : s.citedAs = some l.trimmed := by
        unfold Source.citedAs
        rw [hid]
        rfl
      rw [List.filterMap_cons_some hs]
      dsimp only
      cases hseen : seen.lookup l.trimmed with
      | some first =>
        apply iff_of_false nofun
        intro h
        rw [h.2 l.trimmed List.mem_cons_self] at hseen
        cases hseen
      | none =>
        dsimp only
        rw [ih, List.nodup_cons]
        simp only [lookup_cons_eq_none_iff]
        constructor
        · rintro ⟨hnodup, hnew⟩
          have hfresh : l.trimmed ∉ rest.filterMap Source.citedAs :=
            fun hmem => (hnew l.trimmed hmem).1 rfl
          have hrest : ∀ id ∈ rest.filterMap Source.citedAs, seen.lookup id = none :=
            fun id hmem => (hnew id hmem).2
          exact ⟨⟨hfresh, hnodup⟩, List.forall_mem_cons.mpr ⟨hseen, hrest⟩⟩
        · rintro ⟨⟨hfresh, hnodup⟩, hnew⟩
          refine ⟨hnodup, ?_⟩
          intro id hmem
          refine ⟨?_, hnew id (List.mem_cons_of_mem _ hmem)⟩
          rintro rfl
          exact hfresh hmem

/-- Things whose ids differ are told apart by them. -/
theorem eq_of_nodup_filterMap {α β : Type} {id? : α → Option β} {as : List α}
    (h : (as.filterMap id?).Nodup) {a b : α} (ha : a ∈ as) (hb : b ∈ as) {id : β}
    (haid : id? a = some id) (hbid : id? b = some id) : a = b := by
  have hsymm : Std.Symm fun a b => ∀ x, id? a = some x → ∀ y, id? b = some y → x ≠ y :=
    ⟨fun _ _ hdiffer y hy x hx => (hdiffer x hx y hy).symm⟩
  have hdiffer := List.pairwise_filterMap.mp h
  by_contra hne
  exact hdiffer.forall ha hb hne id haid id hbid rfl

namespace Specification

/-- The sources of a specification. -/
def sources (spec : Specification) : List Source := spec.bibliography.elim [] Bibliography.sources

/-- The source that citations with an id mean. -/
def sourceOf? (spec : Specification) (id : String) : Option Source :=
  spec.bibliography.bind fun b => b.find? id

/-- The source with an id is one of the sources, and has it. -/
theorem of_sourceOf {spec : Specification} {id : String} {s : Source}
    (h : spec.sourceOf? id = some s) : s ∈ spec.sources ∧ s.citedAs = some id := by
  unfold sourceOf? at h
  obtain ⟨b, hb, h⟩ := Option.bind_eq_some_iff.mp h
  unfold Bibliography.find? at h
  unfold sources
  rw [hb]
  exact ⟨List.mem_of_find?_eq_some h, by simpa using List.find?_some h⟩

/-- A source is known by an id if citations with the id mean one. -/
theorem knowsSource_iff (spec : Specification) (id : String) :
    spec.knowsSource id = true ↔ ∃ s, spec.sourceOf? id = some s := by
  unfold knowsSource sourceOf?
  cases spec.bibliography with
  | none => simp
  | some b => simp [Option.isSome_iff_exists]

/-- No two sources of a checked specification have one id. -/
theorem nodup_citedAs {spec : Specification} (h : spec.check = .ok ()) :
    (spec.sources.filterMap Source.citedAs).Nodup := by
  have hbibliography := (passed_of_check h).bibliography
  unfold sources
  cases hb : spec.bibliography with
  | none => exact List.nodup_nil
  | some b =>
    have hids := (of_seq_ok (of_checkBlock hbibliography b hb)).2
    exact (checkIdsOnce_ok_iff.mp hids).1

end Specification

/-! ## The shelf -/

/-- The shelf of some works has the works with an id, under their ids. -/
theorem mem_shelf {works : List Work} {id : String} {w : Work} :
    (id, w) ∈ (Shelf.ofWorks works).works ↔ w ∈ works ∧ w.id = some id := by
  unfold Shelf.ofWorks
  rw [List.mem_reverse, List.mem_filterMap]
  constructor
  · rintro ⟨v, hv, h⟩
    obtain ⟨x, hx, heq⟩ := Option.map_eq_some_iff.mp h
    cases heq
    exact ⟨hv, hx⟩
  · rintro ⟨hw, hid⟩
    exact ⟨w, hw, by rw [hid]; rfl⟩

/-- The shelf has a work under the id of each of its works. -/
theorem find_of_mem {works : List Work} {id : String} {w : Work} (hw : w ∈ works)
    (hid : w.id = some id) : ∃ v, (Shelf.ofWorks works).find? id = some v := by
  have hmem : (id, w) ∈ (Shelf.ofWorks works).works := mem_shelf.mpr ⟨hw, hid⟩
  have hsome : ((Shelf.ofWorks works).works.lookup id).isSome = true :=
    List.lookup_isSome_iff.mpr ⟨_, hmem, beq_self_eq_true id⟩
  exact Option.isSome_iff_exists.mp hsome

/-- What the shelf has under an id is one of its works, and has the id. -/
theorem of_find {works : List Work} {id : String} {w : Work}
    (h : (Shelf.ofWorks works).find? id = some w) : w ∈ works ∧ w.id = some id := by
  obtain ⟨before, behind, heq, -⟩ := List.lookup_eq_some_iff.mp h
  apply mem_shelf.mp
  rw [heq]
  simp

/-- On the shelf of a checked specification, the id of a source leads to its work. -/
theorem shelf_find {spec : Specification} (h : spec.check = .ok ()) {works : List Work}
    (hworks : Compiler.worksOf spec = .ok works) {id : String} {s : Source}
    (hs : spec.sourceOf? id = some s) :
    ∃ w, Work.ofSource s = .ok w ∧ (Shelf.ofWorks works).find? id = some w := by
  obtain ⟨hmem, hid⟩ := Specification.of_sourceOf hs
  have hmap : spec.sources.mapM Work.ofSource = .ok works := hworks
  obtain ⟨hto, hfrom⟩ := mem_of_mapM_ok hmap
  obtain ⟨w, hw, hsw⟩ := hto s hmem
  obtain ⟨v, hv⟩ := find_of_mem hw ((id_ofSource hsw).trans hid)
  -- what is found is the work of a source with this id, and there is only one such source
  obtain ⟨hvmem, hvid⟩ := of_find hv
  obtain ⟨t, ht, htv⟩ := hfrom v hvmem
  have htid : t.citedAs = some id := (id_ofSource htv).symm.trans hvid
  have hts : t = s :=
    eq_of_nodup_filterMap (Specification.nodup_citedAs h) ht hmem htid hid
  exact ⟨v, hts ▸ htv, hv⟩

/-! ## Settings that agree -/

/-- Two settings have one style sheet, and citations find the same works in both. -/
structure Setting.Agrees (s t : Setting) : Prop where
  sheet : t.sheet = s.sheet
  find : ∀ id, t.shelf.find? id = s.shelf.find? id

namespace Setting.Agrees

variable {s t : Setting} (h : s.Agrees t)

include h

/-- The setting of a run depends on nothing else. -/
theorem setRun_eq (n : Nat) (r : Run) : t.setRun n r = s.setRun n r := by
  have hnote : t.note = s.note := by
    funext number text
    unfold note
    rw [h.sheet]
  cases r <;> simp only [setRun, h.sheet, h.find, hnote]

theorem setRuns_eq (n : Nat) (runs : List Run) : t.setRuns n runs = s.setRuns n runs := by
  induction runs generalizing n with
  | nil => rfl
  | cons r rest ih =>
    unfold setRuns
    dsimp only
    rw [h.setRun_eq, ih]

theorem setSentences_eq (n : Nat) (sentences : List Sentence) :
    t.setSentences n sentences = s.setSentences n sentences := by
  induction sentences generalizing n with
  | nil => rfl
  | cons sentence rest ih =>
    unfold setSentences
    dsimp only
    rw [h.setRuns_eq, ih]

theorem setBlock_eq (n : Nat) (b : ContentBlock) : t.setBlock n b = s.setBlock n b := by
  unfold setBlock
  rw [h.setSentences_eq, h.sheet]

/-- Header elements show the header lines besides. -/
theorem setElement_eq (hlines : t.headerLines = s.headerLines) (n : Nat) (e : Element) :
    t.setElement n e = s.setElement n e := by
  cases e with
  | content b => exact h.setBlock_eq n b
  | _ => simp only [setElement, placeImage, h.sheet, hlines]

theorem setElements_eq (hlines : t.headerLines = s.headerLines) (n : Nat) (es : List Element) :
    t.setElements n es = s.setElements n es := by
  induction es generalizing n with
  | nil => rfl
  | cons e rest ih =>
    unfold setElements
    dsimp only
    rw [h.setElement_eq hlines, ih]

end Setting.Agrees

end Manuscript
