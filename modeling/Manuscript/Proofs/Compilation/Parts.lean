import Mathlib.Data.List.Count
import Mathlib.Data.List.Nodup
import Manuscript.Proofs.Style.Resolution

/-!
# The parts of a document

The parts of a document are those that its style section declares, or those of its guide that there
is material for. Either way no part but a blank page stands twice, and the body finds its place
among them.

* `frame_of_resolve`: the guide and the parts of a style sheet are the declared ones.
* `once_partsOf`: no part of a checked document stands twice.
* `outlineOf_eq`: the body stands between the front matter and the back matter.
-/

namespace Manuscript

/-! ## Parts that stand once -/

/-- The parts that may not be repeated, in order. -/
def singleParts (parts : List Part) : List Part := parts.filter fun part => !part.isRepeatable

/-- No part stands twice, unless it may be repeated. -/
def PartsOnce (parts : List Part) : Prop := (singleParts parts).Nodup

/-- Only blank pages may be repeated. -/
theorem isRepeatable_iff (part : Part) : part.isRepeatable = true ↔ part = .blankPage := by
  cases part <;> decide

theorem PartsOnce.count_le {parts : List Part} (h : PartsOnce parts) {part : Part}
    (hpart : part ≠ .blankPage) : parts.count part ≤ 1 := by
  have hsingle : (!part.isRepeatable) = true := by
    rw [Bool.not_eq_true', ← Bool.not_eq_true, isRepeatable_iff]
    exact hpart
  have hcount : (singleParts parts).count part = parts.count part := List.count_filter hsingle
  rw [← hcount]
  exact List.nodup_iff_count_le_one.mp h part

theorem PartsOnce.sublist {parts others : List Part} (h : PartsOnce parts)
    (hsub : others.Sublist parts) : PartsOnce others :=
  List.Nodup.sublist (hsub.filter _) h

theorem singleParts_cons_of_repeatable {part : Part} (h : part.isRepeatable = true)
    (parts : List Part) : singleParts (part :: parts) = singleParts parts :=
  List.filter_cons_of_neg (by simp [h])

theorem singleParts_cons_of_single {part : Part} (h : ¬ part.isRepeatable = true)
    (parts : List Part) : singleParts (part :: parts) = part :: singleParts parts :=
  List.filter_cons_of_pos (by simp [h])

/-- Parts are found to stand once if they do and none of them was seen before. -/
theorem checkPartsOnce_ok_iff {seen : List Part} {pairs : List (Literal × Part)} :
    checkPartsOnce seen pairs = .ok () ↔
      PartsOnce (pairs.map Prod.snd) ∧ ∀ part ∈ singleParts (pairs.map Prod.snd), part ∉ seen := by
  induction pairs generalizing seen with
  | nil => exact iff_of_true rfl ⟨List.nodup_nil, fun _ hmem => absurd hmem List.not_mem_nil⟩
  | cons pair rest ih =>
    obtain ⟨l, part⟩ := pair
    unfold checkPartsOnce PartsOnce
    rw [List.map_cons]
    by_cases hrepeatable : part.isRepeatable = true
    · rw [if_pos hrepeatable, singleParts_cons_of_repeatable hrepeatable]
      exact ih
    rw [if_neg hrepeatable, singleParts_cons_of_single hrepeatable]
    by_cases hseen : part ∈ seen
    · rw [if_pos (List.contains_iff_mem.mpr hseen)]
      exact iff_of_false nofun fun h => h.2 part List.mem_cons_self hseen
    · rw [if_neg (fun hin => hseen (List.contains_iff_mem.mp hin)), ih, List.nodup_cons]
      constructor
      · rintro ⟨honce, hnew⟩
        have hnot : part ∉ singleParts (rest.map Prod.snd) :=
          fun hmem => hnew part hmem List.mem_cons_self
        have hrest : ∀ other ∈ singleParts (rest.map Prod.snd), other ∉ seen :=
          fun other hmem hin => hnew other hmem (List.mem_cons_of_mem part hin)
        exact ⟨⟨hnot, honce⟩, List.forall_mem_cons.mpr ⟨hseen, hrest⟩⟩
      · rintro ⟨⟨hnot, honce⟩, hnew⟩
        refine ⟨honce, ?_⟩
        intro other hmem hin
        rcases List.mem_cons.mp hin with rfl | hin
        · exact hnot hmem
        · exact hnew other (List.mem_cons_of_mem part hmem) hin

/-- The parts of a list that passed its check stand once. -/
theorem PartList.once_of_check {list : PartList} (h : list.check = .ok ()) {parts : List Part}
    (hread : list.read = .ok parts) : PartsOnce parts := by
  obtain ⟨read, hread', h⟩ := of_bind_ok h
  cases hread'.symm.trans hread
  have hlength : list.parts.length = parts.length := (mapM_ok_iff.mp hread).length_eq
  have hsnd : (list.parts.zip parts).map Prod.snd = parts := List.map_snd_zip (by omega)
  rw [← hsnd]
  exact (checkPartsOnce_ok_iff.mp h).1

/-! ## The parts of a style sheet -/

namespace Sheet

variable {sheet : Sheet}

/-- A resolved style sheet has its base guide, and the parts that the style section declares. -/
theorem frame_of_resolve {style : Option StyleBlock} {defaultStyle : String}
    {type : Option DocumentType} {table : GuideTable}
    (h : resolve style defaultStyle type table = .ok sheet) :
    resolveName table (table.resolve defaultStyle none) (style.bind (·.base)) = .ok sheet.guide
      ∧ match style.bind (·.parts) with
        | none => sheet.parts = none
        | some list => ∃ parts, list.read = .ok parts ∧ sheet.parts = some parts := by
  cases style with
  | none =>
    obtain ⟨guide, hguide, h⟩ := of_bind_ok h
    cases h
    exact ⟨hguide, rfl⟩
  | some style =>
    obtain ⟨guide, _, hguide, -, hfollows⟩ := follows_of_resolve h
    exact ⟨hguide.trans (congrArg Except.ok hfollows.guide.symm), hfollows.parts⟩

/-! ## The parts of a document -/

/-- No part is a candidate twice. -/
theorem once_candidates (g : Guide) (type : DocumentType) : PartsOnce (g.candidates type) := by
  unfold PartsOnce
  cases g <;> cases type <;> decide

/-- The parts of a document stand once if the declared ones do. -/
theorem once_partsOf (h : ∀ parts ∈ sheet.parts, PartsOnce parts) (m : Material) :
    PartsOnce (sheet.partsOf m) := by
  unfold partsOf
  cases hparts : sheet.parts with
  | none => exact (once_candidates _ _).sublist List.filter_sublist
  | some parts => exact h parts hparts

end Sheet

/-! ## The place of the body -/

/-- The body stands behind the parts in front of the first one of the back matter, and in front of
the others. -/
theorem outlineOf_eq (parts : List Part) :
    ∃ front back, parts = front ++ back
      ∧ outlineOf parts = front.map .part ++ .body :: back.map .part
      ∧ (∀ part ∈ front, part.isBackMatter = false)
      ∧ ∀ part ∈ back.head?, part.isBackMatter = true := by
  induction parts with
  | nil => exact ⟨[], [], rfl, rfl, by simp, by simp⟩
  | cons part rest ih =>
    unfold outlineOf
    by_cases hback : part.isBackMatter = true
    · rw [if_pos hback]
      exact ⟨[], part :: rest, rfl, rfl, by simp, by simp [hback]⟩
    · rw [if_neg hback]
      obtain ⟨front, back, rfl, houtline, hfront, hhead⟩ := ih
      refine ⟨part :: front, back, rfl, by rw [houtline]; rfl, ?_, hhead⟩
      intro other hmem
      rcases List.mem_cons.mp hmem with rfl | hmem
      · exact Bool.eq_false_iff.mpr hback
      · exact hfront other hmem

/-- Apart from the body, the outline is made of the parts. -/
theorem outlineOf_parts (parts : List Part) :
    (outlineOf parts).filterMap SectionKind.part? = parts := by
  obtain ⟨front, back, rfl, houtline, -⟩ := outlineOf_eq parts
  have hpart : ∀ ps : List Part, (ps.map SectionKind.part).filterMap SectionKind.part? = ps := by
    intro ps
    rw [List.filterMap_map]
    exact List.filterMap_some
  rw [houtline, List.filterMap_append, List.filterMap_cons_none (by rfl), hpart, hpart]

/-- A part is as often in the outline as among the parts. -/
theorem count_outlineOf (parts : List Part) (part : Part) :
    (outlineOf parts).count (.part part) = parts.count part := by
  obtain ⟨front, back, rfl, houtline, -⟩ := outlineOf_eq parts
  have hinj : Function.Injective SectionKind.part := by
    intro p q h
    cases h
    rfl
  rw [houtline, List.count_append, List.count_cons_of_ne (by simp),
    List.count_map_of_injective _ _ hinj, List.count_map_of_injective _ _ hinj, List.count_append]

/-- There is one body in an outline. -/
theorem count_body_outlineOf (parts : List Part) : (outlineOf parts).count .body = 1 := by
  obtain ⟨front, back, -, houtline, -⟩ := outlineOf_eq parts
  have hnone : ∀ ps : List Part, (ps.map SectionKind.part).count .body = 0 := by
    intro ps
    rw [List.count_eq_zero]
    simp
  rw [houtline, List.count_append, List.count_cons_self, hnone, hnone]

end Manuscript
