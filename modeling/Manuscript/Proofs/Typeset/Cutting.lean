import Manuscript.Proofs.Typeset.Merging

/-!
# How a styled text is cut into spans

The same characters in the same emphases can be cut into spans in many ways, with empty spans
anywhere between them. Merging forgets the cuts: what it gives depends on nothing but the characters
and their emphases.

* `ofStyled`: the spans that characters with an emphasis each make up.
* `merge_eq_ofStyled`: merging gives these, however the text was cut.
* `merge_canonical`: merged spans are a canonical form of styled texts.
-/

namespace Manuscript.Span

/-- The spans that characters make up, each with its emphasis. -/
def ofStyled : List (Char × Emphasis) → List Span
  | [] => []
  | (c, e) :: rest => mergeInto ⟨String.ofList [c], e⟩ (ofStyled rest)

/-- Two texts of one emphasis may be merged one by one or at once. -/
theorem mergeInto_mergeInto {s t : Span} (h : s.emphasis = t.emphasis) (spans : List Span) :
    mergeInto s (mergeInto t spans) = mergeInto ⟨s.text ++ t.text, s.emphasis⟩ spans := by
  cases spans with
  | nil => exact if_pos h
  | cons u rest =>
    by_cases hu : t.emphasis = u.emphasis
    · have hsu : s.emphasis = u.emphasis := h.trans hu
      simp only [mergeInto, hu, hsu, if_true, String.append_assoc]
    · have hsu : s.emphasis ≠ u.emphasis := fun hs => hu (h.symm.trans hs)
      simp only [mergeInto, h, hu, if_true, if_false]

/-- Characters of one emphasis that stand in front make up one span. -/
theorem ofStyled_append {cs : List Char} (hcs : cs ≠ []) (e : Emphasis)
    (rest : List (Char × Emphasis)) :
    ofStyled (cs.map (fun c => (c, e)) ++ rest)
      = mergeInto ⟨String.ofList cs, e⟩ (ofStyled rest) := by
  induction cs with
  | nil => exact absurd rfl hcs
  | cons c cs ih =>
    cases cs with
    | nil => rfl
    | cons d cs =>
      -- the characters behind the first one make up a span already, which the first one joins
      have hrest := ih (List.cons_ne_nil d cs)
      have htext : String.ofList [c] ++ String.ofList (d :: cs) = String.ofList (c :: d :: cs) :=
        String.ofList_append.symm
      have hmerged := mergeInto_mergeInto (s := ⟨String.ofList [c], e⟩)
        (t := ⟨String.ofList (d :: cs), e⟩) rfl (ofStyled rest)
      rw [List.map_cons, List.cons_append, ofStyled, hrest, hmerged, htext]

/-- Merging forgets how a styled text was cut into spans. -/
theorem merge_eq_ofStyled (spans : List Span) : merge spans = ofStyled (styled spans) := by
  induction spans with
  | nil => rfl
  | cons s rest ih =>
    unfold merge
    rw [styled_cons]
    split_ifs with hempty
    · -- an empty span is left out, and shows nothing
      have hs : s.text = "" := String.isEmpty_iff.mp hempty
      rw [ih, hs]
      rfl
    · have hs : s.text.toList ≠ [] := by
        rw [ne_eq, String.toList_eq_nil_iff, ← String.isEmpty_iff]
        exact hempty
      rw [ofStyled_append hs, String.ofList_toList, ih]

/-- Merged spans are a canonical form of styled texts. Lists of spans are merged alike exactly if
they show the same characters in the same emphases, and the merged spans show them too. None of the
merged spans is empty, no two neighbours have one emphasis, and there is nothing left to merge. -/
theorem merge_canonical (spans others : List Span) :
    (merge spans = merge others ↔ styled spans = styled others)
      ∧ styled (merge spans) = styled spans
      ∧ (∀ s ∈ merge spans, s.text ≠ "")
      ∧ (merge spans).IsChain (fun s t => s.emphasis ≠ t.emphasis)
      ∧ merge (merge spans) = merge spans := by
  refine ⟨⟨fun h => ?_, fun h => ?_⟩, styled_merge spans, ?_, isChain_merge spans, ?_⟩
  · rw [← styled_merge spans, h, styled_merge]
  · rw [merge_eq_ofStyled, h, ← merge_eq_ofStyled]
  · intro s hs hempty
    have hshown := isEmpty_merge spans s hs
    rw [hempty] at hshown
    cases hshown
  · rw [merge_eq_ofStyled (merge spans), styled_merge, ← merge_eq_ofStyled]

/-- An empty span in italics between two regular ones does not keep them apart. -/
example : merge [.regular "On", .italic "", .regular " Ravens"] = [.regular "On Ravens"] := by
  decide +kernel

end Manuscript.Span
