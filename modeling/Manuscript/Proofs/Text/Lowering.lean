import Mathlib.Data.List.Infix
import Manuscript.Text.Case

/-!
# Small letters of a text

A text is lowered character by character, but for the capital sigma, whose small letter depends on
the characters around it. Where neither small sigma matters, this makes no difference.

* `lowerAfter_eq`: a text without the capital sigma is lowered character by character.
* `prefix_lowerAfter_iff`: how a lowered text starts, if not with a sigma.
-/

namespace Manuscript.Text

open Manuscript.Character (lower)

variable {cs front pattern rest : List Char} {c : Char}

theorem lowerAfter_append (h : 'Σ' ∉ front) (before back : List Char) :
    lowerAfter before (front ++ back)
      = front.flatMap lower ++ lowerAfter (front.reverse ++ before) back := by
  induction front generalizing before with
  | nil => rfl
  | cons c front ih =>
    rw [List.mem_cons, not_or] at h
    obtain ⟨hc, hfront⟩ := h
    rw [List.cons_append, lowerAfter, if_neg (Ne.symm hc), ih hfront, List.flatMap_cons,
      List.reverse_cons, List.append_assoc, List.append_assoc, List.singleton_append]

/-- A text without the capital sigma is lowered character by character. -/
theorem lowerAfter_eq (h : 'Σ' ∉ cs) (before : List Char) :
    lowerAfter before cs = cs.flatMap lower := by
  have hall := lowerAfter_append h before []
  rwa [List.append_nil, lowerAfter, List.append_nil] at hall

theorem prefix_append_cons_iff (hc : c ∉ pattern) :
    pattern <+: front ++ c :: rest ↔ pattern <+: front := by
  constructor
  · intro h
    have hfront : front <+: front ++ c :: rest := List.prefix_append _ _
    rcases List.prefix_or_prefix_of_prefix h hfront with hshort | ⟨more, rfl⟩
    · exact hshort
    · -- what the pattern has beyond the text in front would start with the character
      have hmore : more <+: c :: rest := (List.prefix_append_right_inj front).mp h
      cases more with
      | nil => exact ⟨[], by simp⟩
      | cons d more =>
        obtain ⟨rfl, -⟩ := List.cons_prefix_cons.mp hmore
        exact absurd (List.mem_append_right front List.mem_cons_self) hc
  · intro h
    exact h.trans (List.prefix_append _ _)

/-- How a lowered text starts can be said character by character, up to the first sigma. -/
theorem prefix_lowerAfter_iff (hσ : 'σ' ∉ pattern) (hς : 'ς' ∉ pattern) (before : List Char) :
    pattern <+: lowerAfter before cs ↔ pattern <+: cs.flatMap lower := by
  by_cases hmem : 'Σ' ∈ cs
  · -- both texts go on with a sigma behind the same front, and the pattern has none of the two
    obtain ⟨front, rest, rfl, hfront⟩ := List.eq_append_cons_of_mem hmem
    have hlower : lower 'Σ' = ['σ'] := by decide +kernel
    rw [lowerAfter_append hfront, List.flatMap_append, List.flatMap_cons, hlower, lowerAfter,
      if_pos rfl, List.singleton_append, List.singleton_append, prefix_append_cons_iff hσ,
      prefix_append_cons_iff]
    split_ifs
    · exact hς
    · exact hσ
  · rw [lowerAfter_eq hmem]

end Manuscript.Text
