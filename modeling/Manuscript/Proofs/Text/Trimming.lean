import Mathlib.Data.List.Basic
import Mathlib.Data.List.TakeWhile
import Manuscript.Text.Words

/-!
# Trimming

Trimming takes characters of a class off the ends of a text, and nothing else. What is left neither
starts nor ends with one.

* `trimRight_append`, `trimBoth_append`: what is taken off.
* `head_trimBoth`, `last_trimBoth`: the ends of what is left.
* `trimBoth_eq_self`: a text with such ends is left alone.
-/

namespace Manuscript.Text

variable {q : Char → Bool} {cs ds : List Char}

/-- What is left behind a run of characters does not start with one more. -/
theorem head_dropWhile (q : Char → Bool) (cs : List Char) :
    ∀ c ∈ (cs.dropWhile q).head?, q c = false := by
  intro c hc
  have hnot := List.head?_dropWhile_not q cs
  rw [hc] at hnot
  exact hnot

/-! ## The end -/

theorem trimRight_append (q : Char → Bool) (cs : List Char) :
    ∃ back, cs = trimRight q cs ++ back ∧ ∀ c ∈ back, q c = true := by
  refine ⟨(cs.reverse.takeWhile q).reverse, ?_, ?_⟩
  · have hsplit := List.takeWhile_append_dropWhile (p := q) (l := cs.reverse)
    unfold trimRight
    rw [← List.reverse_append, hsplit, List.reverse_reverse]
  · intro c hc
    exact List.mem_takeWhile_imp (List.mem_reverse.mp hc)

/-- If something is left of a text, all that stands in front of it is left, too. -/
theorem trimRight_append_of_ne_nil (h : trimRight q ds ≠ []) (cs : List Char) :
    trimRight q (cs ++ ds) = cs ++ trimRight q ds := by
  unfold trimRight at h ⊢
  have hne : ¬ (ds.reverse.dropWhile q).isEmpty = true := by
    rw [List.isEmpty_iff]
    exact fun hnil => h (by rw [hnil, List.reverse_nil])
  rw [List.reverse_append, List.dropWhile_append, if_neg hne, List.reverse_append,
    List.reverse_reverse]

/-! ## Both ends -/

theorem trimBoth_append (q : Char → Bool) (cs : List Char) :
    ∃ front back, cs = front ++ (trimBoth q cs ++ back)
      ∧ (∀ c ∈ front, q c = true) ∧ ∀ c ∈ back, q c = true := by
  obtain ⟨back, hback, hq⟩ := trimRight_append q (cs.dropWhile q)
  refine ⟨cs.takeWhile q, back, ?_, fun c hc => List.mem_takeWhile_imp hc, hq⟩
  have hsplit := List.takeWhile_append_dropWhile (p := q) (l := cs)
  unfold trimBoth
  rw [← hback, hsplit]

theorem infix_trimBoth (q : Char → Bool) (cs : List Char) : trimBoth q cs <:+: cs := by
  obtain ⟨front, back, hsplit, -⟩ := trimBoth_append q cs
  exact ⟨front, back, by rw [List.append_assoc, ← hsplit]⟩

theorem last_trimBoth (q : Char → Bool) (cs : List Char) :
    ∀ c ∈ (trimBoth q cs).getLast?, q c = false := by
  unfold trimBoth trimRight
  rw [List.getLast?_reverse]
  exact head_dropWhile q _

theorem head_trimBoth (q : Char → Bool) (cs : List Char) :
    ∀ c ∈ (trimBoth q cs).head?, q c = false := by
  obtain ⟨back, hback, -⟩ := trimRight_append q (cs.dropWhile q)
  intro c hc
  apply head_dropWhile q cs
  rw [hback]
  exact List.mem_head?_append_of_mem_head? hc

theorem trimBoth_eq_self (hhead : ∀ c ∈ cs.head?, q c = false)
    (hlast : ∀ c ∈ cs.getLast?, q c = false) : trimBoth q cs = cs := by
  have hdrop {cs : List Char} (h : ∀ c ∈ cs.head?, q c = false) : cs.dropWhile q = cs := by
    cases cs with
    | nil => rfl
    | cons c cs => exact List.dropWhile_cons_of_neg (by rw [h c rfl]; exact Bool.false_ne_true)
  unfold trimBoth trimRight
  rw [hdrop hhead, hdrop (by rwa [List.head?_reverse]), List.reverse_reverse]

end Manuscript.Text
