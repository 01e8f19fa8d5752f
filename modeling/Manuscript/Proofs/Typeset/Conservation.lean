import Manuscript.Proofs.Typeset.Spacing
import Manuscript.Style.Sheet

/-!
# What the text rules keep

The text rules drop white space, put one space in the place of a gap, put spaces behind punctuation,
and put capitals in the place of small letters. Everything else stands in the outcome as it stands
in the text, and in its order.

* `Deletes`: a text without some of its white space.
* `Collapsed`: a text whose gaps are one space or nothing.
* `Recased`: a text with capitals in the place of some small letters.
* `normalize_conserves`: what setting a text keeps of it.
-/

namespace Manuscript.Typeset

open Manuscript.Character

variable {c : Char} {cs ds es gap : List Char}

/-- The characters of a text that are not white space. -/
def nonblank (cs : List Char) : List Char := cs.filter fun c => !isBlank c

theorem nonblank_cons_of_blank (hc : isBlank c = true) : nonblank (c :: cs) = nonblank cs := by
  unfold nonblank
  rw [List.filter_cons_of_neg (by rw [hc]; exact Bool.false_ne_true)]

theorem nonblank_cons_of_letter (hc : isBlank c = false) :
    nonblank (c :: cs) = c :: nonblank cs := by
  unfold nonblank
  rw [List.filter_cons_of_pos (by rw [hc]; rfl)]

theorem nonblank_append (cs ds : List Char) : nonblank (cs ++ ds) = nonblank cs ++ nonblank ds :=
  List.filter_append ..

theorem nonblank_cons_congr (c : Char) (h : nonblank cs = nonblank ds) :
    nonblank (c :: cs) = nonblank (c :: ds) := by
  rw [← List.singleton_append, nonblank_append, h, ← nonblank_append, List.singleton_append]

/-! ## Deleting white space -/

/-- The second text is the first one without some of its white space. -/
inductive Deletes : List Char → List Char → Prop
  | nil : Deletes [] []
  | keep {cs ds : List Char} (c : Char) (h : Deletes cs ds) : Deletes (c :: cs) (c :: ds)
  | drop {c : Char} {cs ds : List Char} (hc : isBlank c = true) (h : Deletes cs ds) :
      Deletes (c :: cs) ds

namespace Deletes

theorem refl (cs : List Char) : Deletes cs cs := by
  induction cs with
  | nil => exact .nil
  | cons c cs ih => exact .keep c ih

theorem trans (h : Deletes cs ds) (h' : Deletes ds es) : Deletes cs es := by
  induction h generalizing es with
  | nil => exact h'
  | drop hc _ ih => exact .drop hc (ih h')
  | keep c _ ih =>
    cases h' with
    | keep _ h' => exact .keep c (ih h')
    | drop hc h' => exact .drop hc (ih h')

theorem append {cs' ds' : List Char} (h : Deletes cs ds) (h' : Deletes cs' ds') :
    Deletes (cs ++ cs') (ds ++ ds') := by
  induction h with
  | nil => exact h'
  | keep c _ ih => exact .keep c ih
  | drop hc _ ih => exact .drop hc ih

theorem blanks (h : ∀ c ∈ gap, isBlank c = true) : Deletes gap [] := by
  induction gap with
  | nil => exact .nil
  | cons c gap ih =>
    obtain ⟨hc, hgap⟩ := List.forall_mem_cons.mp h
    exact .drop hc (ih hgap)

theorem sublist (h : Deletes cs ds) : ds.Sublist cs := by
  induction h with
  | nil => exact List.Sublist.slnil
  | keep c _ ih => exact ih.cons_cons c
  | drop _ _ ih => exact ih.cons _

theorem nonblank_eq (h : Deletes cs ds) : nonblank ds = nonblank cs := by
  induction h with
  | nil => rfl
  | keep c _ ih => exact nonblank_cons_congr c ih
  | drop hc _ ih => rw [nonblank_cons_of_blank hc, ih]

end Deletes

theorem isBlank_of_isSpace (h : isSpace c = true) : isBlank c = true := by
  obtain rfl := beq_iff_eq.mp h
  rfl

theorem deletes_trimBoth (cs : List Char) : Deletes cs (Text.trimBoth isSpace cs) := by
  obtain ⟨front, back, hsplit, hfront, hback⟩ := Text.trimBoth_append isSpace cs
  have hbefore := Deletes.blanks fun c hc => isBlank_of_isSpace (hfront c hc)
  have hbehind := Deletes.blanks fun c hc => isBlank_of_isSpace (hback c hc)
  have hdrop := hbefore.append ((Deletes.refl (Text.trimBoth isSpace cs)).append hbehind)
  rwa [← hsplit, List.nil_append, List.append_nil] at hdrop

/-- Spaces are put together by deleting all but the last one of a run. -/
theorem deletes_collapse (cs : List Char) : Deletes cs (collapse isSpace cs) := by
  induction cs with
  | nil => exact .nil
  | cons c cs ih =>
    unfold collapse
    split_ifs with hc hnext
    · exact .drop (isBlank_of_isSpace hc) ih
    · obtain rfl := beq_iff_eq.mp hc
      exact .keep ' ' ih
    · exact .keep c ih

theorem deletes_tightenFrom {drops p : Char → Bool}
    (hdrops : ∀ c, drops c = true → isBlank c = true) {pending : List Char}
    (h : ∀ c ∈ pending, isBlank c = true) :
    Deletes (pending ++ cs) (tightenFrom drops p pending cs) := by
  induction cs generalizing pending with
  | nil =>
    rw [List.append_nil]
    exact .refl pending
  | cons c cs ih =>
    unfold tightenFrom
    split_ifs with hc hmark
    · have hmore : ∀ d ∈ pending ++ [c], isBlank d = true :=
        List.forall_mem_append.mpr ⟨h, List.forall_mem_singleton.mpr (hdrops c hc)⟩
      have hdeletes := ih hmore
      rwa [List.append_assoc] at hdeletes
    · exact (Deletes.blanks h).append (.keep c (ih (List.forall_mem_nil _)))
    · exact (Deletes.refl pending).append (.keep c (ih (List.forall_mem_nil _)))

theorem isBlank_of_isDroppable {policy : WhitespacePolicy} (h : isDroppable policy c = true) :
    isBlank c = true := by
  unfold isDroppable at h
  simp only [Bool.or_eq_true, Bool.and_eq_true, beq_iff_eq] at h
  rcases h with rfl | ⟨rfl, -⟩ <;> rfl

theorem deletes_tighten (policy : WhitespacePolicy) (p : Char → Bool) (cs : List Char) :
    Deletes cs (tighten policy p cs) :=
  deletes_tightenFrom (fun _ => isBlank_of_isDroppable) (List.forall_mem_nil _)

/-! ## Gaps -/

/-- The second text is the first one with one space or nothing in the place of every gap. -/
inductive Collapsed : List Char → List Char → Prop
  | nil : Collapsed [] []
  | letter {c : Char} {cs ds : List Char} (hc : isBlank c = false) (h : Collapsed cs ds) :
      Collapsed (c :: cs) (c :: ds)
  | gap {gap cs space ds : List Char} (hne : gap ≠ []) (hgap : ∀ c ∈ gap, isBlank c = true)
      (hcs : ∀ c ∈ cs.head?, isBlank c = false) (hspace : space = [] ∨ space = [' '])
      (h : Collapsed cs ds) : Collapsed (gap ++ cs) (space ++ ds)

theorem Collapsed.nonblank_eq (h : Collapsed cs ds) : nonblank ds = nonblank cs := by
  induction h with
  | nil => rfl
  | @letter c _ _ _ _ ih => exact nonblank_cons_congr c ih
  | gap _ hgap _ hspace _ ih =>
    have hnone := (Deletes.blanks hgap).nonblank_eq
    rw [nonblank_append, nonblank_append, ih, ← hnone]
    rcases hspace with rfl | rfl <;> rfl

/-- A gap that is one longer becomes the same. -/
theorem Collapsed.extend (h : Collapsed cs ds) (hc : isBlank c = true)
    (hcs : cs.head?.any isBlank = true) : Collapsed (c :: cs) ds := by
  cases h with
  | nil => cases hcs
  | letter hletter =>
    rw [List.head?_cons, Option.any_some, hletter] at hcs
    cases hcs
  | gap _ hgap hnext hspace h =>
    rw [← List.cons_append]
    exact .gap (List.cons_ne_nil _ _) (List.forall_mem_cons.mpr ⟨hc, hgap⟩) hnext hspace h

theorem collapsed_collapse (cs : List Char) : Collapsed cs (collapse isBlank cs) := by
  induction cs with
  | nil => exact .nil
  | cons c cs ih =>
    unfold collapse
    split_ifs with hc hnext
    · -- the gap goes on, and its last character leaves the space
      exact ih.extend hc hnext
    · have hletter : ∀ d ∈ cs.head?, isBlank d = false := by
        intro d hd
        rw [hd] at hnext
        exact Bool.eq_false_iff.mpr hnext
      exact .gap (List.cons_ne_nil c []) (List.forall_mem_singleton.mpr hc) hletter (.inr rfl) ih
    · exact .letter (Bool.eq_false_iff.mpr hc) ih

/-- The space that stands for a gap may be deleted. -/
theorem Collapsed.deletes (h : Collapsed cs ds) (h' : Deletes ds es) : Collapsed cs es := by
  induction h generalizing es with
  | nil =>
    cases h'
    exact .nil
  | letter hc _ ih =>
    cases h' with
    | keep _ h' => exact .letter hc (ih h')
    | drop hblank _ => rw [hc] at hblank; cases hblank
  | gap hne hgap hcs hspace _ ih =>
    rcases hspace with rfl | rfl
    · exact .gap hne hgap hcs (.inl rfl) (ih h')
    · cases h' with
      | keep _ h' => exact .gap hne hgap hcs (.inr rfl) (ih h')
      | drop _ h' => exact .gap hne hgap hcs (.inl rfl) (ih h')

/-! ## Spaces and capitals -/

theorem nonblank_spaceAfterFrom (p : Char → Bool) (previous : Option Char)
    (marked : List (Char × Bool)) :
    nonblank (spaceAfterFrom p previous marked) = nonblank (marked.map Prod.fst) := by
  induction marked generalizing previous with
  | nil => rfl
  | cons x rest ih =>
    have hspace : isBlank ' ' = true := rfl
    rw [spaceAfterFrom_cons, List.map_cons]
    split_ifs
    · refine nonblank_cons_congr x.1 ?_
      rw [nonblank_cons_of_blank hspace, ih]
    · exact nonblank_cons_congr x.1 (ih _)

theorem nonblank_spaceAfter (p : Char → Bool) (cs : List Char) :
    nonblank (spaceAfter p cs) = nonblank cs := by
  unfold spaceAfter
  rw [nonblank_spaceAfterFrom, map_fst_markAddresses]

/-- The second text is the first one with capitals in the place of some small letters. -/
inductive Recased : List Char → List Char → Prop
  | nil : Recased [] []
  | keep {cs ds : List Char} (c : Char) (h : Recased cs ds) : Recased (c :: cs) (c :: ds)
  | raise {c : Char} {cs ds : List Char} (hc : isSmallLetter c = true) (h : Recased cs ds) :
      Recased (c :: cs) (upper c ++ ds)

theorem Recased.refl (cs : List Char) : Recased cs cs := by
  induction cs with
  | nil => exact .nil
  | cons c cs ih => exact .keep c ih

theorem Recased.ne_nil (h : Recased cs ds) (hcs : cs ≠ []) : ds ≠ [] := by
  cases h with
  | nil => exact absurd rfl hcs
  | keep c _ => exact List.cons_ne_nil _ _
  | raise => exact List.append_ne_nil_of_left_ne_nil (upper_ne_nil _) _

theorem Raised.recased_nonblank {previous : Option Char} (h : Raised previous cs ds) :
    Recased (nonblank cs) (nonblank ds) := by
  induction h with
  | nil => exact .nil
  | keep c _ ih =>
    by_cases hc : isBlank c = true
    · rw [nonblank_cons_of_blank hc, nonblank_cons_of_blank hc]
      exact ih
    · have hletter := Bool.eq_false_iff.mpr hc
      rw [nonblank_cons_of_letter hletter, nonblank_cons_of_letter hletter]
      exact .keep c ih
  | @raise _ c _ _ _ hc _ ih =>
    have hsmall := lettered_of_isSmallLetter hc
    have hupper : nonblank (upper c) = upper c := by
      apply List.filter_eq_self.mpr
      intro d hd
      rw [(lettered_of_mem_upper hsmall hd).isBlank]
      rfl
    rw [nonblank_cons_of_letter hsmall.isBlank, nonblank_append, hupper]
    exact .raise hc ih

/-! ## All rules -/

variable (policy : WhitespacePolicy) (strict : Bool) (p : Char → Bool)

theorem deletes_tightened (h : policy ≠ .no) (cs : List Char) :
    Deletes cs (tighten policy p (normalizeWhitespace policy cs)) := by
  refine Deletes.trans ?_ (deletes_tighten policy p _)
  unfold normalizeWhitespace
  cases policy with
  | yes => exact deletes_trimBoth cs
  | no => exact absurd rfl h
  | escaped => exact (deletes_collapse cs).trans (deletes_trimBoth _)

theorem collapsed_tightened (cs : List Char) :
    Collapsed cs (tighten .no p (normalizeWhitespace .no cs)) := by
  refine Collapsed.deletes ?_ (deletes_tighten .no p _)
  exact (collapsed_collapse cs).deletes (deletes_trimBoth _)

theorem nonblank_tightened (cs : List Char) :
    nonblank (tighten policy p (normalizeWhitespace policy cs)) = nonblank cs := by
  by_cases h : policy = .no
  · rw [h]
    exact (collapsed_tightened p cs).nonblank_eq
  · exact (deletes_tightened policy p h cs).nonblank_eq

theorem recased_normalize (cs : List Char) :
    Recased (nonblank cs) (nonblank (normalize policy strict p cs)) := by
  unfold normalize
  dsimp only
  split_ifs
  · have hraised := (raised_capitalizeSentences
      (spaceAfter p (tighten policy p (normalizeWhitespace policy cs)))).recased_nonblank
    rwa [nonblank_spaceAfter, nonblank_tightened] at hraised
  · rw [nonblank_tightened]
    exact .refl _

/-- A text that holds more than white space is not set as nothing. -/
theorem normalize_ne_nil (h : ∃ c ∈ cs, isBlank c = false) :
    normalize policy strict p cs ≠ [] := by
  obtain ⟨c, hmem, hc⟩ := h
  have hin : c ∈ nonblank cs := List.mem_filter.mpr ⟨hmem, by rw [hc]; rfl⟩
  intro hnil
  have hne := (recased_normalize policy strict p cs).ne_nil (List.ne_nil_of_mem hin)
  rw [hnil] at hne
  exact hne rfl

/-- Setting a text keeps its characters in their order. White space aside, strict rules only put
capitals in the place of small letters and the others change nothing; those only delete white space,
or put one space in the place of a gap. No text but white space is set as nothing. -/
theorem normalize_conserves :
    (∀ (policy : WhitespacePolicy) (strict : Bool) (p : Char → Bool) (cs : List Char),
      Recased (nonblank cs) (nonblank (normalize policy strict p cs)))
    ∧ (∀ (policy : WhitespacePolicy) (p : Char → Bool) (cs : List Char),
      nonblank (normalize policy false p cs) = nonblank cs
        ∧ (policy ≠ .no → Deletes cs (normalize policy false p cs))
        ∧ (policy = .no → Collapsed cs (normalize policy false p cs)))
    ∧ ∀ (sheet : Sheet) (emphasis : Emphasis) (text : String),
      (∃ c ∈ text.toList, isBlank c = false) → (sheet.setText emphasis text).text ≠ "" := by
  refine ⟨recased_normalize, fun policy p cs => ⟨nonblank_tightened policy p cs,
    fun h => deletes_tightened policy p h cs, ?_⟩, ?_⟩
  · rintro rfl
    exact collapsed_tightened p cs
  · intro sheet emphasis text h hempty
    have hne := normalize_ne_nil sheet.whitespace sheet.guide.rules.strict
      sheet.guide.isPunctuation h
    exact hne (String.ofList_eq_empty_iff.mp hempty)

/-- A gap becomes one space or nothing, white space is deleted, and a small letter is set as two. -/
theorem normalize_conserves_gaps :
    Collapsed " one\t\ttwo .".toList (normalize .no false Guide.mla9.isPunctuation
        " one\t\ttwo .".toList)
      ∧ Deletes "one  two ‽ ".toList (normalize .escaped false Guide.house.isPunctuation
        "one  two ‽ ".toList)
      ∧ Recased "no.ßo".toList (nonblank (normalize .no true Guide.mla9.isPunctuation
        "no. ßo ".toList))
      ∧ ((Sheet.ofGuide .mla9 .paper).setText .regular " \tß ").text ≠ "" := by
  refine ⟨?_, ?_, normalize_conserves.1 .no true _ "no. ßo ".toList, ?_⟩
  · exact (normalize_conserves.2.1 .no _ " one\t\ttwo .".toList).2.2 rfl
  · exact (normalize_conserves.2.1 .escaped _ "one  two ‽ ".toList).2.1 (by decide)
  · exact normalize_conserves.2.2 _ .regular " \tß " ⟨'ß', by decide, by decide⟩

end Manuscript.Typeset
