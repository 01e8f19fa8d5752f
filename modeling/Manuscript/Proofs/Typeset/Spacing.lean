import Manuscript.Proofs.Typeset.Capitals

/-!
# Spaces behind punctuation

The rule for the spaces behind punctuation looks at the words of a text, and the spaces that it puts
in make new words of it, some of which look like addresses. A word that looks like an address is
left alone by any pass, and what is left of the other words has no mark that needs a space, so that
a second pass finds nothing to do. Neither does a pass behind the capitals: they change no mark, and
a word that looks like an address does so with a capital.

* `SpacedFrom`: no mark of a text needs a space, whatever its words look like.
* `Spaced`: a text of addresses and such texts.
* `spaced_spaceAfter`, `Spaced.raised`: one pass reaches such a text, and capitals keep it.
* `Spaced.spaceAfter_eq`: the rule leaves such a text alone.
-/

namespace Manuscript.Typeset

open Manuscript.Character

variable {p : Char → Bool} {c : Char} {cs ds word tail : List Char}
  {before before' previous : Option Char} {marked : List (Char × Bool)}

/-! ## One character -/

/-- The character is a mark that needs a space in front of the characters behind it. -/
def takesSpace (p : Char → Bool) (previous : Option Char) (c : Char) : List Char → Bool
  | [] => false
  | next :: later => p c && needsSpaceAfter p previous c next later.head?

/-- A space is put behind a character that takes one and is not in an address; nothing else is
done. -/
theorem spaceAfterFrom_cons (p : Char → Bool) (previous : Option Char) (x : Char × Bool)
    (rest : List (Char × Bool)) :
    spaceAfterFrom p previous (x :: rest)
      = if (!x.2 && takesSpace p previous x.1 (rest.map Prod.fst)) = true
        then x.1 :: ' ' :: spaceAfterFrom p (some x.1) rest
        else x.1 :: spaceAfterFrom p (some x.1) rest := by
  cases rest with
  | nil =>
    rw [List.map_nil, takesSpace, Bool.and_false]
    rfl
  | cons next later =>
    rw [List.map_cons, takesSpace, List.head?_map, ← Bool.and_assoc, Bool.and_comm (!x.2)]
    rfl

/-- A character takes a space if it is a mark and what follows is neither white space nor a mark. -/
theorem of_takesSpace (h : takesSpace p previous c cs = true) :
    p c = true ∧ ∃ next later, cs = next :: later ∧ isBlank next = false ∧ p next = false := by
  cases cs with
  | nil => cases h
  | cons next later =>
    unfold takesSpace needsSpaceAfter at h
    simp only [Bool.and_eq_true, Bool.not_eq_true'] at h
    exact ⟨h.1, next, later, rfl, h.2.1.1.1.1, h.2.1.1.1.2⟩

theorem head_spaceAfterFrom :
    (spaceAfterFrom p previous marked).head? = (marked.map Prod.fst).head? := by
  cases marked with
  | nil => rfl
  | cons x rest =>
    rw [spaceAfterFrom_cons]
    split_ifs <;> rfl

theorem head_spaceAfter (p : Char → Bool) (cs : List Char) :
    (spaceAfter p cs).head? = cs.head? := by
  unfold spaceAfter
  rw [head_spaceAfterFrom, map_fst_markAddresses]

theorem needsSpaceAfter_eq_false_iff {mark next : Char} {afterNext : Option Char} :
    needsSpaceAfter p previous mark next afterNext = false ↔
      isBlank next = true ∨ p next = true ∨ next ∈ closingMarks
        ∨ (previous.any isAsciiDigit = true ∧ isAsciiDigit next = true)
        ∨ (mark = '.' ∧ isAlphabetic next = true ∧ afterNext = some '.') := by
  unfold needsSpaceAfter
  simp only [Bool.and_eq_false_iff, Bool.not_eq_false', Bool.and_eq_true, beq_iff_eq,
    List.contains_iff_mem, or_assoc, and_assoc]

/-- What stands behind a character that takes no space. -/
theorem takesSpace_cons_iff {next : Char} {later : List Char} :
    takesSpace p previous c (next :: later) = false ↔
      p c = false ∨ needsSpaceAfter p previous c next later.head? = false := by
  unfold takesSpace
  exact Bool.and_eq_false_iff

theorem takesSpace_of_not_mark (h : p c = false) : takesSpace p previous c cs = false := by
  cases cs with
  | nil => rfl
  | cons next later => exact takesSpace_cons_iff.mpr (.inl h)

theorem takesSpace_of_blank (h : EndsWord cs) : takesSpace p previous c cs = false := by
  cases cs with
  | nil => rfl
  | cons next later =>
    exact takesSpace_cons_iff.mpr
      (.inr (needsSpaceAfter_eq_false_iff.mpr (.inl (endsWord_cons.mp h))))

/-- Of the second character behind a mark it only matters whether it is a full stop. -/
theorem takesSpace_congr {next : Char} {later later' : List Char}
    (h : later.head? = some '.' ↔ later'.head? = some '.') :
    takesSpace p previous c (next :: later) = takesSpace p previous c (next :: later') := by
  have hstop : (later.head? == some '.') = (later'.head? == some '.') := by
    rw [Bool.eq_iff_iff, beq_iff_eq, beq_iff_eq]
    exact h
  unfold takesSpace needsSpaceAfter
  dsimp only
  rw [hstop]

theorem takesSpace_append (htail : EndsWord tail) :
    takesSpace p previous c (cs ++ tail) = takesSpace p previous c cs := by
  match cs with
  | [] => exact takesSpace_of_blank htail
  | [next] =>
    have hblank : tail.head? ≠ some '.' := fun hstop => nomatch htail '.' hstop
    exact takesSpace_congr (iff_of_false hblank (by simp))
  | next :: _ :: _ => exact takesSpace_congr Iff.rfl

/-- Of the character in front of a mark it only matters whether it is a digit. -/
theorem takesSpace_previous (h : before.any isAsciiDigit = before'.any isAsciiDigit) :
    takesSpace p before c cs = takesSpace p before' c cs := by
  unfold takesSpace needsSpaceAfter
  rw [h]

/-- A mark behind a digit takes no space that it would not take otherwise. -/
theorem takesSpace_mono (h : before.any isAsciiDigit = true → before'.any isAsciiDigit = true)
    (hc : takesSpace p before c cs = false) : takesSpace p before' c cs = false := by
  cases cs with
  | nil => rfl
  | cons next later =>
    rw [takesSpace_cons_iff, needsSpaceAfter_eq_false_iff] at hc ⊢
    tauto

/-! ## Texts without a mark that takes a space -/

/-- No mark of the text takes a space, even if no word of it looks like an address; `previous` is
the character before the text. -/
def SpacedFrom (p : Char → Bool) (previous : Option Char) : List Char → Prop
  | [] => True
  | c :: cs => takesSpace p previous c cs = false ∧ SpacedFrom p (some c) cs

theorem SpacedFrom.mono (h : before.any isAsciiDigit = true → before'.any isAsciiDigit = true)
    (hcs : SpacedFrom p before cs) : SpacedFrom p before' cs := by
  cases cs with
  | nil => trivial
  | cons c cs => exact ⟨takesSpace_mono h hcs.1, hcs.2⟩

/-- Where no mark takes a space, none is put in, whatever the words look like. -/
theorem spaceAfterFrom_eq_self (h : SpacedFrom p previous (marked.map Prod.fst)) :
    spaceAfterFrom p previous marked = marked.map Prod.fst := by
  induction marked generalizing previous with
  | nil => rfl
  | cons x rest ih =>
    obtain ⟨hx, hrest⟩ := h
    rw [spaceAfterFrom_cons, hx, Bool.and_false, if_neg Bool.false_ne_true, ih hrest]
    rfl

/-- A pass over a text without addresses leaves no mark that takes a space. -/
theorem spacedFrom_spaceAfterFrom (hp : Marks p) (h : ∀ x ∈ marked, x.2 = false) :
    SpacedFrom p previous (spaceAfterFrom p previous marked) := by
  induction marked generalizing previous with
  | nil => trivial
  | cons x rest ih =>
    obtain ⟨hx, hrest⟩ := List.forall_mem_cons.mp h
    rw [spaceAfterFrom_cons, hx]
    by_cases htakes : takesSpace p previous x.1 (rest.map Prod.fst) = true
    · rw [htakes, Bool.not_false, Bool.and_self, if_pos rfl]
      obtain ⟨hmark, -⟩ := of_takesSpace htakes
      refine ⟨takesSpace_of_blank (endsWord_cons.mpr rfl),
        takesSpace_of_not_mark (hp.of_blank rfl), ?_⟩
      -- neither the mark nor the space is a digit
      apply (ih hrest).mono
      intro hdigit
      rw [Option.any_some, hp.notDigit hmark] at hdigit
      cases hdigit
    · have hnone := Bool.eq_false_iff.mpr htakes
      rw [if_neg (by simpa using htakes)]
      refine ⟨?_, ih hrest⟩
      cases rest with
      | nil => rfl
      | cons next later =>
        -- a space behind the next character stands behind a mark, in front of which none is put
        rw [spaceAfterFrom_cons]
        split_ifs with hnext
        · obtain ⟨hmark, -⟩ := of_takesSpace (Bool.and_eq_true_iff.mp hnext).2
          refine takesSpace_cons_iff.mpr (.inr ?_)
          exact needsSpaceAfter_eq_false_iff.mpr (.inr (.inl hmark))
        · have hhead : (spaceAfterFrom p (some next.1) later).head? = (later.map Prod.fst).head? :=
            head_spaceAfterFrom
          have hsame : takesSpace p previous x.1 (next.1 :: spaceAfterFrom p (some next.1) later)
              = takesSpace p previous x.1 (next.1 :: later.map Prod.fst) :=
            takesSpace_congr (by rw [hhead])
          exact hsame.trans hnone

/-! ## Texts that meet at white space -/

theorem spaceAfterFrom_append (hp : Marks p) {rest : List (Char × Bool)}
    (h : EndsWord (rest.map Prod.fst)) :
    spaceAfterFrom p previous (marked ++ rest)
      = spaceAfterFrom p previous marked ++ spaceAfterFrom p none rest := by
  induction marked generalizing previous with
  | nil =>
    cases rest with
    | nil => rfl
    | cons x later =>
      have hx : p x.1 = false := hp.of_blank (endsWord_cons.mp h)
      rw [List.nil_append, spaceAfterFrom_cons, spaceAfterFrom_cons, takesSpace_of_not_mark hx,
        takesSpace_of_not_mark hx]
      rfl
  | cons x marked ih =>
    have htakes : takesSpace p previous x.1 ((marked ++ rest).map Prod.fst)
        = takesSpace p previous x.1 (marked.map Prod.fst) := by
      rw [List.map_append, takesSpace_append h]
    rw [List.cons_append, spaceAfterFrom_cons, spaceAfterFrom_cons, htakes, ih]
    split_ifs <;> rfl

theorem spaceAfter_append (hp : Marks p) (htail : EndsWord tail) :
    spaceAfter p (cs ++ tail) = spaceAfter p cs ++ spaceAfter p tail := by
  unfold spaceAfter
  rw [markAddresses_append htail, spaceAfterFrom_append hp]
  rwa [map_fst_markAddresses]

theorem endsWord_spaceAfter (h : EndsWord cs) : EndsWord (spaceAfter p cs) := by
  unfold EndsWord
  rwa [head_spaceAfter]

theorem spaceAfter_blank (hp : Marks p) (hc : isBlank c = true) :
    spaceAfter p (c :: cs) = c :: spaceAfter p cs := by
  have hdigit : (some c).any isAsciiDigit = none.any isAsciiDigit := isAsciiDigit_of_isBlank hc
  have hnone : spaceAfterFrom p (some c) (markAddresses cs)
      = spaceAfterFrom p none (markAddresses cs) := by
    cases markAddresses cs with
    | nil => rfl
    | cons x rest => rw [spaceAfterFrom_cons, spaceAfterFrom_cons, takesSpace_previous hdigit]
  unfold spaceAfter
  rw [markAddresses_blank hc, spaceAfterFrom_cons, takesSpace_of_not_mark (hp.of_blank hc), hnone]
  rfl

theorem spaceAfterFrom_address (h : ∀ x ∈ marked, x.2 = true) :
    spaceAfterFrom p previous marked = marked.map Prod.fst := by
  induction marked generalizing previous with
  | nil => rfl
  | cons x rest ih =>
    obtain ⟨hx, hrest⟩ := List.forall_mem_cons.mp h
    rw [spaceAfterFrom_cons, hx, ih hrest]
    rfl

theorem spaceAfter_address (hword : IsWord word) (h : IsWebAddress word) :
    spaceAfter p word = word := by
  unfold spaceAfter
  rw [spaceAfterFrom_address, map_fst_markAddresses]
  rw [markAddresses_stretch hword.ne_nil hword.letters, isAddress_iff.mpr h]
  simp

theorem spacedFrom_spaceAfter (hp : Marks p) (hword : IsWord word) (h : ¬ IsWebAddress word) :
    SpacedFrom p none (spaceAfter p word) := by
  have hplain : isAddress word = false := Bool.eq_false_iff.mpr (mt isAddress_iff.mp h)
  unfold spaceAfter
  rw [markAddresses_stretch hword.ne_nil hword.letters, hplain]
  exact spacedFrom_spaceAfterFrom hp (by simp)

/-! ## Texts that are spaced -/

/-- The words of the text look like addresses or lie in parts without a mark that takes a space. -/
inductive Spaced (p : Char → Bool) : List Char → Prop
  | nil : Spaced p []
  | blank {c : Char} {cs : List Char} (hc : isBlank c = true) (h : Spaced p cs) :
      Spaced p (c :: cs)
  | address {word cs : List Char} (hword : IsWord word) (haddress : IsWebAddress word)
      (hcs : EndsWord cs) (h : Spaced p cs) : Spaced p (word ++ cs)
  | part {part cs : List Char} (hpart : SpacedFrom p none part) (hcs : EndsWord cs)
      (h : Spaced p cs) : Spaced p (part ++ cs)

/-- A pass spaces a text. -/
theorem spaced_spaceAfter (hp : Marks p) (cs : List Char) : Spaced p (spaceAfter p cs) := by
  induction worded cs with
  | nil => exact .nil
  | blank hc _ ih =>
    rw [spaceAfter_blank hp hc]
    exact .blank hc ih
  | @word word cs hword hcs _ ih =>
    rw [spaceAfter_append hp hcs]
    by_cases haddress : IsWebAddress word
    · rw [spaceAfter_address hword haddress]
      exact .address hword haddress (endsWord_spaceAfter hcs) ih
    · have hspaced := spacedFrom_spaceAfter hp hword haddress
      exact .part hspaced (endsWord_spaceAfter hcs) ih

/-- A pass over a text that is spaced changes nothing. -/
theorem Spaced.spaceAfter_eq (hp : Marks p) (h : Spaced p cs) : spaceAfter p cs = cs := by
  induction h with
  | nil => rfl
  | blank hc _ ih => rw [spaceAfter_blank hp hc, ih]
  | address hword haddress hcs _ ih =>
    rw [spaceAfter_append hp hcs, spaceAfter_address hword haddress, ih]
  | @part part cs hpart hcs _ ih =>
    have heq : spaceAfter p part = part := by
      unfold spaceAfter
      rw [spaceAfterFrom_eq_self, map_fst_markAddresses]
      rwa [map_fst_markAddresses]
    rw [spaceAfter_append hp hcs, heq, ih]

/-! ## Capitals -/

/-- A word that looks like an address does so with a capital at its start. -/
theorem isWebAddress_upper {rest : List Char} (hc : isSmallLetter c = true)
    (h : IsWebAddress (c :: rest)) : IsWebAddress (upper c ++ rest) := by
  rcases isWebAddress_iff.mp h with hscheme | hhost
  · rcases List.infix_cons_iff.mp hscheme with hstart | hrest
    · have hcolon : c = ':' := (List.cons_prefix_cons.mp hstart).1.symm
      exact absurd hcolon ((lettered_of_isSmallLetter hc).ne (by decide))
    · exact .inl (hrest.trans (List.suffix_append _ _).isInfix)
  · obtain ⟨d, ds, heq, hw⟩ := exists_of_host hhost
    obtain ⟨rfl, rfl⟩ := List.cons.inj heq
    rcases hw with rfl | rfl
    · -- the lower case of the capital is the letter itself
      have hupper : upper 'w' = ['W'] := by decide +kernel
      have hlower : lower 'W' = lower 'w' := by decide +kernel
      rw [List.flatMap_cons, ← hlower, ← List.flatMap_cons] at hhost
      rw [hupper]
      exact isWebAddress_iff.mpr (.inr hhost)
    · have hcapital : isSmallLetter 'W' = false := by decide +kernel
      rw [hcapital] at hc
      cases hc

theorem spacedFrom_append (hcs : ∀ c ∈ cs, p c = false) (h : ∀ b, SpacedFrom p b ds) :
    SpacedFrom p previous (cs ++ ds) := by
  induction cs generalizing previous with
  | nil => exact h previous
  | cons c cs ih =>
    obtain ⟨hc, hcs⟩ := List.forall_mem_cons.mp hcs
    exact ⟨takesSpace_of_not_mark hc, ih hcs⟩

/-- Capitals make no mark take a space. -/
theorem Raised.spacedFrom (hp : Marks p) (h : Raised previous cs ds)
    (hbefore : before.any isAsciiDigit = true → before'.any isAsciiDigit = true)
    (hcs : SpacedFrom p before cs) : SpacedFrom p before' ds := by
  induction h generalizing before before' with
  | nil => trivial
  | @keep _ cs ds c hrest ih =>
    obtain ⟨hc, htail⟩ := hcs
    refine ⟨?_, ih id htail⟩
    by_cases hmark : p c = true
    · cases cs with
      | nil =>
        cases hrest
        rfl
      | cons next later =>
        obtain ⟨es, rfl, hes⟩ := hrest.behind_letter (hp.notBlank hmark)
        by_cases hblank : isBlank next = true
        · exact takesSpace_of_blank (endsWord_cons.mpr hblank)
        · have hhead := hes.head_behind_letter (Bool.eq_false_iff.mpr hblank)
          have hsame : takesSpace p before c (next :: es) = takesSpace p before c (next :: later) :=
            takesSpace_congr (by rw [hhead])
          exact takesSpace_mono hbefore (hsame.trans hc)
    · exact takesSpace_of_not_mark (Bool.eq_false_iff.mpr hmark)
  | @raise _ c cs ds _ hc hrest ih =>
    -- the small letter is no digit, so that what is behind it may stand behind anything
    have hdigit := (lettered_of_isSmallLetter hc).isAsciiDigit
    have hbehind (b : Option Char) : SpacedFrom p b ds := by
      refine ih ?_ hcs.2
      intro hany
      rw [Option.any_some, hdigit] at hany
      cases hany
    exact spacedFrom_append (fun d hd => (plain_of_mem_upper hp hc hd).2) hbehind

/-- Capitals leave a text spaced. -/
theorem Spaced.raised (hp : Marks p) (h : Spaced p cs) (hraised : Raised previous cs ds) :
    Spaced p ds := by
  induction h generalizing previous ds with
  | nil =>
    cases hraised
    exact .nil
  | blank hc _ ih =>
    cases hraised with
    | keep _ hrest => exact .blank hc (ih hrest)
    | raise _ hsmall =>
      rw [isSmallLetter_of_isBlank hc] at hsmall
      cases hsmall
  | @address word cs hword haddress hcs _ ih =>
    obtain ⟨es, es', middle, rfl, hes, hes'⟩ := hraised.of_append
    rcases hes.of_word hword.letters with rfl | ⟨c, rest, rfl, hc, rfl⟩
    · exact .address hword haddress (hes'.endsWord hcs) (ih hes')
    · obtain ⟨-, hrest⟩ := List.forall_mem_cons.mp hword.letters
      have hupper : IsWord (upper c ++ rest) :=
        ⟨List.append_ne_nil_of_left_ne_nil (upper_ne_nil c) rest, List.forall_mem_append.mpr
          ⟨fun d hd => (plain_of_mem_upper hp hc hd).1, hrest⟩⟩
      exact .address hupper (isWebAddress_upper hc haddress) (hes'.endsWord hcs) (ih hes')
  | part hpart hcs _ ih =>
    obtain ⟨es, es', middle, rfl, hes, hes'⟩ := hraised.of_append
    exact .part (hes.spacedFrom hp id hpart) (hes'.endsWord hcs) (ih hes')

end Manuscript.Typeset
