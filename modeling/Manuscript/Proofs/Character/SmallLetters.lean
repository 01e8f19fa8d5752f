import Mathlib.Data.List.Basic
import Manuscript.Character.Blank
import Manuscript.Character.Case
import Manuscript.Character.Letter

/-!
# Small letters and their capitals

What the text rules rely on when they put a capital in the place of a small letter. The facts are
read off the tables run by run, without going through the code points of a run.

* `unlettered`: ranges without letters, which hold all white space, digits and marks.
* `lettered_of_isLowercase`, `lettered_of_mem_upper`: neither lower case letters nor their capitals
  lie in one of them.
* `upper_eq_or_head`: a character is its own capital, or its capital does not start with a small
  letter.
* `eq_w_of_lower`: the lower case of the two letters `w` only starts with a `w`.
-/

namespace Manuscript.Character

variable {c d : Char} {n : Nat}

/-! ## Looking tables up -/

/-- A code point that is found lies in one of the ranges. -/
theorem exists_of_inRanges {ranges : List (Nat × Nat)} (h : inRanges ranges n = true) :
    ∃ r ∈ ranges, r.1 ≤ n ∧ n ≤ r.2 := by
  induction ranges with
  | nil => cases h
  | cons r rest ih =>
    unfold inRanges at h
    simp only [Bool.and_eq_true, Bool.or_eq_true, decide_eq_true_eq] at h
    obtain ⟨hfirst, hlast | hrest⟩ := h
    · exact ⟨r, List.mem_cons_self, hfirst, hlast⟩
    · obtain ⟨s, hs, hn⟩ := ih hrest
      exact ⟨s, List.mem_cons_of_mem r hs, hn⟩

theorem exists_of_inRuns {runs : List (Nat × Nat × Nat)} (h : inRuns runs n = true) :
    ∃ r ∈ runs, r.1 ≤ n ∧ n ≤ r.2.1 ∧ (n - r.1) % r.2.2 = 0 := by
  induction runs with
  | nil => cases h
  | cons r rest ih =>
    unfold inRuns at h
    simp only [Bool.and_eq_true, Bool.or_eq_true, decide_eq_true_eq, beq_iff_eq] at h
    obtain ⟨hfirst, ⟨hlast, hstep⟩ | hrest⟩ := h
    · exact ⟨r, List.mem_cons_self, hfirst, hlast, hstep⟩
    · obtain ⟨s, hs, hn⟩ := ih hrest
      exact ⟨s, List.mem_cons_of_mem r hs, hn⟩

theorem exists_of_shiftOf {runs : List (Nat × Nat × Nat × Int)} {shift : Int}
    (h : shiftOf? runs n = some shift) :
    ∃ r ∈ runs, r.1 ≤ n ∧ n ≤ r.2.1 ∧ (n - r.1) % r.2.2.1 = 0 ∧ r.2.2.2 = shift := by
  induction runs with
  | nil => cases h
  | cons r rest ih =>
    unfold shiftOf? at h
    split_ifs at h with hfirst hrun
    · simp only [Bool.and_eq_true, decide_eq_true_eq, beq_iff_eq] at hrun
      exact ⟨r, List.mem_cons_self, Nat.le_of_not_lt hfirst, hrun.1, hrun.2,
        Option.some.inj h⟩
    · obtain ⟨s, hs, hn⟩ := ih h
      exact ⟨s, List.mem_cons_of_mem r hs, hn⟩

/-- The image of a character is moved by a run, spelled out, or the character itself. -/
theorem mapCase_cases (shifts : List (Nat × Nat × Nat × Int)) (expansions : List (Nat × List Nat))
    (c : Char) :
    (∃ r ∈ shifts, r.1 ≤ c.toNat ∧ c.toNat ≤ r.2.1 ∧ (c.toNat - r.1) % r.2.2.1 = 0
        ∧ mapCase shifts expansions c = [Char.ofNat (c.toNat + r.2.2.2).toNat])
      ∨ (∃ e ∈ expansions, e.1 = c.toNat ∧ mapCase shifts expansions c = e.2.map Char.ofNat)
      ∨ mapCase shifts expansions c = [c] := by
  unfold mapCase
  cases hshift : shiftOf? shifts c.toNat with
  | some shift =>
    obtain ⟨r, hr, hfirst, hlast, hstep, rfl⟩ := exists_of_shiftOf hshift
    exact .inl ⟨r, hr, hfirst, hlast, hstep, rfl⟩
  | none =>
    cases hlookup : expansions.lookup c.toNat with
    | some image =>
      obtain ⟨l₁, l₂, rfl, -⟩ := List.lookup_eq_some_iff.mp hlookup
      exact .inr (.inl ⟨(c.toNat, image), by simp, rfl, rfl⟩)
    | none => exact .inr (.inr rfl)

theorem mapCase_ne_nil {shifts : List (Nat × Nat × Nat × Int)} {expansions : List (Nat × List Nat)}
    (h : ∀ e ∈ expansions, e.2 ≠ []) (c : Char) : mapCase shifts expansions c ≠ [] := by
  rcases mapCase_cases shifts expansions c with
    ⟨r, -, -, -, -, heq⟩ | ⟨e, he, -, heq⟩ | heq <;> rw [heq]
  · exact List.cons_ne_nil _ _
  · simpa using h e he
  · exact List.cons_ne_nil _ _

/-- No character has an empty capital. -/
theorem upper_ne_nil (c : Char) : upper c ≠ [] := mapCase_ne_nil (by decide) c

theorem lower_ne_nil (c : Char) : lower c ≠ [] := mapCase_ne_nil (by decide) c

/-! ## Ranges without letters -/

/-- Ranges of code points without letters. They hold white space, digits and punctuation marks. -/
def unlettered : List (Nat × Nat) :=
  [(0x0, 0x40), (0x85, 0x85), (0xA0, 0xA0), (0x1680, 0x1680), (0x2000, 0x206F), (0x3000, 0x3000)]

/-- The code point lies in none of the ranges without letters. -/
def LetteredAt (n : Nat) : Prop := ∀ r ∈ unlettered, n < r.1 ∨ r.2 < n

/-- The character lies in none of the ranges without letters. -/
def Lettered (c : Char) : Prop := LetteredAt c.toNat

instance (n : Nat) : Decidable (LetteredAt n) :=
  inferInstanceAs (Decidable (∀ r ∈ unlettered, n < r.1 ∨ r.2 < n))

instance (c : Char) : Decidable (Lettered c) := inferInstanceAs (Decidable (LetteredAt c.toNat))

theorem Lettered.ne (h : Lettered c) (hd : ¬ Lettered d) : c ≠ d := fun heq => hd (heq ▸ h)

theorem Lettered.isBlank (h : Lettered c) : isBlank c = false := by
  have hinside : ∀ r ∈ whiteSpace, ∃ u ∈ unlettered, u.1 ≤ r.1 ∧ r.2 ≤ u.2 := by decide
  apply Bool.eq_false_iff.mpr
  intro hblank
  obtain ⟨r, hr, hfirst, hlast⟩ := exists_of_inRanges hblank
  obtain ⟨u, hu, hlow, hhigh⟩ := hinside r hr
  have hout := h u hu
  omega

theorem Lettered.isAsciiDigit (h : Lettered c) : isAsciiDigit c = false := by
  apply Bool.eq_false_iff.mpr
  intro hdigit
  have hlast : c ≤ '9' := of_decide_eq_true (Bool.and_eq_true_iff.mp hdigit).2
  have hcode : c.toNat ≤ 0x39 := hlast
  have hout := h (0x0, 0x40) (by decide)
  omega

theorem lettered_of_isSmallLetter (h : isSmallLetter c = true) : Lettered c := by
  have houtside : ∀ r ∈ smallLetters, ∀ u ∈ unlettered, r.2.1 < u.1 ∨ u.2 < r.1 := by
    decide +kernel
  obtain ⟨r, hr, hfirst, hlast, -⟩ := exists_of_inRuns h
  intro u hu
  have hout := houtside r hr u hu
  omega

theorem lettered_of_isLowercase (h : isLowercase c = true) : Lettered c := by
  have houtside : ∀ r ∈ otherLowercase, ∀ u ∈ unlettered, r.2 < u.1 ∨ u.2 < r.1 := by
    decide +kernel
  rcases Bool.or_eq_true_iff.mp h with hsmall | hother
  · exact lettered_of_isSmallLetter hsmall
  · obtain ⟨r, hr, hfirst, hlast⟩ := exists_of_inRanges hother
    intro u hu
    have hout := houtside r hr u hu
    omega

theorem lettered_of_isAlphabetic (h : isAlphabetic c = true) : Lettered c := by
  have houtside : ∀ r ∈ alphabetic, ∀ u ∈ unlettered, r.2 < u.1 ∨ u.2 < r.1 := by
    decide +kernel
  obtain ⟨r, hr, hfirst, hlast⟩ := exists_of_inRanges h
  intro u hu
  have hout := houtside r hr u hu
  omega

theorem isBlank_of_isSmallLetter (h : isSmallLetter c = true) : isBlank c = false :=
  (lettered_of_isSmallLetter h).isBlank

theorem isSmallLetter_of_isBlank (h : isBlank c = true) : isSmallLetter c = false := by
  apply Bool.eq_false_iff.mpr
  intro hsmall
  rw [isBlank_of_isSmallLetter hsmall] at h
  cases h

theorem isAsciiDigit_of_isBlank (h : isBlank c = true) : isAsciiDigit c = false := by
  have houtside : ∀ r ∈ whiteSpace, r.2 < 0x30 ∨ 0x39 < r.1 := by decide
  apply Bool.eq_false_iff.mpr
  intro hdigit
  obtain ⟨hzero, hnine⟩ := Bool.and_eq_true_iff.mp hdigit
  have hlow : 0x30 ≤ c.toNat := of_decide_eq_true hzero
  have hhigh : c.toNat ≤ 0x39 := of_decide_eq_true hnine
  obtain ⟨r, hr, hfirst, hlast⟩ := exists_of_inRanges h
  have hout := houtside r hr
  omega

/-! ## Capitals -/

/-- The first and the last code point of the image of a run. -/
def imageOf (r : Nat × Nat × Nat × Int) : Nat × Nat :=
  ((r.1 + r.2.2.2).toNat, (r.2.1 + r.2.2.2).toNat)

theorem toNat_ofNat (h : n.isValidChar) : (Char.ofNat n).toNat = n := by
  unfold Char.ofNat
  rw [dif_pos h]
  rfl

/-- A character of a run of capitals, as a code point of the image of the run. -/
theorem toNat_shifted {r : Nat × Nat × Nat × Int} (hr : r ∈ upperShifts) (hfirst : r.1 ≤ n)
    (hlast : n ≤ r.2.1) :
    (Char.ofNat (n + r.2.2.2).toNat).toNat = (imageOf r).1 + (n - r.1)
      ∧ (imageOf r).1 + (n - r.1) ≤ (imageOf r).2 := by
  -- no run is moved below zero or into the code points that are no characters
  have hvalid : ∀ r ∈ upperShifts, 0 ≤ r.1 + r.2.2.2
      ∧ ((imageOf r).2 < 0xD800 ∨ 0xDFFF < (imageOf r).1 ∧ (imageOf r).2 < 0x110000) := by
    decide +kernel
  obtain ⟨hlow, himage⟩ := hvalid r hr
  have hcode : (n + r.2.2.2).toNat = (imageOf r).1 + (n - r.1) := by
    unfold imageOf
    omega
  have hhigh : (imageOf r).1 + (n - r.1) ≤ (imageOf r).2 := by
    unfold imageOf
    omega
  rw [hcode]
  refine ⟨toNat_ofNat ?_, hhigh⟩
  rcases himage with hsmall | ⟨hlarge, hbound⟩
  · exact .inl (by omega)
  · exact .inr (by omega)

theorem lettered_of_mem_upper (h : Lettered c) (hd : d ∈ upper c) : Lettered d := by
  have himages : ∀ r ∈ upperShifts, ∀ u ∈ unlettered,
      (imageOf r).2 < u.1 ∨ u.2 < (imageOf r).1 := by decide +kernel
  have hexpansions : ∀ e ∈ upperExpansions, ∀ n ∈ e.2, n.isValidChar ∧ LetteredAt n := by
    decide +kernel
  unfold upper at hd
  rcases mapCase_cases upperShifts upperExpansions c with
    ⟨r, hr, hfirst, hlast, -, heq⟩ | ⟨e, he, -, heq⟩ | heq <;> rw [heq] at hd
  · obtain ⟨hcode, hhigh⟩ := toNat_shifted hr hfirst hlast
    obtain rfl := List.mem_singleton.mp hd
    intro u hu
    have hout := himages r hr u hu
    omega
  · obtain ⟨n, hn, rfl⟩ := List.mem_map.mp hd
    obtain ⟨hvalid, hletter⟩ := hexpansions e he n hn
    unfold Lettered
    rwa [toNat_ofNat hvalid]
  · obtain rfl := List.mem_singleton.mp hd
    exact h

/-- No run holds a code point of the run that goes from `a` to `b` in steps of `s`: every run lies
to a side of it, or the steps of both keep to code points of different parity. -/
def apartFrom (a b s : Nat) : List (Nat × Nat × Nat) → Bool
  | [] => true
  | (first, last, step) :: rest =>
    b.blt first
      || ((last.blt a
            || ((s % 2 == 0 || a == b) && (step % 2 == 0 || first == last)
              && a % 2 != first % 2))
          && apartFrom a b s rest)

/-- The code points of a run with an even step are all even or all odd. -/
theorem mod_two_of_run {a b s : Nat} (hfirst : a ≤ n) (hlast : n ≤ b) (hstep : (n - a) % s = 0)
    (h : s % 2 = 0 ∨ a = b) : n % 2 = a % 2 := by
  rcases h with heven | rfl
  · have hdiff := Nat.mod_mod_of_dvd (n - a) (Nat.dvd_of_mod_eq_zero heven)
    rw [hstep] at hdiff
    omega
  · rw [Nat.le_antisymm hlast hfirst]

theorem inRuns_of_apartFrom {a b s : Nat} {runs : List (Nat × Nat × Nat)}
    (h : apartFrom a b s runs = true) (hfirst : a ≤ n) (hlast : n ≤ b)
    (hstep : (n - a) % s = 0) : inRuns runs n = false := by
  induction runs with
  | nil => rfl
  | cons r rest ih =>
    obtain ⟨first, last, step⟩ := r
    unfold apartFrom at h
    unfold inRuns
    simp only [Bool.or_eq_true, Bool.and_eq_true, Nat.blt_eq, beq_iff_eq, bne_iff_ne] at h
    apply Bool.eq_false_iff.mpr
    simp only [ne_eq, Bool.and_eq_true, Bool.or_eq_true, decide_eq_true_eq, beq_iff_eq]
    rintro ⟨hlow, hrun⟩
    rcases h with habove | ⟨hside, hrest⟩
    · omega
    rcases hrun with ⟨hhigh, hmod⟩ | hmem
    · rcases hside with hbelow | ⟨⟨hsteps, hsteps'⟩, hparity⟩
      · omega
      · have hn := mod_two_of_run hfirst hlast hstep hsteps
        have hn' := mod_two_of_run hlow hhigh hmod hsteps'
        omega
    · rw [ih hrest] at hmem
      cases hmem

/-- A character is its own capital, or its capital does not start with a small letter. -/
theorem upper_eq_or_head (c : Char) :
    upper c = [c] ∨ ∃ d ds, upper c = d :: ds ∧ isSmallLetter d = false := by
  have himages : ∀ r ∈ upperShifts,
      apartFrom (imageOf r).1 (imageOf r).2 r.2.2.1 smallLetters = true := by decide +kernel
  have hexpansions : ∀ e ∈ upperExpansions, ∃ n ∈ e.2.head?,
      n.isValidChar ∧ inRuns smallLetters n = false := by decide +kernel
  unfold upper
  rcases mapCase_cases upperShifts upperExpansions c with
    ⟨r, hr, hfirst, hlast, hstep, heq⟩ | ⟨e, he, -, heq⟩ | heq
  · obtain ⟨hcode, hhigh⟩ := toNat_shifted hr hfirst hlast
    refine .inr ⟨_, [], heq, ?_⟩
    unfold isSmallLetter
    rw [hcode]
    apply inRuns_of_apartFrom (himages r hr) (Nat.le_add_right _ _) hhigh
    rwa [Nat.add_sub_cancel_left]
  · obtain ⟨n, hn, hvalid, hkind⟩ := hexpansions e he
    refine .inr ⟨Char.ofNat n, e.2.tail.map Char.ofNat, ?_, ?_⟩
    · rw [heq, ← List.map_cons, ← List.eq_cons_of_mem_head? hn]
    · unfold isSmallLetter
      rwa [toNat_ofNat hvalid]
  · exact .inl heq

/-- The first character of a capital is not capitalized any further. -/
theorem exists_upper_eq_cons (c : Char) :
    ∃ d ds, upper c = d :: ds ∧ (isSmallLetter d = true → upper d = [d]) := by
  rcases upper_eq_or_head c with heq | ⟨d, ds, heq, hkind⟩
  · exact ⟨c, [], heq, fun _ => heq⟩
  · refine ⟨d, ds, heq, fun hsmall => ?_⟩
    rw [hkind] at hsmall
    cases hsmall

theorem eq_of_ofNat_eq_w (h : Char.ofNat n = 'w') : n = 0x77 := by
  have hcode : (Char.ofNat n).toNat = 0x77 := congrArg Char.toNat h
  by_cases hvalid : n.isValidChar
  · rwa [toNat_ofNat hvalid] at hcode
  · unfold Char.ofNat at hcode
    rw [dif_neg hvalid] at hcode
    cases hcode

/-- The lower case of the two letters `w` only starts with a `w`. -/
theorem eq_w_of_lower (h : (lower c).head? = some 'w') : c = 'w' ∨ c = 'W' := by
  -- of all runs, only that of the ASCII capitals is moved across the letter
  have himages : ∀ r ∈ lowerShifts, 0 ≤ r.1 + r.2.2.2
      ∧ ((imageOf r).2 < 0x77 ∨ 0x77 < (imageOf r).1 ∨ r = (0x41, 0x5A, 1, 32)) := by
    decide +kernel
  have hexpansions : ∀ e ∈ lowerExpansions, 0x77 ∉ e.2 := by decide
  unfold lower at h
  rcases mapCase_cases lowerShifts lowerExpansions c with
    ⟨r, hr, hfirst, hlast, -, heq⟩ | ⟨e, he, -, heq⟩ | heq <;> rw [heq] at h
  · have hcode := eq_of_ofNat_eq_w (Option.some.inj h)
    obtain ⟨hlow, hside⟩ := himages r hr
    unfold imageOf at hside
    rcases hside with hbelow | habove | rfl
    · omega
    · omega
    · have hmoved : ((c.toNat : Int) + 32).toNat = 0x77 := hcode
      have hW : c.toNat = 0x57 := by omega
      exact .inr (Char.toNat_inj.mp hW)
  · rw [List.head?_map] at h
    obtain ⟨n, hn, hw⟩ := Option.map_eq_some_iff.mp h
    obtain rfl := eq_of_ofNat_eq_w hw
    exact absurd (List.mem_of_mem_head? hn) (hexpansions e he)
  · exact .inl (Option.some.inj h)

end Manuscript.Character
