import Manuscript.Proofs.Typeset.Words

/-!
# Capitals at the start of sentences

The rule for capitals reads a text once and knows three things of what it has read. A capital in the
place of a small letter changes the characters, but not what the rule knows of them: the letters of
a capital are neither stops nor white space, and a small letter that gets a capital stands behind
white space, so that it is not the letter of a dotted abbreviation.

* `Raised`: a text with capitals in the place of some small letters behind white space.
* `Known`: what the rule knows behind a text; `Known.set` sets the rest of it.
* `raised_capitalizeSentences`: the rule does nothing but put such capitals.
* `capitalizeSentences_idem`: the rule leaves alone what it gives.
* `abbreviation_of_capitalized`: where a text that the rule leaves alone has a small letter behind a
  stop.
-/

namespace Manuscript.Typeset

open Manuscript.Character

variable {previous : Option Char} {c : Char} {cs ds word : List Char}

/-! ## Texts with capitals -/

/-- The second text is the first one with capitals in the place of some small letters that stand
behind white space; `previous` is the character before the texts. -/
inductive Raised : Option Char → List Char → List Char → Prop
  | nil (previous : Option Char) : Raised previous [] []
  | keep {previous : Option Char} {cs ds : List Char} (c : Char) (h : Raised (some c) cs ds) :
      Raised previous (c :: cs) (c :: ds)
  | raise {previous : Option Char} {c : Char} {cs ds : List Char}
      (hprevious : ∃ b ∈ previous, isBlank b = true) (hc : isSmallLetter c = true)
      (h : Raised (some c) cs ds) : Raised previous (c :: cs) (upper c ++ ds)

theorem Raised.eq_nil (h : Raised previous cs []) : cs = [] := by
  generalize hds : ([] : List Char) = ds at h
  cases h with
  | nil => rfl
  | keep => cases hds
  | raise => exact absurd hds.symm (List.append_ne_nil_of_left_ne_nil (upper_ne_nil _) _)

/-- A text with capitals is made of those of its parts. -/
theorem Raised.of_append {cs' : List Char} (h : Raised previous (cs ++ cs') ds) :
    ∃ es es' middle, ds = es ++ es' ∧ Raised previous cs es ∧ Raised middle cs' es' := by
  induction cs generalizing previous ds with
  | nil => exact ⟨[], ds, previous, rfl, .nil previous, h⟩
  | cons c cs ih =>
    rw [List.cons_append] at h
    cases h with
    | keep _ h =>
      obtain ⟨es, es', middle, rfl, hes, hes'⟩ := ih h
      exact ⟨c :: es, es', middle, rfl, .keep c hes, hes'⟩
    | raise hprevious hc h =>
      obtain ⟨es, es', middle, rfl, hes, hes'⟩ := ih h
      exact ⟨upper c ++ es, es', middle, (List.append_assoc ..).symm, .raise hprevious hc hes, hes'⟩

theorem Raised.endsWord (h : Raised previous cs ds) (hcs : EndsWord cs) : EndsWord ds := by
  cases h with
  | nil => exact hcs
  | keep c _ => exact endsWord_cons.mpr (endsWord_cons.mp hcs)
  | raise _ hc _ =>
    have hblank := isBlank_of_isSmallLetter hc
    rw [endsWord_cons.mp hcs] at hblank
    cases hblank

/-- Behind a character that is not white space, no capital is put. -/
theorem Raised.behind_letter {b : Char} (h : Raised (some b) (c :: cs) ds)
    (hb : isBlank b = false) : ∃ es, ds = c :: es ∧ Raised (some c) cs es := by
  cases h with
  | keep _ h => exact ⟨_, rfl, h⟩
  | raise hprevious =>
    obtain ⟨d, hd, hblank⟩ := hprevious
    obtain rfl := Option.some.inj hd
    rw [hb] at hblank
    cases hblank

theorem Raised.head_behind_letter {b : Char} (h : Raised (some b) cs ds) (hb : isBlank b = false) :
    ds.head? = cs.head? := by
  cases cs with
  | nil =>
    cases h
    rfl
  | cons c cs =>
    obtain ⟨es, rfl, -⟩ := h.behind_letter hb
    rfl

/-- The rest of a word stays as it is. -/
theorem Raised.eq_of_letters {b : Char} (h : Raised (some b) cs ds) (hb : isBlank b = false)
    (hcs : ∀ c ∈ cs, isBlank c = false) : ds = cs := by
  induction cs generalizing b ds with
  | nil =>
    cases h
    rfl
  | cons c cs ih =>
    obtain ⟨hc, hletters⟩ := List.forall_mem_cons.mp hcs
    obtain ⟨es, rfl, hes⟩ := h.behind_letter hb
    rw [ih hes hc hletters]

/-- A capital is put nowhere in a word but at its start. -/
theorem Raised.of_word (h : Raised previous word ds) (hword : ∀ c ∈ word, isBlank c = false) :
    ds = word ∨ ∃ c rest, word = c :: rest ∧ isSmallLetter c = true ∧ ds = upper c ++ rest := by
  cases h with
  | nil => exact .inl rfl
  | keep c h =>
    obtain ⟨hc, hword⟩ := List.forall_mem_cons.mp hword
    rw [h.eq_of_letters hc hword]
    exact .inl rfl
  | raise _ hc h =>
    obtain ⟨hletter, hword⟩ := List.forall_mem_cons.mp hword
    rw [h.eq_of_letters hletter hword]
    exact .inr ⟨_, _, rfl, hc, rfl⟩

/-! ## What the rule knows -/

/-- What the rule knows of the text before a character: the two characters before it, and its
lead. -/
structure Known where
  beforeLast : Option Char := none
  last : Option Char := none
  lead : Lead := .none

namespace Known

variable {k k' : Known}

/-- What it knows behind one more character. -/
def push (k : Known) (c : Char) : Known := ⟨k.last, some c, k.lead.next k.beforeLast k.last c⟩

/-- Set the rest of a text. -/
def set (k : Known) (cs : List Char) : List Char := capitalizeFrom k.beforeLast k.last k.lead cs

/-- What a character is set as: a small letter behind a gap gets a capital. -/
def image (k : Known) (c : Char) : List Char :=
  if k.lead = .gap false ∧ isSmallLetter c = true then upper c else [c]

theorem set_cons (k : Known) (c : Char) (cs : List Char) :
    k.set (c :: cs) = k.image c ++ (k.push c).set cs := rfl

theorem set_append (k : Known) (cs ds : List Char) :
    k.set (cs ++ ds) = k.set cs ++ (cs.foldl push k).set ds := by
  induction cs generalizing k with
  | nil => rfl
  | cons c cs ih =>
    rw [List.cons_append, set_cons, set_cons, ih, List.append_assoc, List.foldl_cons]

theorem image_ne_nil (k : Known) (c : Char) : k.image c ≠ [] := by
  unfold image
  split_ifs
  · exact upper_ne_nil c
  · exact List.cons_ne_nil c []

theorem length_le_set (k : Known) (cs : List Char) : cs.length ≤ (k.set cs).length := by
  induction cs generalizing k with
  | nil => exact Nat.le_refl 0
  | cons c cs ih =>
    have hone := List.length_pos_iff.mpr (k.image_ne_nil c)
    have hrest := ih (k.push c)
    rw [set_cons, List.length_append, List.length_cons]
    omega

/-! ## Leads -/

theorem not_isStop_of_lettered (h : Lettered c) : isStop c = false := by
  apply Bool.eq_false_iff.mpr
  intro hstop
  unfold isStop at hstop
  simp only [Bool.or_eq_true, beq_iff_eq] at hstop
  rcases hstop with (rfl | rfl) | rfl <;> exact absurd h (by decide)

/-- No sentence starts right behind a character within a word, unless it is a stop. -/
theorem lead_push_of_not_isStop (hstop : isStop c = false) (hc : isBlank c = false) :
    (k.push c).lead = .none := by
  unfold push Lead.next
  dsimp only
  rw [hstop, hc, if_neg Bool.false_ne_true, if_neg Bool.false_ne_true]

theorem lead_push_of_lettered (h : Lettered c) : (k.push c).lead = .none :=
  lead_push_of_not_isStop (not_isStop_of_lettered h) h.isBlank

theorem lead_push_of_isStop (h : isStop c = true) : (k.push c).lead
    = .stop (c == '.' && k.last.any isAlphabetic && k.beforeLast == some '.') := if_pos h

theorem not_isStop_of_isBlank (h : isBlank c = true) : isStop c = false := by
  apply Bool.eq_false_iff.mpr
  intro hstop
  unfold isStop at hstop
  simp only [Bool.or_eq_true, beq_iff_eq] at hstop
  rcases hstop with (rfl | rfl) | rfl <;> cases h

/-- White space keeps in mind that a stop stands in front of it. -/
theorem lead_push_of_isBlank (h : isBlank c = true) : (k.push c).lead
    = match k.lead with
      | .stop abbreviation | .gap abbreviation => .gap abbreviation
      | .none => .none := by
  unfold push Lead.next
  dsimp only
  rw [not_isStop_of_isBlank h, if_neg Bool.false_ne_true]
  exact if_pos h

/-- A lead speaks of a gap right behind white space only. -/
theorem isBlank_of_lead_push {abbreviation : Bool} (h : (k.push c).lead = .gap abbreviation) :
    isBlank c = true := by
  unfold push Lead.next at h
  dsimp only at h
  split_ifs at h with hstop hblank
  exact hblank

/-- White space behind a stop keeps in mind whether the stop ends an abbreviation. -/
theorem lead_foldl_gap {abbreviation : Bool} {gap : List Char}
    (h : k.lead = .stop abbreviation ∨ k.lead = .gap abbreviation) (hne : gap ≠ [])
    (hgap : ∀ c ∈ gap, isBlank c = true) : (gap.foldl push k).lead = .gap abbreviation := by
  induction gap generalizing k with
  | nil => exact absurd rfl hne
  | cons c gap ih =>
    obtain ⟨hc, hgap⟩ := List.forall_mem_cons.mp hgap
    have hnext : (k.push c).lead = .gap abbreviation := by
      rw [lead_push_of_isBlank hc]
      rcases h with h | h <;> rw [h]
    rcases eq_or_ne gap [] with rfl | hne
    · exact hnext
    · exact ih (.inr hnext) hne hgap

/-! ## One pass -/

/-- The rule puts capitals behind white space only. -/
theorem raised_set
    (h : ∀ abbreviation, k.lead = .gap abbreviation → ∃ b ∈ k.last, isBlank b = true) :
    Raised k.last cs (k.set cs) := by
  induction cs generalizing k with
  | nil => exact .nil k.last
  | cons c cs ih =>
    have hrest : Raised (some c) cs ((k.push c).set cs) :=
      ih fun _ hgap => ⟨c, rfl, isBlank_of_lead_push hgap⟩
    rw [set_cons]
    unfold image
    split_ifs with hraise
    · exact .raise (h false hraise.1) hraise.2 hrest
    · exact .keep c hrest

/-! ## A second pass -/

/-- What the rule knows behind a text and behind the same text with capitals: full stops stand at
the same places, and the letter behind one is the same. -/
structure Alike (k k' : Known) : Prop where
  lead : k'.lead = k.lead
  stopBefore : k.beforeLast = some '.' ↔ k'.beforeLast = some '.'
  stopLast : k.last = some '.' ↔ k'.last = some '.'
  letter : k.beforeLast = some '.' → k'.last = k.last
  gap : ∀ abbreviation, k.lead = .gap abbreviation → k.last ≠ some '.'

/-- The same character is read on both sides. -/
theorem Alike.push (h : Alike k k') (c : Char) : Alike (k.push c) (k'.push c) where
  lead := by
    have habbreviation : (k'.last.any isAlphabetic && k'.beforeLast == some '.')
        = (k.last.any isAlphabetic && k.beforeLast == some '.') := by
      by_cases hstop : k.beforeLast = some '.'
      · rw [h.letter hstop, hstop, h.stopBefore.mp hstop]
      · rw [beq_false_of_ne hstop, beq_false_of_ne (mt h.stopBefore.mpr hstop), Bool.and_false,
          Bool.and_false]
    unfold Known.push Lead.next
    dsimp only
    rw [Bool.and_assoc, habbreviation, ← Bool.and_assoc, h.lead]
  stopBefore := h.stopLast
  stopLast := Iff.rfl
  letter _ := rfl
  gap := by
    intro abbreviation hgap hstop
    obtain rfl := Option.some.inj hstop
    cases isBlank_of_lead_push hgap

theorem some_ne_stop (h : Lettered c) : some c ≠ some '.' :=
  fun hstop => h.ne (by decide) (Option.some.inj hstop)

/-- The rule passes over letters where no sentence starts. -/
theorem set_letters (hlead : k.lead = .none) (hbefore : k.beforeLast ≠ some '.')
    (hlast : k.last ≠ some '.') (hcs : ∀ c ∈ cs, Lettered c) :
    k.set cs = cs ∧ (cs.foldl push k).lead = .none ∧ (cs.foldl push k).beforeLast ≠ some '.'
      ∧ (cs.foldl push k).last ≠ some '.' := by
  induction cs generalizing k with
  | nil => exact ⟨rfl, hlead, hbefore, hlast⟩
  | cons c cs ih =>
    obtain ⟨hc, hcs⟩ := List.forall_mem_cons.mp hcs
    obtain ⟨hset, hknown⟩ := ih (lead_push_of_lettered hc) hlast (some_ne_stop hc) hcs
    refine ⟨?_, hknown⟩
    rw [set_cons, hset]
    unfold image
    rw [hlead, if_neg (fun h => nomatch h.1)]
    rfl

/-- A capital is set as it is, and is as good as its small letter for what comes behind it. -/
theorem Alike.upper (h : Alike k k') (hlead : k.lead = .gap false) (hc : isSmallLetter c = true) :
    k'.set (upper c) = upper c ∧ Alike (k.push c) ((upper c).foldl Known.push k') := by
  obtain ⟨d, ds, hupper, hkept⟩ := exists_upper_eq_cons c
  have hsmall := lettered_of_isSmallLetter hc
  have hletters : ∀ e ∈ d :: ds, Lettered e :=
    fun e he => lettered_of_mem_upper hsmall (hupper ▸ he)
  obtain ⟨hd, hds⟩ := List.forall_mem_cons.mp hletters
  -- white space stands before the letter, so that neither side can be in an abbreviation behind it
  have hlast := h.gap false hlead
  have himage : k'.image d = [d] := by
    unfold image
    split_ifs with hraise
    · exact hkept hraise.2
    · rfl
  -- the further letters of the capital stand behind a letter, where no sentence starts
  obtain ⟨hset, hnone, hbefore, hbehind⟩ := set_letters (k := k'.push d) (lead_push_of_lettered hd)
    (mt h.stopLast.mpr hlast) (some_ne_stop hd) hds
  rw [hupper, set_cons, himage, hset, List.foldl_cons]
  exact ⟨rfl, {
    lead := by rw [hnone, lead_push_of_lettered hsmall]
    stopBefore := iff_of_false hlast hbefore
    stopLast := iff_of_false (some_ne_stop hsmall) hbehind
    letter := fun hstop => absurd hstop hlast
    gap := fun _ _ => some_ne_stop hsmall }⟩

/-- A second pass changes nothing. -/
theorem Alike.set_set (h : Alike k k') (cs : List Char) : k'.set (k.set cs) = k.set cs := by
  induction cs generalizing k k' with
  | nil => rfl
  | cons c cs ih =>
    rw [set_cons]
    by_cases hraise : k.lead = .gap false ∧ isSmallLetter c = true
    · have himage : k.image c = Character.upper c := if_pos hraise
      obtain ⟨hset, hrest⟩ := h.upper hraise.1 hraise.2
      rw [himage, set_append, hset, ih hrest]
    · have himage : k.image c = [c] := if_neg hraise
      have himage' : k'.image c = [c] := by
        unfold image
        rw [h.lead, if_neg hraise]
      rw [himage, List.singleton_append, set_cons, himage', ih (h.push c)]
      rfl

end Known

theorem raised_capitalizeSentences (cs : List Char) : Raised none cs (capitalizeSentences cs) :=
  Known.raised_set (k := {}) fun _ h => nomatch h

theorem capitalizeSentences_idem (cs : List Char) :
    capitalizeSentences (capitalizeSentences cs) = capitalizeSentences cs := by
  have hstart : Known.Alike {} {} := ⟨rfl, Iff.rfl, Iff.rfl, fun _ => rfl, fun _ h => nomatch h⟩
  exact hstart.set_set cs

/-! ## Texts that the rule leaves alone -/

/-- Texts that are no shorter than others, and the same side by side, are the same one by one. -/
theorem eq_of_append_eq {cs' ds' : List Char} (h : cs ++ ds = cs' ++ ds')
    (hcs : cs'.length ≤ cs.length) (hds : ds'.length ≤ ds.length) : cs = cs' ∧ ds = ds' := by
  have hlength := congrArg List.length h
  rw [List.length_append, List.length_append] at hlength
  exact List.append_inj h (by omega)

/-- What is known of the last two characters is what they are. -/
theorem Known.exists_of_foldl {front : List Char}
    (h : (front.foldl Known.push {}).beforeLast = some c) :
    ∃ rest d, front = rest ++ [c, d] ∧ (front.foldl Known.push {}).last = some d := by
  rcases List.eq_nil_or_concat' front with rfl | ⟨front, d, rfl⟩
  · cases h
  rw [List.foldl_append] at h ⊢
  have hlast : (front.foldl Known.push {}).last = some c := h
  rcases List.eq_nil_or_concat' front with rfl | ⟨rest, b, rfl⟩
  · cases hlast
  rw [List.foldl_append] at hlast
  obtain rfl := Option.some.inj hlast
  exact ⟨rest, d, by simp, rfl⟩

/-- In a text that the rule leaves alone, a small letter that has a capital stands behind a stop and
white space only if the stop ends a dotted abbreviation. -/
theorem abbreviation_of_capitalized {front gap back : List Char} {stop : Char}
    (h : capitalizeSentences (front ++ stop :: (gap ++ c :: back))
      = front ++ stop :: (gap ++ c :: back))
    (hstop : isStop stop = true) (hne : gap ≠ []) (hgap : ∀ d ∈ gap, isBlank d = true)
    (hc : isSmallLetter c = true) (hupper : upper c ≠ [c]) :
    stop = '.' ∧ ∃ rest letter, front = rest ++ ['.', letter] ∧ isAlphabetic letter = true := by
  have hsplit : front ++ stop :: (gap ++ c :: back) = (front ++ stop :: gap) ++ c :: back := by simp
  have hset : Known.set {} (front ++ stop :: gap)
      ++ ((front ++ stop :: gap).foldl Known.push {}).set (c :: back)
      = (front ++ stop :: gap) ++ c :: back := by
    rw [← Known.set_append, ← hsplit]
    exact h
  -- no part becomes shorter, so that each part is left alone if the text is
  have hrest := (eq_of_append_eq hset (Known.length_le_set ..) (Known.length_le_set ..)).2
  rw [List.foldl_append, List.foldl_cons] at hrest
  have hlead := Known.lead_foldl_gap
    (.inl (Known.lead_push_of_isStop (k := front.foldl Known.push {}) hstop)) hne hgap
  by_cases habbreviation : (stop == '.' && (front.foldl Known.push {}).last.any isAlphabetic
      && (front.foldl Known.push {}).beforeLast == some '.') = true
  · simp only [Bool.and_eq_true, beq_iff_eq] at habbreviation
    obtain ⟨⟨hmark, hletter⟩, hbefore⟩ := habbreviation
    obtain ⟨rest, letter, hfront, hlast⟩ := Known.exists_of_foldl hbefore
    rw [hlast] at hletter
    exact ⟨hmark, rest, letter, hfront, hletter⟩
  · -- otherwise the letter would have got its capital
    rw [Bool.eq_false_iff.mpr habbreviation] at hlead
    have himage : Known.image (gap.foldl Known.push ((front.foldl Known.push {}).push stop)) c
        = upper c := if_pos ⟨hlead, hc⟩
    rw [Known.set_cons, himage, ← List.singleton_append] at hrest
    have hone := eq_of_append_eq hrest (List.length_pos_iff.mpr (upper_ne_nil c))
      (Known.length_le_set ..)
    exact absurd hone.1 hupper

end Manuscript.Typeset
