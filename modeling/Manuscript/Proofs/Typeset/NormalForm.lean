import Manuscript.Proofs.Typeset.Orderly

/-!
# The normal form of a text

A text that has been set is in a normal form: each of the text rules leaves it alone, although each
of them may bring about what an earlier one removes. The normal form is also said without the rules,
by what stands in front of and behind the characters of the text.

* `orderly_normalize`, `spaceAfter_normalize`, `capitalizeSentences_normalize`: no rule changes a
  text that has been set.
* `Tidy`: the normal form, character by character.
* `normalize_tidy`, `normalize_idem`: a text that has been set is in normal form, and setting it
  again changes nothing.
-/

namespace Manuscript.Typeset

open Manuscript.Character

variable {policy : WhitespacePolicy} {p : Char → Bool} {previous : Option Char} {c mark : Char}
  {r : List Char}

/-! ## No rule changes a text that has been set -/

section

variable (hp : Marks p) (policy : WhitespacePolicy) (cs : List Char)

include hp

theorem orderly_normalize (strict : Bool) : Orderly policy p (normalize policy strict p cs) := by
  have htight := orderly_tighten hp policy cs
  unfold normalize
  cases strict with
  | false => exact htight
  | true => exact (htight.spaceAfter hp).raised hp (raised_capitalizeSentences _)

theorem spaceAfter_normalize :
    spaceAfter p (normalize policy true p cs) = normalize policy true p cs := by
  have hspaced := spaced_spaceAfter hp (tighten policy p (normalizeWhitespace policy cs))
  exact (hspaced.raised hp (raised_capitalizeSentences _)).spaceAfter_eq hp

omit hp in
theorem capitalizeSentences_normalize :
    capitalizeSentences (normalize policy true p cs) = normalize policy true p cs :=
  capitalizeSentences_idem _

end

theorem normalize_eq_self {strict : Bool} (h : Orderly policy p r)
    (hstrict : strict = true → spaceAfter p r = r ∧ capitalizeSentences r = r) :
    normalize policy strict p r = r := by
  unfold normalize
  rw [h.normalizeWhitespace_eq, h.tighten_eq]
  dsimp only
  split_ifs with hs
  · obtain ⟨hspaced, hcapitals⟩ := hstrict hs
    rw [hspaced, hcapitals]
  · rfl

/-- Setting a text that has been set changes nothing. -/
theorem normalize_idem (policy : WhitespacePolicy) (strict : Bool) (g : Guide) (cs : List Char) :
    normalize policy strict g.isPunctuation (normalize policy strict g.isPunctuation cs)
      = normalize policy strict g.isPunctuation cs := by
  apply normalize_eq_self (orderly_normalize (marks_isPunctuation g) policy cs strict)
  rintro rfl
  exact ⟨spaceAfter_normalize (marks_isPunctuation g) policy cs,
    capitalizeSentences_normalize policy cs⟩

/-- The spaces make an address of a part of a word, and the capital has two letters. -/
example : normalize .no true Guide.mla9.isPunctuation "see a.www.bc .\t ßo, i.e.all".toList
    = "see a. Www. Bc. SSo, i.e. all".toList := by decide +kernel

/-! ## What stands behind a mark -/

/-- What may stand behind a punctuation mark; `previous` is the character in front of it. -/
inductive Followed (p : Char → Bool) (previous : Option Char) (mark : Char) : List Char → Prop
  | nothing : Followed p previous mark []
  | blank {next : Char} {later : List Char} (h : isBlank next = true) :
      Followed p previous mark (next :: later)
  | mark {next : Char} {later : List Char} (h : p next = true) :
      Followed p previous mark (next :: later)
  | closing {next : Char} {later : List Char} (h : next ∈ closingMarks) :
      Followed p previous mark (next :: later)
  | digit {next : Char} {later : List Char} (hprevious : ∃ d ∈ previous, isAsciiDigit d = true)
      (h : isAsciiDigit next = true) : Followed p previous mark (next :: later)
  | abbreviation {next : Char} {later : List Char} (hmark : mark = '.')
      (h : isAlphabetic next = true) : Followed p previous mark (next :: '.' :: later)

theorem followed_of_takesSpace {cs : List Char} (hmark : p mark = true)
    (h : takesSpace p previous mark cs = false) : Followed p previous mark cs := by
  cases cs with
  | nil => exact .nothing
  | cons next later =>
    rw [takesSpace_cons_iff, needsSpaceAfter_eq_false_iff] at h
    rcases h with hplain | hblank | hnext | hclosing | ⟨hdigit, hnext⟩ | ⟨hstop, hletter, hlater⟩
    · rw [hmark] at hplain
      cases hplain
    · exact .blank hblank
    · exact .mark hnext
    · exact .closing hclosing
    · cases previous with
      | none => cases hdigit
      | some d => exact .digit ⟨d, rfl, hdigit⟩ hnext
    · cases later with
      | nil => cases hlater
      | cons d ds =>
        obtain rfl := Option.some.inj hlater
        exact .abbreviation hstop hletter

/-- In a text that the rule leaves alone, no mark outside of an address takes a space. -/
theorem takesSpace_of_spaceAfterFrom_eq {x : Char × Bool} {front rest : List (Char × Bool)}
    (h : spaceAfterFrom p previous (front ++ x :: rest) = (front ++ x :: rest).map Prod.fst)
    (hx : x.2 = false) :
    takesSpace p ((front.map Prod.fst).getLast?.or previous) x.1 (rest.map Prod.fst) = false := by
  have hstep {previous : Option Char} {x : Char × Bool} {rest : List (Char × Bool)}
      (h : spaceAfterFrom p previous (x :: rest) = (x :: rest).map Prod.fst) :
      (!x.2 && takesSpace p previous x.1 (rest.map Prod.fst)) = false
        ∧ spaceAfterFrom p (some x.1) rest = rest.map Prod.fst := by
    rw [spaceAfterFrom_cons, List.map_cons] at h
    split_ifs at h with hspace
    · -- the space would stand in front of white space, which needs none
      obtain ⟨-, next, later, hrest, hletter, -⟩ := of_takesSpace (Bool.and_eq_true_iff.mp hspace).2
      rw [hrest] at h
      obtain rfl := (List.cons.inj (List.cons.inj h).2).1
      cases hletter
    · exact ⟨Bool.eq_false_iff.mpr hspace, (List.cons.inj h).2⟩
  induction front generalizing previous with
  | nil =>
    have hnone := (hstep h).1
    rwa [hx, Bool.not_false, Bool.true_and] at hnone
  | cons y front ih =>
    have hlast : ((y :: front).map Prod.fst).getLast?.or previous
        = (front.map Prod.fst).getLast?.or (some y.1) := by
      rw [List.map_cons, List.getLast?_cons]
      cases (front.map Prod.fst).getLast? <;> rfl
    rw [hlast]
    exact ih (hstep h).2

/-! ## The normal form -/

/-- The text is in normal form. -/
structure Tidy (policy : WhitespacePolicy) (strict : Bool) (p : Char → Bool) (r : List Char) :
    Prop where
  /-- No space stands at an end. -/
  ends : r.head? ≠ some ' ' ∧ r.getLast? ≠ some ' '
  /-- No space stands in front of a mark, and no tab unless white space is escaped. -/
  tight : ∀ front c mark back, r = front ++ c :: mark :: back → p mark = true →
    c ≠ ' ' ∧ (policy ≠ .escaped → c ≠ '\t')
  /-- White space that is not allowed is one space between other characters. -/
  single : policy = .no → ∀ front c back, r = front ++ c :: back → isBlank c = true →
    c = ' ' ∧ (∃ b ∈ front.getLast?, isBlank b = false) ∧ ∃ d ∈ back.head?, isBlank d = false
  /-- Where white space is escaped, no two spaces stand side by side. -/
  apart : policy = .escaped → ∀ front back, r ≠ front ++ ' ' :: ' ' :: back
  /-- Outside of words that look like addresses, marks are followed as they should be. -/
  spaced : strict = true → ∀ front u mark v back, r = front ++ ((u ++ mark :: v) ++ back) →
    (∀ c ∈ front.getLast?, isBlank c = true) → (∀ c ∈ u ++ mark :: v, isBlank c = false) →
      (∀ c ∈ back.head?, isBlank c = true) → ¬ IsWebAddress (u ++ mark :: v) →
        p mark = true → Followed p (front ++ u).getLast? mark (v ++ back)
  /-- A small letter that has a capital stands behind a stop and white space only if the stop ends
  a dotted abbreviation. -/
  capitals : strict = true → ∀ front stop gap c back, r = front ++ stop :: (gap ++ c :: back) →
    stop ∈ ['.', '!', '?'] → gap ≠ [] → (∀ d ∈ gap, isBlank d = true) →
      isSmallLetter c = true → upper c ≠ [c] →
        stop = '.' ∧ ∃ rest letter, front = rest ++ ['.', letter] ∧ isAlphabetic letter = true

theorem Orderly.tight (h : Orderly policy p r) {front back : List Char}
    (hr : r = front ++ c :: mark :: back) (hmark : p mark = true) :
    c ≠ ' ' ∧ (policy ≠ .escaped → c ≠ '\t') := by
  have hmeet := List.isChain_iff_forall_rel_of_append_cons_cons.mp h.chain hr
  have hnot : ¬ isDroppable policy c = true := fun hc =>
    Bool.false_ne_true ((hmeet.tight hc).symm.trans hmark)
  unfold isDroppable at hnot
  constructor
  · rintro rfl
    exact hnot rfl
  · rintro hpolicy rfl
    simp [hpolicy] at hnot

theorem Orderly.single (h : Orderly .no p r) {front back : List Char} (hr : r = front ++ c :: back)
    (hc : isBlank c = true) : c = ' ' ∧ (∃ b ∈ front.getLast?, isBlank b = false)
      ∧ ∃ d ∈ back.head?, isBlank d = false := by
  have hspace : c = ' ' := h.spaces c (by rw [hr]; simp) hc
  refine ⟨hspace, ?_, ?_⟩
  · rcases List.eq_nil_or_concat' front with rfl | ⟨front, b, rfl⟩
    · have hhead := h.head c (by rw [hr]; rfl)
      rw [hspace] at hhead
      cases hhead
    · have hmeet := List.isChain_iff_forall_rel_of_append_cons_cons.mp h.chain
        (show r = front ++ b :: c :: back by rw [hr]; simp)
      refine ⟨b, by simp, Bool.eq_false_iff.mpr fun hb => ?_⟩
      exact Bool.false_ne_true ((hmeet.alone hb).symm.trans hc)
  · cases back with
    | nil =>
      have hlast := h.last c (by rw [hr]; simp)
      rw [hspace] at hlast
      cases hlast
    | cons d back =>
      have hmeet := List.isChain_iff_forall_rel_of_append_cons_cons.mp h.chain hr
      exact ⟨d, rfl, hmeet.alone hc⟩

theorem Orderly.apart (h : Orderly .escaped p r) (front back : List Char) :
    r ≠ front ++ ' ' :: ' ' :: back := by
  intro hr
  cases (List.isChain_iff_forall_rel_of_append_cons_cons.mp h.chain hr).alone rfl

/-- In a text that the rule leaves alone, the marks of a word that does not look like an address are
followed as they should be. -/
theorem followed_of_spaceAfter_eq {front u v back : List Char}
    (h : spaceAfter p (front ++ ((u ++ mark :: v) ++ back)) = front ++ ((u ++ mark :: v) ++ back))
    (hfront : ∀ c ∈ front.getLast?, isBlank c = true)
    (hword : ∀ c ∈ u ++ mark :: v, isBlank c = false) (hback : EndsWord back)
    (hplain : ¬ IsWebAddress (u ++ mark :: v)) (hmark : p mark = true) :
    Followed p (front ++ u).getLast? mark (v ++ back) := by
  have haddress : isAddress (u ++ mark :: v) = false :=
    Bool.eq_false_iff.mpr fun haddress => hplain (isAddress_iff.mp haddress)
  -- the word is marked as a whole, on its own, so that its mark is not in an address
  have hmarked : markAddresses (front ++ ((u ++ mark :: v) ++ back))
      = (markAddresses front ++ u.map fun c => (c, false))
        ++ (mark, false) :: ((v.map fun c => (c, false)) ++ markAddresses back) := by
    rw [markAddresses_around hfront ⟨by simp, hword⟩ hback, haddress]
    simp
  have hleft : (markAddresses front ++ u.map fun c => (c, false)).map Prod.fst = front ++ u := by
    rw [List.map_append, map_fst_markAddresses, map_fst_marked]
  have hright : ((v.map fun c => (c, false)) ++ markAddresses back).map Prod.fst = v ++ back := by
    rw [List.map_append, map_fst_markAddresses, map_fst_marked]
  have hfixed : spaceAfterFrom p none (markAddresses (front ++ ((u ++ mark :: v) ++ back)))
      = (markAddresses (front ++ ((u ++ mark :: v) ++ back))).map Prod.fst := by
    rw [map_fst_markAddresses]
    exact h
  rw [hmarked] at hfixed
  have hnone := takesSpace_of_spaceAfterFrom_eq hfixed rfl
  rw [hleft, hright, Option.or_none] at hnone
  exact followed_of_takesSpace hmark hnone

/-- Text that has been set is in normal form. -/
theorem normalize_tidy (policy : WhitespacePolicy) (strict : Bool) (g : Guide) (cs : List Char) :
    Tidy policy strict g.isPunctuation (normalize policy strict g.isPunctuation cs) where
  ends := by
    have horderly := orderly_normalize (marks_isPunctuation g) policy cs strict
    constructor
    · intro hhead
      cases horderly.head ' ' hhead
    · intro hlast
      cases horderly.last ' ' hlast
  tight _ _ _ _ hr hmark :=
    (orderly_normalize (marks_isPunctuation g) policy cs strict).tight hr hmark
  single := by
    rintro rfl front c back hr hc
    exact (orderly_normalize (marks_isPunctuation g) .no cs strict).single hr hc
  apart := by
    rintro rfl
    exact (orderly_normalize (marks_isPunctuation g) .escaped cs strict).apart
  spaced := by
    rintro rfl front u mark v back hr hfront hword hback hplain hmark
    have hfixed := spaceAfter_normalize (marks_isPunctuation g) policy cs
    rw [hr] at hfixed
    exact followed_of_spaceAfter_eq hfixed hfront hword hback hplain hmark
  capitals := by
    rintro rfl front stop gap c back hr hstop hne hgap hc hupper
    have hfixed := capitalizeSentences_normalize policy cs (p := g.isPunctuation)
    rw [hr] at hfixed
    have hends : isStop stop = true := by
      unfold isStop
      simpa [or_assoc] using hstop
    exact abbreviation_of_capitalized hfixed hends hne hgap hc hupper

end Manuscript.Typeset
