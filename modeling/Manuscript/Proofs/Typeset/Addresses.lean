import Manuscript.Proofs.Typeset.Orderly

/-!
# Addresses in a text that is set

The rule for the spaces behind punctuation leaves the words alone that look like web addresses, and
so do the rules for white space. The rule for capitals does not know of addresses: it puts a capital
at the start of one that stands behind the end of a sentence.

* `closesSentence`: a word ends with a stop that is not that of a dotted abbreviation.
* `setAddresses`: the addresses of a text in the form that they are set in.
* `addresses_normalize`: they are words of the set text, in their order.
* `capital_in_address`: an address with a capital that it did not have.
-/

namespace Manuscript.Typeset

open Manuscript.Character

variable {p : Char → Bool} {b c : Char} {cs ds word : List Char}

/-! ## White space -/

theorem words_collapse (cs : List Char) : Text.words (collapse isBlank cs) = Text.words cs := by
  have hfrom (word : List Char) :
      Text.wordsFrom word (collapse isBlank cs) = Text.wordsFrom word cs := by
    induction cs generalizing word with
    | nil => rfl
    | cons c cs ih =>
      unfold collapse
      split_ifs with hc hnext
      · -- of white space in a row, the last character stands for all
        obtain ⟨d, hhead, hd⟩ := (Option.any_eq_true ..).mp hnext
        obtain ⟨ds, rfl⟩ := List.head?_eq_some_iff.mp hhead
        rw [ih, wordsFrom_blank hd, wordsFrom_blank hc, words_blank hd]
      · have hrest : Text.words (collapse isBlank cs) = Text.words cs := ih []
        rw [wordsFrom_blank rfl, wordsFrom_blank hc, hrest]
      · rw [wordsFrom_letter (Bool.eq_false_iff.mpr hc), ih,
          wordsFrom_letter (Bool.eq_false_iff.mpr hc)]
  exact hfrom []

/-- No white space stands in front of punctuation. -/
def Tight (p : Char → Bool) (cs : List Char) : Prop :=
  cs.IsChain fun c d => isBlank c = true → p d = false

theorem Tight.collapse (h : Tight p cs) : Tight p (collapse isBlank cs) := by
  induction cs with
  | nil => exact .nil
  | cons c cs ih =>
    obtain ⟨hnext, hrest⟩ := List.isChain_cons.mp h
    unfold Typeset.collapse
    split_ifs with hc hany
    · exact ih hrest
    · apply (ih hrest).cons
      intro d hd _
      -- the text behind the white space starts as it did
      cases cs with
      | nil => cases hd
      | cons e es =>
        have he : ¬ isBlank e = true := hany
        unfold Typeset.collapse at hd
        rw [if_neg he] at hd
        exact hnext d hd hc
    · exact (ih hrest).cons fun d _ hblank => absurd hblank hc

/-- Where no white space stands in front of punctuation, there is nothing to draw up. -/
theorem Tight.tighten_eq (h : Tight p cs) :
    tighten .no p (normalizeWhitespace .no cs) = normalizeWhitespace .no cs := by
  apply tightenFrom_eq_self (List.forall_mem_nil _)
  have htight : Tight p (normalizeWhitespace .no cs) :=
    List.IsChain.infix h.collapse (Text.infix_trimBoth isSpace _)
  exact htight.imp fun c d hcd hc => hcd (isBlank_of_isDroppable hc)

/-! ## Ends of words -/

/-- The text ends with a dotted abbreviation: a letter between two full stops. -/
def endsAbbreviation (cs : List Char) : Bool :=
  match cs.reverse with
  | last :: letter :: first :: _ => last == '.' && isAlphabetic letter && first == '.'
  | _ => false

/-- The word ends a sentence: it ends with a stop, but not with a dotted abbreviation. -/
def closesSentence (word : List Char) : Bool :=
  word.getLast?.any isStop && !endsAbbreviation word

theorem endsAbbreviation_concat (cs : List Char) (first letter last : Char) :
    endsAbbreviation (cs ++ [first, letter, last])
      = (last == '.' && isAlphabetic letter && first == '.') := by
  simp [endsAbbreviation]

/-- Only the last three characters matter. -/
theorem endsAbbreviation_cons (c : Char) (h : 3 ≤ cs.length) :
    endsAbbreviation (c :: cs) = endsAbbreviation cs := by
  have hlength : 3 ≤ cs.reverse.length := by rwa [List.length_reverse]
  unfold endsAbbreviation
  rw [List.reverse_cons]
  match cs.reverse, hlength with
  | _ :: _ :: _ :: _, _ => rfl

theorem length_le_spaceAfterFrom (p : Char → Bool) (previous : Option Char)
    (marked : List (Char × Bool)) : marked.length ≤ (spaceAfterFrom p previous marked).length := by
  induction marked generalizing previous with
  | nil => exact Nat.le_refl 0
  | cons x rest ih =>
    have hrest := ih (some x.1)
    rw [spaceAfterFrom_cons]
    split_ifs <;> simp only [List.length_cons] <;> omega

/-- A space is put neither into a dotted abbreviation nor so that one comes about. -/
theorem endsAbbreviation_spaceAfterFrom (hstop : p '.' = true) (previous : Option Char)
    (marked : List (Char × Bool)) :
    endsAbbreviation (spaceAfterFrom p previous marked)
      = endsAbbreviation (marked.map Prod.fst) := by
  have hspace : isAlphabetic ' ' = false := by decide
  induction marked generalizing previous with
  | nil => rfl
  | cons x rest ih =>
    match rest, ih with
    | [], _ => rfl
    | [y], _ =>
      have hlast : spaceAfterFrom p (some x.1) [y] = [y.1] := rfl
      rw [spaceAfterFrom_cons, hlast]
      split_ifs
      · simp [endsAbbreviation, hspace]
      · rfl
    | [y, z], _ =>
      have hlast : spaceAfterFrom p (some y.1) [z] = [z.1] := rfl
      rw [spaceAfterFrom_cons, spaceAfterFrom_cons, hlast]
      by_cases habbreviation : z.1 = '.' ∧ isAlphabetic y.1 = true ∧ x.1 = '.'
      · -- neither the letter, in front of a stop, nor the stop in front of it takes a space
        obtain ⟨hz, hy, hx⟩ := habbreviation
        have hletter : takesSpace p (some x.1) y.1 [z.1] = false := by
          rw [takesSpace_cons_iff, needsSpaceAfter_eq_false_iff, hz]
          exact .inr (.inr (.inl hstop))
        have hfirst : takesSpace p previous x.1 [y.1, z.1] = false := by
          rw [takesSpace_cons_iff, needsSpaceAfter_eq_false_iff, hz]
          exact .inr (.inr (.inr (.inr (.inr ⟨hx, hy, rfl⟩))))
        simp [hletter, hfirst]
      · split_ifs <;> simp [endsAbbreviation, hspace] <;> tauto
    | y :: z :: w :: later, ih =>
      -- the first character is none of the last three, with or without spaces
      have hbehind := length_le_spaceAfterFrom p (some x.1) (y :: z :: w :: later)
      have hlong : 3 ≤ (y :: z :: w :: later).length := by simp
      rw [List.map_cons, endsAbbreviation_cons _ (by simp), ← ih (some x.1), spaceAfterFrom_cons]
      split_ifs
      · rw [endsAbbreviation_cons, endsAbbreviation_cons]
        · omega
        · rw [List.length_cons]
          omega
      · exact endsAbbreviation_cons _ (by omega)

/-- Spaces behind the marks of a text leave its end as it is. -/
theorem closesSentence_spaceAfter (hstop : p '.' = true) (cs : List Char) :
    closesSentence (spaceAfter p cs) = closesSentence cs := by
  have habbreviation : endsAbbreviation (spaceAfter p cs) = endsAbbreviation cs := by
    unfold spaceAfter
    rw [endsAbbreviation_spaceAfterFrom hstop, map_fst_markAddresses]
  unfold closesSentence
  rw [last_spaceAfter, habbreviation]

/-! ## Addresses -/

/-- A word with a capital at its start, if it starts with a small letter. -/
def capitalizeWord : List Char → List Char
  | [] => []
  | c :: rest => (if isSmallLetter c then upper c else [c]) ++ rest

/-- A word as it is set behind another one: it gets a capital if that one ends a sentence. -/
def setBehind (previous : Option (List Char)) (word : List Char) : List Char :=
  if previous.any closesSentence then capitalizeWord word else word

/-- The words that look like web addresses, as they are set behind a word. -/
def setAddresses (previous : Option (List Char)) : List (List Char) → List (List Char)
  | [] => []
  | word :: rest =>
    if IsWebAddress word then setBehind previous word :: setAddresses (some word) rest
    else setAddresses (some word) rest

theorem IsWord.capitalize (h : IsWord word) : IsWord (capitalizeWord word) := by
  cases word with
  | nil => exact absurd rfl h.ne_nil
  | cons c rest =>
    obtain ⟨hc, hrest⟩ := List.forall_mem_cons.mp h.letters
    rw [capitalizeWord]
    split_ifs with hsmall
    · refine ⟨List.append_ne_nil_of_left_ne_nil (upper_ne_nil c) rest, ?_⟩
      have hupper : ∀ d ∈ upper c, isBlank d = false :=
        fun d hd => (lettered_of_mem_upper (lettered_of_isSmallLetter hsmall) hd).isBlank
      exact List.forall_mem_append.mpr ⟨hupper, hrest⟩
    · exact h

theorem IsWord.setBehind (h : IsWord word) (previous : Option (List Char)) :
    IsWord (setBehind previous word) := by
  unfold Typeset.setBehind
  split_ifs
  · exact h.capitalize
  · exact h

namespace Known

variable {k : Known} {previous : Option (List Char)}

/-- What stands in front of a text is white space, or nothing does. -/
structure AtWord (k : Known) : Prop where
  last : ∀ b ∈ k.last, isBlank b = true
  lead : ∀ abbreviation, k.lead ≠ .stop abbreviation

/-- The last word in front of a text ended a sentence, or it did not. -/
def Behind (k : Known) (previous : Option (List Char)) : Prop :=
  (k.lead = .stop false ∨ k.lead = .gap false) ↔ previous.any closesSentence = true

theorem AtWord.push (hc : isBlank c = true) (k : Known) : (k.push c).AtWord where
  last b hb := by
    obtain rfl := Option.some.inj hb
    exact hc
  lead abbreviation := by
    rw [lead_push_of_isBlank hc]
    cases k.lead <;> simp

/-- White space makes no difference to the word in front of it. -/
theorem Behind.push (h : k.Behind previous) (hc : isBlank c = true) :
    (k.push c).Behind previous := by
  unfold Behind at h ⊢
  rw [← h, lead_push_of_isBlank hc]
  cases k.lead <;> simp

/-- At the end of a text, what is known tells of a dotted abbreviation. -/
theorem endsAbbreviation_foldl (hk : k.AtWord) (front : List Char) (c : Char) :
    (c == '.' && (front.foldl Known.push k).last.any isAlphabetic
      && (front.foldl Known.push k).beforeLast == some '.') = endsAbbreviation (front ++ [c]) := by
  rcases List.eq_nil_or_concat' front with rfl | ⟨front, letter, rfl⟩
  · -- in front of the text stands no letter
    have hnone : k.last.any isAlphabetic = false := by
      apply Bool.eq_false_iff.mpr
      intro hletter
      obtain ⟨b, hb, hletter⟩ := (Option.any_eq_true ..).mp hletter
      have hvisible := (lettered_of_isAlphabetic hletter).isBlank
      rw [hk.last b hb] at hvisible
      cases hvisible
    rw [List.foldl_nil, hnone, Bool.and_false]
    rfl
  rcases List.eq_nil_or_concat' front with rfl | ⟨front, first, rfl⟩
  · -- nor does a stop
    have hnone : (k.last == some '.') = false := by
      apply beq_false_of_ne
      intro hstop
      cases hk.last '.' hstop
    show (c == '.' && (some letter).any isAlphabetic && k.last == some '.') = _
    rw [hnone, Bool.and_false]
    rfl
  · have hsplit : front ++ [first] ++ [letter] ++ [c] = front ++ [first, letter, c] := by simp
    rw [hsplit, endsAbbreviation_concat, List.foldl_append, List.foldl_append]
    rfl

/-- What is known at the end of a word says whether the word ends a sentence. -/
theorem behind_foldl (hk : k.AtWord) (hcs : cs ≠ [])
    (hlast : ∀ c ∈ cs.getLast?, isBlank c = false) : (cs.foldl Known.push k).Behind (some cs) := by
  obtain ⟨front, c, rfl⟩ := (List.eq_nil_or_concat' cs).resolve_left hcs
  have hc : isBlank c = false := hlast c List.getLast?_concat
  unfold Behind closesSentence
  rw [Option.any_some, List.getLast?_concat, Option.any_some, List.foldl_append, List.foldl_cons,
    List.foldl_nil]
  cases hstop : isStop c with
  | false =>
    rw [lead_push_of_not_isStop hstop hc]
    simp
  | true =>
    rw [lead_push_of_isStop hstop, endsAbbreviation_foldl hk]
    cases endsAbbreviation (front ++ [c]) <;> simp

/-- White space is set as it is. -/
theorem set_blank (hc : isBlank c = true) (k : Known) (cs : List Char) :
    k.set (c :: cs) = c :: (k.push c).set cs := by
  have himage : k.image c = [c] := by
    apply if_neg
    rw [isSmallLetter_of_isBlank hc]
    exact fun h => Bool.false_ne_true h.2
  rw [set_cons, himage]
  rfl

theorem endsWord_set (h : EndsWord cs) (k : Known) : EndsWord (k.set cs) := by
  cases cs with
  | nil => exact endsWord_nil
  | cons c cs =>
    have hc := endsWord_cons.mp h
    rw [set_blank hc]
    exact endsWord_cons.mpr hc

/-- A word is set as it is, but for a capital behind the end of a sentence. -/
theorem set_word (hk : k.AtWord) (hbehind : k.Behind previous) (hword : IsWord word) :
    k.set word = setBehind previous word := by
  cases word with
  | nil => exact absurd rfl hword.ne_nil
  | cons c rest =>
    obtain ⟨hc, hrest⟩ := List.forall_mem_cons.mp hword.letters
    -- behind its first character, a word is not changed any more
    have hraised : Raised (some c) rest ((k.push c).set rest) :=
      raised_set fun _ hgap => ⟨c, rfl, isBlank_of_lead_push hgap⟩
    have hkept : (k.push c).set rest = rest := hraised.eq_of_letters hc hrest
    have hgap : k.lead = .gap false ↔ previous.any closesSentence = true :=
      ⟨fun h => hbehind.mp (.inr h), fun h => (hbehind.mpr h).resolve_left (hk.lead false)⟩
    rw [set_cons, hkept]
    unfold setBehind image
    by_cases hends : previous.any closesSentence = true
    · rw [if_pos hends, hgap.mpr hends, capitalizeWord]
      simp
    · rw [if_neg hends, if_neg fun h => hends (hgap.mp h.1)]
      rfl

end Known

/-- Behind a word that was spaced, the same is known as behind the word itself. -/
theorem behind_spaceAfter {k : Known} (hstop : p '.' = true) (hk : k.AtWord)
    (hword : IsWord word) : ((spaceAfter p word).foldl Known.push k).Behind (some word) := by
  have hne : spaceAfter p word ≠ [] := by
    intro hnil
    have hhead := head_spaceAfter p word
    rw [hnil] at hhead
    exact hword.ne_nil (List.head?_eq_none_iff.mp hhead.symm)
  have hlast : ∀ c ∈ (spaceAfter p word).getLast?, isBlank c = false := by
    rw [last_spaceAfter]
    exact fun c hc => hword.letters c (List.mem_of_getLast? hc)
  have hbehind := Known.behind_foldl hk hne hlast
  unfold Known.Behind at hbehind ⊢
  rwa [Option.any_some, closesSentence_spaceAfter hstop] at hbehind

/-- The words of a set text are those of its parts, and an address is set as one word. -/
theorem addresses_set (hp : Marks p) (hstop : p '.' = true) (cs : List Char) (k : Known)
    (previous : Option (List Char)) (hbehind : k.Behind previous)
    (hk : EndsWord cs ∨ k.AtWord) :
    (setAddresses previous (Text.words cs)).Sublist (Text.words (k.set (spaceAfter p cs))) := by
  induction worded cs generalizing k previous with
  | nil => exact List.nil_sublist _
  | @blank c cs hc _ ih =>
    rw [spaceAfter_blank hp hc, Known.set_blank hc, words_blank hc, words_blank hc]
    exact ih (k.push c) previous (hbehind.push hc) (.inr (.push hc k))
  | @word word cs hword hcs _ ih =>
    have hstart := hk.resolve_left (hword.not_endsWord cs)
    -- behind the word, white space comes first, so that nothing is asked of what is known there
    have hrest := ih _ (some word) (behind_spaceAfter hstop hstart hword) (.inl hcs)
    have hends := Known.endsWord_set (endsWord_spaceAfter (p := p) hcs)
    rw [spaceAfter_append hp hcs, Known.set_append, words_append (hends _), words_append hcs,
      words_word hword, List.singleton_append]
    unfold setAddresses
    split_ifs with haddress
    · -- no space is put into the address, and it remains one word with its capital
      rw [spaceAfter_address hword haddress] at hrest ⊢
      rw [Known.set_word hstart hbehind hword, words_word (hword.setBehind previous)]
      exact hrest.cons_cons _
    · exact hrest.trans (List.sublist_append_right _ _)

/-- The second word gets no capital behind the first one, at least if it looks like an address. -/
def KeepsAddress (word next : List Char) : Prop :=
  closesSentence word = true → IsWebAddress next → ∀ c ∈ next.head?, isSmallLetter c = false

theorem capitalizeWord_eq_self (h : ∀ c ∈ word.head?, isSmallLetter c = false) :
    capitalizeWord word = word := by
  cases word with
  | nil => rfl
  | cons c rest =>
    rw [capitalizeWord, h c rfl]
    rfl

/-- Where no address gets a capital, the addresses are set as they are. -/
theorem setAddresses_eq_filter {previous : Option (List Char)} {ws : List (List Char)}
    (h : (previous.toList ++ ws).IsChain KeepsAddress) :
    setAddresses previous ws = ws.filter IsWebAddress := by
  induction ws generalizing previous with
  | nil => rfl
  | cons word rest ih =>
    obtain ⟨-, hws, hborder⟩ := List.isChain_append.mp h
    have hrest : setAddresses (some word) rest = rest.filter IsWebAddress := ih hws
    unfold setAddresses
    rw [hrest]
    split_ifs with haddress
    · have hset : setBehind previous word = word := by
        unfold setBehind
        split_ifs with hends
        · obtain ⟨before, rfl, hcloses⟩ := (Option.any_eq_true ..).mp hends
          exact capitalizeWord_eq_self (hborder before rfl word rfl hcloses haddress)
        · rfl
      rw [hset, List.filter_cons, if_pos (decide_eq_true haddress)]
    · rw [List.filter_cons, if_neg (by simpa using haddress)]

/-- The words of a text that look like addresses, as they are set, are words of the set text in
their order. They are set as they are, but for a capital that a small letter gets behind the end of
a sentence. -/
theorem addresses_normalize (g : Guide) (cs : List Char) (h : Tight g.isPunctuation cs) :
    let set := normalize .no true g.isPunctuation cs
    (setAddresses none (Text.words cs)).Sublist (Text.words set)
      ∧ ((Text.words cs).IsChain KeepsAddress →
        ((Text.words cs).filter IsWebAddress).Sublist (Text.words set)) := by
  have hp := marks_isPunctuation g
  have hwords : Text.words (normalizeWhitespace .no cs) = Text.words cs := by
    rw [← words_collapse cs]
    exact words_trimBoth isBlank_of_isSpace _
  have hset : normalize .no true g.isPunctuation cs
      = Known.set {} (spaceAfter g.isPunctuation (normalizeWhitespace .no cs)) := by
    unfold normalize
    rw [h.tighten_eq]
    rfl
  have hstart : Known.AtWord {} := ⟨nofun, nofun⟩
  have hnothing : Known.Behind {} none := by simp [Known.Behind]
  have hall := addresses_set hp (by cases g <;> rfl) (normalizeWhitespace .no cs) {} none
    hnothing (.inr hstart)
  rw [hwords, ← hset] at hall
  refine ⟨hall, fun hchain => ?_⟩
  rwa [setAddresses_eq_filter hchain] at hall

/-- An address with punctuation in it, between other words. -/
theorem addresses_normalize_read :
    let cs := "read https://example.org/a.b,c now.it".toList
    Tight Guide.mla9.isPunctuation cs ∧ (Text.words cs).IsChain KeepsAddress
      ∧ ["https://example.org/a.b,c".toList].Sublist
        (Text.words (normalize .no true Guide.mla9.isPunctuation cs)) := by
  intro cs
  have htight : Tight Guide.mla9.isPunctuation cs := by
    unfold Tight
    decide
  have hchain : (Text.words cs).IsChain KeepsAddress := by
    unfold KeepsAddress
    decide +kernel
  have haddresses : (Text.words cs).filter IsWebAddress = ["https://example.org/a.b,c".toList] := by
    decide +kernel
  have hall := (addresses_normalize .mla9 cs htight).2 hchain
  rw [haddresses] at hall
  exact ⟨htight, hchain, hall⟩

/-- An address behind the end of a sentence is not set as it is. -/
theorem capital_in_address :
    let cs := "See this. www.example.org/a.b now".toList
    let address := "www.example.org/a.b".toList
    Tight Guide.mla9.isPunctuation cs ∧ IsWebAddress address ∧ address ∈ Text.words cs
      ∧ normalize .no true Guide.mla9.isPunctuation cs
        = "See this. Www.example.org/a.b now".toList
      ∧ address ∉ Text.words (normalize .no true Guide.mla9.isPunctuation cs) := by
  unfold Tight
  decide +kernel

end Manuscript.Typeset
