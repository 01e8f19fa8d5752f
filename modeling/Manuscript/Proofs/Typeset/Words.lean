import Mathlib.Data.List.SplitBy
import Manuscript.Guide.Rules
import Manuscript.Proofs.Character.SmallLetters
import Manuscript.Proofs.Text.Lowering
import Manuscript.Proofs.Text.Trimming
import Manuscript.Typeset.Normalize

/-!
# Words and the addresses among them

A text is made of words and the white space between them. Marking the addresses of a text goes word
by word, so that a rule that works on the marked text is known by what it does to a word, to white
space, and to texts that meet at white space.

* `Marks`: what is asked of the punctuation marks of a guide.
* `Worded`: every text is made of words and white space, which serves as induction principle.
* `words_append`, `of_mem_words`, `wordsOf_joinWith`: the words of texts that meet at white space,
  where words come from, and the words of joined words.
* `IsWebAddress`: the words that look like web addresses.
* `markAddresses_blank`, `markAddresses_word`, `markAddresses_append`: where the marks of a text
  come from.
* `markAddresses_around`: the marks of a word within a text.
-/

namespace Manuscript.Typeset

open Manuscript.Character

variable {p : Char → Bool} {c d : Char} {cs ds word tail : List Char}

/-! ## Punctuation marks -/

/-- What the rules rely on: a punctuation mark is neither white space nor a letter nor a digit. -/
structure Marks (p : Char → Bool) : Prop where
  notBlank : ∀ {c}, p c = true → isBlank c = false
  notDigit : ∀ {c}, p c = true → isAsciiDigit c = false
  notLettered : ∀ {c}, p c = true → ¬ Lettered c

theorem Marks.of_blank (hp : Marks p) (h : isBlank c = true) : p c = false :=
  Bool.eq_false_iff.mpr fun hc => Bool.false_ne_true ((hp.notBlank hc).symm.trans h)

/-- The character is neither white space nor punctuation. -/
def Plain (p : Char → Bool) (c : Char) : Prop := isBlank c = false ∧ p c = false

theorem plain_of_mem_upper (hp : Marks p) (hc : isSmallLetter c = true) (hd : d ∈ upper c) :
    Plain p d := by
  have hlettered := lettered_of_mem_upper (lettered_of_isSmallLetter hc) hd
  exact ⟨hlettered.isBlank, Bool.eq_false_iff.mpr fun hmark => hp.notLettered hmark hlettered⟩

theorem marks_isPunctuation (g : Guide) : Marks g.isPunctuation := by
  have hmarks : List.Forall (fun c => isBlank c = false ∧ isAsciiDigit c = false ∧ ¬ Lettered c)
      (Guide.usualPunctuation ++ g.rules.extraPunctuation) := by
    cases g <;> decide
  rw [List.forall_iff_forall_mem] at hmarks
  have hmem {c : Char} (hc : g.isPunctuation c = true) :
      c ∈ Guide.usualPunctuation ++ g.rules.extraPunctuation := by
    unfold Guide.isPunctuation at hc
    simpa [List.mem_append] using hc
  exact ⟨fun hc => (hmarks _ (hmem hc)).1, fun hc => (hmarks _ (hmem hc)).2.1,
    fun hc => (hmarks _ (hmem hc)).2.2⟩

/-! ## Words -/

/-- The characters are those of a word. -/
structure IsWord (word : List Char) : Prop where
  ne_nil : word ≠ []
  letters : ∀ c ∈ word, isBlank c = false

/-- The text is empty or starts with white space, so that a word in front of it ends there. -/
def EndsWord (cs : List Char) : Prop := ∀ c ∈ cs.head?, isBlank c = true

theorem endsWord_nil : EndsWord [] := fun _ h => absurd h (by simp)

theorem endsWord_cons : EndsWord (c :: cs) ↔ isBlank c = true := by simp [EndsWord]

theorem EndsWord.append (h : EndsWord cs) (htail : EndsWord tail) : EndsWord (cs ++ tail) := by
  cases cs with
  | nil => exact htail
  | cons c cs => exact endsWord_cons.mpr (endsWord_cons.mp h)

theorem IsWord.cons (h : isBlank c = false) (hword : ∀ d ∈ word, isBlank d = false) :
    IsWord (c :: word) := ⟨List.cons_ne_nil c word, List.forall_mem_cons.mpr ⟨h, hword⟩⟩

theorem IsWord.not_endsWord (h : IsWord word) (cs : List Char) : ¬ EndsWord (word ++ cs) := by
  cases word with
  | nil => exact absurd rfl h.ne_nil
  | cons c rest =>
    intro hends
    have hletter := h.letters c List.mem_cons_self
    rw [endsWord_cons.mp hends] at hletter
    cases hletter

/-- A text is made of words and white space; a word goes on up to white space. -/
inductive Worded : List Char → Prop
  | nil : Worded []
  | blank {c : Char} {cs : List Char} (hc : isBlank c = true) (h : Worded cs) : Worded (c :: cs)
  | word {word cs : List Char} (hword : IsWord word) (hcs : EndsWord cs) (h : Worded cs) :
      Worded (word ++ cs)

theorem worded (cs : List Char) : Worded cs := by
  induction cs with
  | nil => exact .nil
  | cons c cs ih =>
    by_cases hc : isBlank c = true
    · exact .blank hc ih
    · have hletter : isBlank c = false := Bool.eq_false_iff.mpr hc
      cases ih with
      | nil => exact .word (.cons hletter (List.forall_mem_nil _)) endsWord_nil .nil
      | blank hb h =>
        have hword : IsWord [c] := .cons hletter (List.forall_mem_nil _)
        exact .word hword (endsWord_cons.mpr hb) (.blank hb h)
      | @word word cs hword hcs h =>
        -- the character makes the word longer, and the word still ends where it did
        exact .word (.cons hletter hword.letters) hcs h

/-! ## The words of a text -/

theorem wordsFrom_blank (hc : isBlank c = true) (word cs : List Char) :
    Text.wordsFrom word (c :: cs) = Text.closeWord word (Text.words cs) := if_pos hc

theorem wordsFrom_letter (hc : isBlank c = false) (word cs : List Char) :
    Text.wordsFrom word (c :: cs) = Text.wordsFrom (word ++ [c]) cs :=
  if_neg (by rw [hc]; exact Bool.false_ne_true)

theorem words_blank (hc : isBlank c = true) (cs : List Char) :
    Text.words (c :: cs) = Text.words cs := wordsFrom_blank hc [] cs

theorem closeWord_append (word : List Char) (first rest : List (List Char)) :
    Text.closeWord word (first ++ rest) = Text.closeWord word first ++ rest := by
  unfold Text.closeWord
  split_ifs <;> rfl

/-- A word that was begun goes on up to white space. -/
theorem wordsFrom_append (hds : EndsWord ds) (word cs : List Char) :
    Text.wordsFrom word (cs ++ ds) = Text.wordsFrom word cs ++ Text.words ds := by
  induction cs generalizing word with
  | nil =>
    cases ds with
    | nil => exact (List.append_nil _).symm
    | cons d ds =>
      have hd : isBlank d = true := endsWord_cons.mp hds
      rw [List.nil_append, wordsFrom_blank hd, words_blank hd]
      exact closeWord_append word [] (Text.words ds)
  | cons c cs ih =>
    rw [List.cons_append]
    cases hc : isBlank c with
    | true =>
      have hrest : Text.words (cs ++ ds) = Text.words cs ++ Text.words ds := ih []
      rw [wordsFrom_blank hc, wordsFrom_blank hc, hrest, closeWord_append]
    | false => rw [wordsFrom_letter hc, wordsFrom_letter hc, ih]

/-- The words of texts that meet at white space. -/
theorem words_append (hds : EndsWord ds) (cs : List Char) :
    Text.words (cs ++ ds) = Text.words cs ++ Text.words ds := wordsFrom_append hds [] cs

theorem wordsFrom_letters (h : ∀ c ∈ cs, isBlank c = false) (word : List Char) :
    Text.wordsFrom word cs = Text.closeWord (word ++ cs) [] := by
  induction cs generalizing word with
  | nil => rw [List.append_nil]; rfl
  | cons c cs ih =>
    obtain ⟨hc, hcs⟩ := List.forall_mem_cons.mp h
    rw [wordsFrom_letter hc, ih hcs, List.append_assoc, List.singleton_append]

theorem words_word (h : IsWord word) : Text.words word = [word] := by
  unfold Text.words
  rw [wordsFrom_letters h.letters, List.nil_append]
  exact if_neg (by simpa using h.ne_nil)

/-- White space in front of a text makes no words. -/
theorem words_gap {gap : List Char} (h : ∀ c ∈ gap, isBlank c = true) (cs : List Char) :
    Text.words (gap ++ cs) = Text.words cs := by
  induction gap with
  | nil => rfl
  | cons c gap ih =>
    obtain ⟨hc, hgap⟩ := List.forall_mem_cons.mp h
    rw [List.cons_append, words_blank hc, ih hgap]

/-- Trimming white space leaves the words of a text. -/
theorem words_trimBoth {q : Char → Bool} (hq : ∀ {c}, q c = true → isBlank c = true)
    (cs : List Char) : Text.words (Text.trimBoth q cs) = Text.words cs := by
  obtain ⟨front, back, hsplit, hfront, hback⟩ := Text.trimBoth_append q cs
  have hbefore : ∀ c ∈ front, isBlank c = true := fun c hc => hq (hfront c hc)
  have hbehind : ∀ c ∈ back, isBlank c = true := fun c hc => hq (hback c hc)
  have hends : EndsWord back := fun c hc => hbehind c (List.mem_of_mem_head? hc)
  have hnone : Text.words back = [] := by
    rw [← List.append_nil back, words_gap hbehind]
    rfl
  conv_rhs => rw [hsplit]
  rw [words_gap hbefore, words_append hends, hnone, List.append_nil]

/-- A word of a text stands in the text. -/
theorem of_mem_words (h : word ∈ Text.words cs) : IsWord word ∧ word <:+: cs := by
  induction worded cs with
  | nil => cases h
  | @blank c cs hc _ ih =>
    rw [words_blank hc] at h
    obtain ⟨hword, hinfix⟩ := ih h
    exact ⟨hword, hinfix.trans (List.suffix_cons c cs).isInfix⟩
  | @word first cs hfirst hcs _ ih =>
    rw [words_append hcs, words_word hfirst] at h
    rcases List.mem_cons.mp h with rfl | h
    · exact ⟨hfirst, (List.prefix_append _ cs).isInfix⟩
    · obtain ⟨hword, hinfix⟩ := ih h
      exact ⟨hword, hinfix.trans (List.suffix_append first cs).isInfix⟩

theorem of_mem_wordsOf {text t : String} (h : t ∈ Text.wordsOf text) :
    IsWord t.toList ∧ t.toList <:+: (Text.trim text).toList := by
  obtain ⟨word, hword, rfl⟩ := List.mem_map.mp h
  rw [← words_trimBoth id] at hword
  rw [String.toList_ofList]
  unfold Text.trim
  rw [String.toList_ofList]
  exact of_mem_words hword

/-- Words that are joined by spaces are the words of the text. -/
theorem wordsOf_joinWith {texts : List String} (h : ∀ t ∈ texts, IsWord t.toList) :
    Text.wordsOf (Text.joinWith " " texts) = texts := by
  unfold Text.wordsOf
  fun_induction Text.joinWith " " texts with
  | case1 => rfl
  | case2 t =>
    rw [words_word (h t List.mem_cons_self), List.map_singleton, String.ofList_toList]
  | case3 t u rest ih =>
    obtain ⟨ht, hrest⟩ := List.forall_mem_cons.mp h
    have hspace : (t ++ " " ++ Text.joinWith " " (u :: rest)).toList
        = t.toList ++ ' ' :: (Text.joinWith " " (u :: rest)).toList := by simp
    rw [hspace, words_append (endsWord_cons.mpr rfl), words_word ht, words_blank rfl,
      List.map_append, ih hrest, List.map_singleton, String.ofList_toList, List.singleton_append]

/-! ## Addresses -/

theorem occursIn_iff {pattern word : List Char} :
    occursIn pattern word = true ↔ pattern <:+: word := by
  induction word with
  | nil => simp [occursIn]
  | cons c cs ih =>
    unfold occursIn
    rw [Bool.or_eq_true, List.isPrefixOf_iff_prefix, ih, List.infix_cons_iff]

/-- The word looks like a web address: it holds the mark behind a scheme, or starts, in small
letters, as the names of hosts of the web do. -/
def IsWebAddress (word : List Char) : Prop :=
  [':', '/', '/'] <:+: word
    ∨ ['w', 'w', 'w', '.'] <+: (Text.lowercase (String.ofList word)).toList

/-- The name of a host is known by the small letters of its characters, each by itself. -/
theorem isWebAddress_iff : IsWebAddress word
    ↔ [':', '/', '/'] <:+: word ∨ ['w', 'w', 'w', '.'] <+: word.flatMap lower := by
  unfold IsWebAddress Text.lowercase
  rw [String.toList_ofList, String.toList_ofList,
    Text.prefix_lowerAfter_iff (by decide) (by decide)]

theorem isAddress_iff : isAddress word = true ↔ IsWebAddress word := by
  unfold isAddress
  rw [isWebAddress_iff, Bool.or_eq_true, occursIn_iff, List.isPrefixOf_iff_prefix]

instance : DecidablePred IsWebAddress := fun _ => decidable_of_iff _ isAddress_iff

/-- The names of hosts of the web start with a letter `w`. -/
theorem exists_of_host (h : ['w', 'w', 'w', '.'] <+: word.flatMap lower) :
    ∃ c rest, word = c :: rest ∧ (c = 'w' ∨ c = 'W') := by
  cases word with
  | nil => exact absurd (List.prefix_nil.mp h) (List.cons_ne_nil _ _)
  | cons c rest =>
    obtain ⟨behind, hlower⟩ := h
    have hhead : (lower c ++ rest.flatMap lower).head? = some 'w' := by
      rw [← List.flatMap_cons, ← hlower]
      rfl
    rw [List.head?_append_of_ne_nil _ (lower_ne_nil c)] at hhead
    exact ⟨c, rest, rfl, eq_w_of_lower hhead⟩

/-- White space does not look like an address. -/
theorem isAddress_gap (h : ∀ c ∈ cs, isBlank c = true) : isAddress cs = false := by
  apply Bool.eq_false_iff.mpr
  intro haddress
  rcases isWebAddress_iff.mp (isAddress_iff.mp haddress) with hscheme | hhost
  · have hcolon := h ':' (hscheme.subset List.mem_cons_self)
    cases hcolon
  · obtain ⟨c, rest, rfl, hc⟩ := exists_of_host hhost
    have hw := h c List.mem_cons_self
    rcases hc with rfl | rfl <;> cases hw

/-! ## Marks -/

/-- The marks of a text without an inner border: it is one word or white space. -/
theorem markAddresses_stretch (hne : cs ≠ []) {b : Bool} (h : ∀ c ∈ cs, isBlank c = b) :
    markAddresses cs = cs.map fun c => (c, isAddress cs) := by
  have hchain : cs.IsChain fun c d => (isBlank c == isBlank d) = true := by
    refine (List.pairwise_of_forall_mem_list fun c hc d hd => ?_).isChain
    rw [h c hc, h d hd, beq_self_eq_true]
  unfold markAddresses stretches
  rw [List.splitBy_of_isChain hne hchain, List.flatMap_singleton]

/-- The marks of texts that meet at a border between a word and white space. -/
theorem markAddresses_border (h : ∀ c ∈ cs.getLast?, ∀ d ∈ tail.head?, isBlank c ≠ isBlank d) :
    markAddresses (cs ++ tail) = markAddresses cs ++ markAddresses tail := by
  have hborder : ∀ c ∈ cs.getLast?, ∀ d ∈ tail.head?, (isBlank c == isBlank d) = false :=
    fun c hc d hd => beq_false_of_ne (h c hc d hd)
  unfold markAddresses stretches
  rw [List.splitBy_append hborder, List.flatMap_append]

theorem markAddresses_word (hword : IsWord word) (hcs : EndsWord cs) :
    markAddresses (word ++ cs) = word.map (fun c => (c, isAddress word)) ++ markAddresses cs := by
  rw [markAddresses_border, markAddresses_stretch hword.ne_nil hword.letters]
  intro c hc d hd
  rw [hword.letters c (List.mem_of_getLast? hc), hcs d hd]
  exact Bool.false_ne_true

theorem markAddresses_blank (hc : isBlank c = true) :
    markAddresses (c :: cs) = (c, false) :: markAddresses cs := by
  have hgap {gap rest : List Char} (h : ∀ c ∈ gap, isBlank c = true)
      (hrest : ∀ d ∈ rest.head?, isBlank d = false) :
      markAddresses (gap ++ rest) = gap.map (fun c => (c, false)) ++ markAddresses rest := by
    rcases eq_or_ne gap [] with rfl | hne
    · rfl
    · rw [markAddresses_border, markAddresses_stretch hne h, isAddress_gap h]
      intro c hc d hd
      rw [h c (List.mem_of_getLast? hc), hrest d hd]
      exact Bool.noConfusion
  -- the gap behind the character belongs to the same stretch, and is marked as the longer one is
  have hsplit : cs = cs.takeWhile isBlank ++ cs.dropWhile isBlank :=
    List.takeWhile_append_dropWhile.symm
  have hrest : ∀ d ∈ (cs.dropWhile isBlank).head?, isBlank d = false :=
    Text.head_dropWhile isBlank cs
  have hbefore : ∀ d ∈ cs.takeWhile isBlank, isBlank d = true := fun d hd =>
    List.mem_takeWhile_imp hd
  rw [hsplit, ← List.cons_append, hgap (List.forall_mem_cons.mpr ⟨hc, hbefore⟩) hrest,
    hgap hbefore hrest]
  rfl

/-- The marks of a text that ends a word come from that text alone. -/
theorem markAddresses_append (htail : EndsWord tail) :
    markAddresses (cs ++ tail) = markAddresses cs ++ markAddresses tail := by
  induction worded cs with
  | nil => rfl
  | blank hc _ ih => rw [List.cons_append, markAddresses_blank hc, ih, markAddresses_blank hc,
      List.cons_append]
  | word hword hcs _ ih =>
    rw [List.append_assoc, markAddresses_word hword (hcs.append htail), ih,
      markAddresses_word hword hcs, List.append_assoc]

/-- The marks of a word and of the texts around it. -/
theorem markAddresses_around {front back : List Char}
    (hfront : ∀ c ∈ front.getLast?, isBlank c = true) (hword : IsWord word)
    (hback : EndsWord back) :
    markAddresses (front ++ (word ++ back)) = markAddresses front
      ++ (word.map (fun c => (c, isAddress word)) ++ markAddresses back) := by
  rw [markAddresses_border, markAddresses_word hword hback]
  intro c hc d hd
  rw [List.head?_append_of_ne_nil _ hword.ne_nil] at hd
  rw [hfront c hc, hword.letters d (List.mem_of_mem_head? hd)]
  exact Bool.noConfusion

theorem map_fst_marked (cs : List Char) (b : Bool) :
    (cs.map fun c => (c, b)).map Prod.fst = cs := by
  rw [List.map_map]
  exact List.map_id cs

/-- Marking changes no character. -/
theorem map_fst_markAddresses (cs : List Char) : (markAddresses cs).map Prod.fst = cs := by
  unfold markAddresses stretches
  rw [List.map_flatMap]
  simp only [map_fst_marked, List.flatMap_id']
  exact List.flatten_splitBy _ _

end Manuscript.Typeset
