import Manuscript.Proofs.Citation.Printed
import Manuscript.Proofs.Typeset.Words

/-!
# Personal names

A name is split into its words, of which the last one is the surname. Its usual order puts them
together again, so that nothing but white space is lost, and a name that was printed is read as the
same name.

* `Text.HasWords`: the words of a text, said without the function that cuts them.
* `PersonalName.ofText_cases`: what a text with no word, with one and with several is read as.
* `PersonalName.full_ofText`: the words of a name, joined by spaces, are its usual order; it has a
  surname unless it is blank; and equal printed names are equal names, sorted alike.
-/

namespace Manuscript

open Manuscript.Character (isBlank)
open Manuscript.Typeset (EndsWord worded)

/-! ## Words -/

namespace Text

variable {cs : List Char} {ws : List (List Char)} {texts : List String} {s separator last : String}

/-- The words of a text are the runs of characters between its white space. A word ends where the
text ends or where white space stands. -/
inductive HasWords : List Char → List (List Char) → Prop
  | nil : HasWords [] []
  | blank {c : Char} {cs : List Char} {ws : List (List Char)} (hc : isBlank c = true)
      (h : HasWords cs ws) : HasWords (c :: cs) ws
  | word {word cs : List Char} {ws : List (List Char)} (hword : Typeset.IsWord word)
      (hcs : EndsWord cs) (h : HasWords cs ws) : HasWords (word ++ cs) (word :: ws)

/-- A text is cut into the words it has. -/
theorem hasWords_iff : HasWords cs ws ↔ words cs = ws := by
  constructor
  · intro h
    induction h with
    | nil => rfl
    | blank hc _ ih => rw [Typeset.words_blank hc, ih]
    | word hword hcs _ ih =>
      rw [Typeset.words_append hcs, Typeset.words_word hword, ih, List.singleton_append]
  · rintro rfl
    induction worded cs with
    | nil => exact .nil
    | blank hc _ ih =>
      rw [Typeset.words_blank hc]
      exact .blank hc ih
    | word hword hcs _ ih =>
      rw [Typeset.words_append hcs, Typeset.words_word hword, List.singleton_append]
      exact .word hword hcs ih

/-- A text without words is blank. -/
theorem words_eq_nil_iff : words cs = [] ↔ ∀ c ∈ cs, isBlank c = true := by
  constructor
  · intro h
    induction worded cs with
    | nil => exact List.forall_mem_nil _
    | blank hc _ ih =>
      rw [Typeset.words_blank hc] at h
      exact List.forall_mem_cons.mpr ⟨hc, ih h⟩
    | word hword hcs _ ih =>
      -- a word of the text would be one of its words
      rw [Typeset.words_append hcs, Typeset.words_word hword] at h
      cases h
  · intro h
    rw [← List.append_nil cs, Typeset.words_gap h]
    rfl

theorem wordsOf_eq_nil_iff : wordsOf s = [] ↔ isBlankText s = true := by
  unfold wordsOf isBlankText
  rw [List.map_eq_nil_iff, words_eq_nil_iff, List.all_eq_true]

theorem joinWith_concat (h : texts ≠ []) :
    joinWith separator (texts ++ [last]) = joinWith separator texts ++ separator ++ last := by
  fun_induction joinWith separator texts with
  | case1 => exact absurd rfl h
  | case2 t => rfl
  | case3 t u rest ih =>
    show t ++ separator ++ joinWith separator (u :: rest ++ [last]) = _
    rw [ih (List.cons_ne_nil u rest)]
    simp only [String.append_assoc]

theorem joinWith_ne_empty (h : texts ≠ []) (hwords : ∀ t ∈ texts, Typeset.IsWord t.toList) :
    joinWith separator texts ≠ "" := by
  obtain ⟨t, ht⟩ := List.exists_mem_of_ne_nil texts h
  intro hempty
  have hinfix : t.toList <:+: (joinWith separator texts).toList := infix_joinWith ht
  rw [hempty] at hinfix
  exact (hwords t ht).ne_nil (List.infix_nil.mp hinfix)

end Text

/-! ## Names -/

namespace PersonalName

variable {text other : String}

/-- A blank text is read as an empty surname, a word as a surname, and several words as given names
with the last word as surname. -/
theorem ofText_cases (text : String) :
    Text.wordsOf text = [] ∧ ofText text = ⟨none, ""⟩
      ∨ (∃ surname, Text.wordsOf text = [surname] ∧ ofText text = ⟨none, surname⟩)
      ∨ ∃ given surname, given ≠ [] ∧ Text.wordsOf text = given ++ [surname]
          ∧ ofText text = ⟨some (Text.joinWith " " given), surname⟩ := by
  unfold ofText
  rcases (Text.wordsOf text).eq_nil_or_concat with h | ⟨given, surname, h⟩
  · exact .inl ⟨h, by rw [h]; rfl⟩
  · rw [List.concat_eq_append] at h
    rw [h]
    dsimp only
    rw [List.getLast?_concat, List.dropLast_concat]
    -- without given names there is no part for them, rather than an empty one
    cases given with
    | nil => exact .inr (.inl ⟨surname, rfl, rfl⟩)
    | cons t rest => exact .inr (.inr ⟨_, surname, List.cons_ne_nil t rest, rfl, rfl⟩)

theorem isWord_of_mem (text : String) : ∀ t ∈ Text.wordsOf text, Typeset.IsWord t.toList :=
  fun _ ht => (Typeset.of_mem_wordsOf ht).1

/-- In its usual order a name is made of its words. -/
theorem full_eq (text : String) : (ofText text).full = Text.joinWith " " (Text.wordsOf text) := by
  rcases ofText_cases text with
    ⟨hwords, h⟩ | ⟨surname, hwords, h⟩ | ⟨given, surname, hne, hwords, h⟩
  · rw [hwords, h]
    rfl
  · rw [hwords, h]
    rfl
  · rw [hwords, h, Text.joinWith_concat hne]
    rfl

theorem wordsOf_full (text : String) : Text.wordsOf (ofText text).full = Text.wordsOf text := by
  rw [full_eq, Typeset.wordsOf_joinWith (isWord_of_mem text)]

/-- A name depends on the words of its text. -/
theorem ofText_congr (h : Text.wordsOf text = Text.wordsOf other) : ofText text = ofText other := by
  unfold ofText
  rw [h]

/-- A printed name is read as the name that was printed. -/
theorem ofText_full (text : String) : ofText (ofText text).full = ofText text :=
  ofText_congr (wordsOf_full text)

theorem eq_of_full_eq (h : (ofText text).full = (ofText other).full) :
    ofText text = ofText other := by
  rw [← ofText_full text, h, ofText_full]

/-- The surname is a word, unless the text is blank, and the given names are words, too. -/
theorem parts_ofText (text : String) :
    (∀ c ∈ (ofText text).surname.toList, isBlank c = false)
      ∧ ((ofText text).surname = "" ↔ Text.isBlankText text = true)
      ∧ (ofText text).given ≠ some "" := by
  have hall := isWord_of_mem text
  rw [← Text.wordsOf_eq_nil_iff]
  rcases ofText_cases text with
    ⟨hwords, h⟩ | ⟨surname, hwords, h⟩ | ⟨given, surname, hne, hwords, h⟩
  · rw [h, hwords]
    simp
  · rw [hwords] at hall
    have hsurname : Typeset.IsWord surname.toList := hall surname List.mem_cons_self
    rw [h, hwords]
    exact ⟨hsurname.letters, by simpa using hsurname.ne_nil, nofun⟩
  · rw [hwords] at hall
    have hsurname : Typeset.IsWord surname.toList := hall surname (by simp)
    have hgiven : Text.joinWith " " given ≠ "" :=
      Text.joinWith_ne_empty hne fun t ht => hall t (List.mem_append_left _ ht)
    rw [h, hwords]
    refine ⟨hsurname.letters, by simpa using hsurname.ne_nil, ?_⟩
    exact fun heq => hgiven (Option.some.inj heq)

/-- The first author of a work is read off the printed name. -/
theorem ofText_firstAuthor {s : Source} {w : Work} (h : Work.ofSource s = .ok w) :
    (w.authors.head?.map full).map ofText = w.authors.head? := by
  -- the authors of a work are read from texts, and so are their printed names
  obtain ⟨_, _, -, -, rfl⟩ := Work.of_ofSource h
  dsimp only
  rw [List.head?_map]
  cases s.authors.head? with
  | none => rfl
  | some author => exact congrArg some (ofText_full author.value)

/-- Works of one title are sorted alike if their first authors are printed alike. -/
theorem sortKey_congr {s s' : Source} {w w' : Work} (hw : Work.ofSource s = .ok w)
    (hw' : Work.ofSource s' = .ok w')
    (hauthor : w.authors.head?.map full = w'.authors.head?.map full) (htitle : w.title = w'.title) :
    w.sortKey = w'.sortKey := by
  have hfirst : w.authors.head? = w'.authors.head? := by
    rw [← ofText_firstAuthor hw, hauthor, ofText_firstAuthor hw']
  unfold Work.sortKey
  rw [hfirst, htitle]

/-- Names are split and put together again without loss. In its usual order a name is made of its
words. Its surname has no white space, and is empty only if the name is blank; its given names are
not empty. A printed name is read as the name that was printed, so that names that are printed alike
have one surname, and works whose first authors are printed alike are sorted by their titles. -/
theorem full_ofText :
    (∀ text, ∃ words, Text.HasWords text.toList words
        ∧ (ofText text).full = Text.joinWith " " (words.map String.ofList))
      ∧ (∀ text, (∀ c ∈ (ofText text).surname.toList, isBlank c = false)
        ∧ ((ofText text).surname = "" ↔ Text.isBlankText text = true)
        ∧ (ofText text).given ≠ some "")
      ∧ (∀ text, ofText (ofText text).full = ofText text)
      ∧ (∀ text other, (ofText text).full = (ofText other).full →
        (ofText text).surname = (ofText other).surname)
      ∧ ∀ s s' w w', Work.ofSource s = .ok w → Work.ofSource s' = .ok w' →
        w.authors.head?.map full = w'.authors.head?.map full → w.title = w'.title →
        w.sortKey = w'.sortKey := by
  refine ⟨?_, parts_ofText, ofText_full, ?_, ?_⟩
  · intro text
    exact ⟨Text.words text.toList, Text.hasWords_iff.mpr rfl, full_eq text⟩
  · intro text other h
    rw [eq_of_full_eq h]
  · intro s s' w w' hw hw' hauthor htitle
    exact sortKey_congr hw hw' hauthor htitle

/-- One author in two spellings, once with another author behind. -/
theorem full_ofText_spelled :
    let poem (line : Nat) (authors : List String) : Source :=
      { kind := .poem, authors := authors.map fun name => ⟨name, ⟨line, 9⟩⟩,
        title := some ⟨"The Raven", ⟨line, 40⟩⟩, position := ⟨line, 1⟩ }
    let spaced := "  Edgar\u2003Allan\n Poe "
    let plain := "Edgar Allan Poe"
    'P' ∈ (ofText spaced).surname.toList ∧ isBlank 'P' = false
      ∧ (ofText spaced).full = (ofText plain).full
      ∧ (ofText spaced).surname = (ofText plain).surname
      ∧ ∃ w w', Work.ofSource (poem 1 [spaced]) = .ok w
        ∧ Work.ofSource (poem 2 [plain, "Jane Doe"]) = .ok w'
        ∧ w.authors.head?.map full = w'.authors.head?.map full ∧ w.title = w'.title
        ∧ w.sortKey = w'.sortKey := by
  obtain ⟨-, hparts, -, hsurname, hkey⟩ := full_ofText
  intro poem spaced plain
  have hmem : 'P' ∈ (ofText spaced).surname.toList := by decide +kernel
  have hfull : (ofText spaced).full = (ofText plain).full := by decide +kernel
  have hw : Work.ofSource (poem 1 [spaced]) = .ok _ := rfl
  have hw' : Work.ofSource (poem 2 [plain, "Jane Doe"]) = .ok _ := rfl
  have hauthor : some (ofText spaced).full = some (ofText plain).full := congrArg some hfull
  have hsorted := hkey _ _ _ _ hw hw' hauthor rfl
  exact ⟨hmem, (hparts spaced).1 'P' hmem, hfull, hsurname spaced plain hfull, _, _, hw, hw',
    hauthor, rfl, hsorted⟩

example : ofText " Homer\t" = ⟨none, "Homer"⟩ := by decide +kernel

end PersonalName

end Manuscript
