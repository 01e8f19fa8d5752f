import Manuscript.Proofs.Compilation.Paragraphs

/-!
# The markers of notes

A note leaves a marker with its number where it was written. All notes of a text are numbered in one
sequence, and the paragraphs show the markers in this order. But neighbours of equal emphasis are
merged, markers not excepted: two notes with nothing in print between them share one marker, which
reads as the number of neither.

* `texts_setSentences`, `marks_setSentences`: what sentences show of their notes before they are
  joined.
* `Setting.NotesApart`: something stands in print between any two notes of a block.
* `markers_setBody`: the markers of a text are the numbers of its notes, merged where notes are not
  apart.
-/

namespace Manuscript

open Manuscript.Span

/-! ## Numerals -/

/-- The numerals of some notes behind a number of others. -/
def numerals (count k : Nat) : List String := (List.range' (count + 1) k).map toString

/-- Numerals go on where those in front of them end. -/
theorem numerals_append (count j k : Nat) :
    numerals count j ++ numerals (count + j) k = numerals count (j + k) := by
  have hstart : count + j + 1 = count + 1 + j := by omega
  unfold numerals
  rw [← List.map_append, hstart, List.range'_append_1]

/-- A digit is no lower case letter. -/
theorem isLowercase_of_isDigit {c : Char} (h : c.isDigit = true) :
    Character.isLowercase c = false := by
  have hdigits : ∀ n < 10, Character.isLowercase (Char.ofNat (48 + n)) = false := by decide
  obtain ⟨hlow, hhigh⟩ : 48 ≤ c.toNat ∧ c.toNat ≤ 57 := by
    simpa [Char.isDigit, UInt32.le_iff_toNat_le] using h
  have hc := hdigits (c.toNat - 48) (by omega)
  rwa [Nat.add_sub_cancel' hlow, Char.ofNat_toNat] at hc

/-- A numeral with a capital at its start is the same numeral. -/
theorem eq_numeral {n : Nat} {t : String} (h : SameUpToCapital (toString n) t) :
    t = toString n := by
  have hdigits : ∀ c ∈ (toString n).toList, Character.isLowercase c = false := by
    intro c hc
    rw [Nat.toString_eq_repr, Nat.toList_repr] at hc
    exact isLowercase_of_isDigit (Nat.isDigit_of_mem_toDigits (by decide) (by decide) hc)
  rcases h with h | h
  · exact h
  · rw [h, capitalizeFirst_eq_self hdigits, String.ofList_toList]

/-- Capitals leave numerals as they are. -/
theorem eq_numerals {count k : Nat} {texts : List String}
    (h : List.Forall₂ SameUpToCapital (numerals count k) texts) : texts = numerals count k := by
  have hsame : List.Forall₂ (fun n t => t = toString n) (List.range' (count + 1) k) texts :=
    (List.forall₂_map_left_iff.mp h).imp fun n t => eq_numeral
  have heq : List.Forall₂ Eq (numerals count k) texts :=
    List.forall₂_map_left_iff.mpr (hsame.imp fun n t => Eq.symm)
  rw [List.forall₂_eq_eq_eq] at heq
  exact heq.symm

/-! ## What a sentence shows of its notes -/

/-- The run is a note. -/
def Run.isNote (r : Run) : Bool := r.note?.isSome

/-- The texts of the markers in a paragraph. -/
def Paragraph.markers (p : Paragraph) : List String := textsOf .superscript p.spans

namespace Setting

variable (s : Setting)

/-- The run leaves something in print. -/
def prints (r : Run) : Bool := (s.setRun 0 r).spans.any fun span => !span.text.isEmpty

/-- A run that is no note is set as at most one span, which is no marker, whatever is in front of
it. -/
theorem spans_setRun (n : Nat) {r : Run} (h : r.isNote = false) :
    (s.setRun n r).spans = (s.setRun 0 r).spans
      ∧ ((s.setRun n r).spans = [] ∨
        ∃ span, (s.setRun n r).spans = [span] ∧ span.emphasis ≠ .superscript) := by
  have hgate (e : Emphasis) (text : String) (he : e ≠ .superscript) :
      (s.sheet.setText e text).emphasis ≠ .superscript := by
    show e.gate s.sheet.bold s.sheet.italic ≠ .superscript
    cases e <;> simp [Emphasis.gate] at he ⊢ <;> split_ifs <;> simp
  cases r with
  | text l => exact ⟨rfl, .inr ⟨_, rfl, hgate .regular l.value (by decide)⟩⟩
  | emphasise l => exact ⟨rfl, .inr ⟨_, rfl, hgate .italic l.value (by decide)⟩⟩
  | bold l => exact ⟨rfl, .inr ⟨_, rfl, hgate .bold l.value (by decide)⟩⟩
  | work l => exact ⟨rfl, .inr ⟨_, rfl, hgate .italic l.value (by decide)⟩⟩
  | quote l => exact ⟨rfl, .inr ⟨_, rfl, hgate .regular l.value (by decide)⟩⟩
  | note l => cases h
  | citation l page =>
    refine ⟨rfl, ?_⟩
    unfold setRun
    dsimp only
    cases s.shelf.find? l.trimmed with
    | none => exact .inl rfl
    | some w => exact .inr ⟨_, rfl, nofun⟩

/-- A note is set as its marker. -/
theorem shown_setRun_note (n : Nat) (l : Literal) :
    shown (s.setRun n (.note l)).spans = [⟨toString (n + 1), .superscript⟩] := by
  apply shown_eq_self
  intro span hspan
  obtain rfl := List.mem_singleton.mp hspan
  rw [Nat.toString_eq_repr]
  simp [Nat.repr]

/-- A note shows its number, and other runs show none. -/
theorem texts_setRun (n : Nat) (r : Run) :
    textsOf .superscript (shown (s.setRun n r).spans) = numerals n r.notes.length := by
  by_cases hnote : r.isNote = true
  · cases r with
    | note l =>
      rw [shown_setRun_note]
      rfl
    | _ => cases hnote
  · have hnone : r.note? = none := by simpa [Run.isNote] using hnote
    have hnotes : r.notes = [] := by
      unfold Run.notes
      rw [hnone]
      rfl
    rw [hnotes]
    apply textsOf_eq_nil_iff.mpr
    intro span hspan
    have hmem : span ∈ (s.setRun n r).spans := List.mem_of_mem_filter hspan
    rcases (s.spans_setRun n (Bool.eq_false_iff.mpr hnote)).2 with h | ⟨other, h, hother⟩
    · rw [h] at hmem
      cases hmem
    · rw [h] at hmem
      rw [List.mem_singleton.mp hmem]
      exact hother

/-- Among the runs that leave something in print, the notes are those that are shown as markers. -/
theorem marks_setRun (n : Nat) (r : Run) :
    marks .superscript (shown (s.setRun n r).spans) = ([r].filter s.prints).map Run.isNote := by
  by_cases hnote : r.isNote = true
  · cases r with
    | note l =>
      have hprints : s.prints (.note l) = true := rfl
      rw [shown_setRun_note, List.filter_cons_of_pos hprints]
      rfl
    | _ => cases hnote
  · have hfalse : r.isNote = false := Bool.eq_false_iff.mpr hnote
    obtain ⟨hcount, h⟩ := s.spans_setRun n hfalse
    have hprints : s.prints r = (s.setRun n r).spans.any fun span => !span.text.isEmpty := by
      rw [hcount]
      rfl
    rcases h with h | ⟨span, h, hspan⟩
    · simp [hprints, h, shown, marks]
    · by_cases htext : span.text.isEmpty = true
      · simp [hprints, h, shown, marks, htext]
      · simp [hprints, h, shown, marks, htext, hfalse, hspan]

/-- Among the runs of a sentence that leave something in print, the notes are shown as markers. -/
theorem marks_setRuns (n : Nat) (runs : List Run) :
    marks .superscript (shown (s.setRuns n runs).spans)
      = (runs.filter s.prints).map Run.isNote := by
  induction runs generalizing n with
  | nil => rfl
  | cons r rest ih =>
    have hspans : (s.setRuns n (r :: rest)).spans
        = (s.setRun n r).spans ++ (s.setRuns (n + (s.setRun n r).notes.length) rest).spans := rfl
    rw [hspans, shown_append, marks_append, marks_setRun, ih, ← List.map_append,
      ← List.filter_append, List.singleton_append]

/-- The sentences of a block show the numbers of its notes. -/
theorem texts_setSentences (n : Nat) (sentences : List Sentence) :
    textsOf .superscript (shown (s.setSentences n sentences).1.flatten)
      = numerals n (notesOf sentences).length := by
  have hnotes : notesOf sentences = (runsOf sentences).flatMap Run.notes := by
    unfold notesOf runsOf
    rw [List.flatMap_assoc]
    simp only [flatMap_notes]
    rfl
  rw [flatten_setSentences, textsOf_shown_flatMap, hnotes]
  simp only [texts_setRun]
  generalize runsOf sentences = runs
  -- each run goes on where the numerals of those in front of it end
  induction runs generalizing n with
  | nil => rfl
  | cons r rest ih =>
    show numerals n r.notes.length ++ (counted Run.notes (n + r.notes.length) rest).flatMap _ = _
    rw [ih, numerals_append, List.flatMap_cons, List.length_append]

theorem marks_setSentences (n : Nat) (sentences : List Sentence) :
    (s.setSentences n sentences).1.map (fun spans => marks .superscript (shown spans))
      = sentences.map fun x => (x.runs.filter s.prints).map Run.isNote := by
  induction sentences generalizing n with
  | nil => rfl
  | cons sentence rest ih =>
    have hspans : (s.setSentences n (sentence :: rest)).1 = (s.setRuns n sentence.runs).spans
        :: (s.setSentences (n + (s.setRuns n sentence.runs).notes.length) rest).1 := rfl
    rw [hspans, List.map_cons, List.map_cons, marks_setRuns, ih]

/-! ## Notes that keep their markers -/

/-- Something stands in print between any two notes of some runs. -/
def RunsApart (runs : List Run) : Prop :=
  (runs.filter s.prints).IsChain fun r t => ¬ (r.isNote = true ∧ t.isNote = true)

/-- Something stands in print between any two notes of a block. Sentences are separated by the
separator, unless it is empty. -/
def NotesApart (b : ContentBlock) : Prop :=
  if s.sheet.sentenceSeparator.isEmpty then s.RunsApart (runsOf b.sentences)
  else ∀ sentence ∈ b.sentences, s.RunsApart sentence.runs

/-- Markers stand side by side where notes are not apart. -/
theorem markerContacts_eq_zero_iff (n : Nat) (b : ContentBlock) :
    Paragraph.markerContacts s.sheet.sentenceSeparator (s.setSentences n b.sentences).1 = 0
      ↔ s.NotesApart b := by
  have hmarks := s.marks_setSentences n b.sentences
  unfold Paragraph.markerContacts NotesApart RunsApart
  split_ifs with hseparator
  · have hflatten (sentences : List (List Span)) : marks .superscript (shown sentences.flatten)
        = (sentences.map fun spans => marks .superscript (shown spans)).flatten := by
      induction sentences with
      | nil => rfl
      | cons spans rest ih =>
        rw [List.flatten_cons, shown_append, marks_append, ih]
        rfl
    have hruns : (b.sentences.map fun x => (x.runs.filter s.prints).map Run.isNote).flatten
        = ((runsOf b.sentences).filter s.prints).map Run.isNote := by
      unfold runsOf
      rw [List.filter_flatMap, List.map_flatMap]
      rfl
    rw [hflatten, hmarks, hruns, contacts_eq_zero_iff]
  · have hsum : ((s.setSentences n b.sentences).1.map fun spans =>
        contacts (marks .superscript (shown spans))).sum
          = (b.sentences.map fun x => contacts ((x.runs.filter s.prints).map Run.isNote)).sum := by
      have hmap := congrArg (List.map contacts) hmarks
      rw [List.map_map, List.map_map] at hmap
      exact congrArg List.sum hmap
    rw [hsum, List.sum_eq_zero_iff_forall_eq_nat]
    simp only [List.forall_mem_map, contacts_eq_zero_iff]

/-- A paragraph shows the numbers of its notes. Those of notes that are not apart are merged. -/
theorem markers_setParagraph (n : Nat) (b : ContentBlock) :
    Gathered (numerals n (notesOf b.sentences).length)
        (s.sheet.setParagraph (s.setSentences n b.sentences).1).markers
      ∧ ((s.sheet.setParagraph (s.setSentences n b.sentences).1).markers
          = numerals n (notesOf b.sentences).length ↔ s.NotesApart b) := by
  obtain ⟨texts, htexts, hgathered⟩ := Paragraph.gathered_assemble
    s.sheet.indentation.points s.sheet.sentenceSeparator s.sheet.guide.rules.strict
    s.sheet.guide.isTerminal (s.setSentences n b.sentences).1 (e := .superscript) (by decide)
  have hlength := Paragraph.length_assemble s.sheet.indentation.points s.sheet.sentenceSeparator
    s.sheet.guide.rules.strict s.sheet.guide.isTerminal (s.setSentences n b.sentences).1
  rw [texts_setSentences] at htexts hlength
  -- a marker at the start of a sentence is capitalized in vain
  rw [eq_numerals htexts] at hgathered
  refine ⟨hgathered, ?_⟩
  -- as every contact costs one marker, none is lost exactly where there are no contacts
  rw [← s.markerContacts_eq_zero_iff n b]
  constructor
  · intro hmarkers
    have hcount := congrArg List.length hmarkers
    unfold Paragraph.markers Sheet.setParagraph at hcount
    omega
  · intro hcontacts
    apply hgathered.eq_of_length
    rw [hcontacts] at hlength
    exact hlength

/-- So do the paragraphs of all blocks, one behind the other. -/
theorem markers_paragraphs (n : Nat) (es : List Element) :
    Gathered (numerals n (notesOf (es.flatMap Element.sentences)).length)
        ((s.paragraphs n es).flatMap fun x => x.2.markers)
      ∧ (((s.paragraphs n es).flatMap fun x => x.2.markers)
          = numerals n (notesOf (es.flatMap Element.sentences)).length
        ↔ ∀ b ∈ es.filterMap Element.block?, s.NotesApart b) := by
  fun_induction paragraphs s n es with
  | case1 n => exact ⟨.nil, by simp [numerals, notesOf]⟩
  | case2 n b rest sentences pieces hset ih =>
    have hfirst := s.markers_setParagraph n b
    have hpieces : pieces.notes.length = (notesOf b.sentences).length := by
      have hnotes := s.notes_setSentences n b.sentences
      rw [hset] at hnotes
      rw [hnotes, length_endnotes]
    have hnotes : (notesOf ((.content b :: rest).flatMap Element.sentences)).length
        = (notesOf b.sentences).length + (notesOf (rest.flatMap Element.sentences)).length := by
      unfold notesOf
      rw [List.flatMap_cons, List.flatMap_append, List.length_append]
      rfl
    have hblocks : (Element.content b :: rest).filterMap Element.block?
        = b :: rest.filterMap Element.block? := rfl
    rw [hset] at hfirst
    rw [hpieces] at ih
    rw [hnotes, hblocks, ← numerals_append, List.flatMap_cons, hpieces,
      hfirst.1.append_eq_iff ih.1, hfirst.2, ih.2, List.forall_mem_cons]
    exact ⟨hfirst.1.append ih.1, Iff.rfl⟩
  | case3 n e rest hne ih =>
    obtain ⟨hblock, hsentences⟩ := Element.of_ne_content hne
    rw [List.filterMap_cons_none hblock, List.flatMap_cons, hsentences]
    exact ih

end Setting

/-- The notes of a text are numbered from one on, in the order of declaration, and the paragraphs of
its blocks show these numbers in this order, as markers. Some may be merged: every note keeps a
marker of its own if and only if something stands in print between any two notes of a block. -/
theorem markers_setBody (s : Setting) (b : Body) :
    ∃ set : List (ContentBlock × Paragraph),
      set.map Prod.fst = b.blocks ∧ (s.setBody b).Sorts set
        ∧ (s.setBody b).notes = s.endnotes 0 (notesOf b.sentences)
        ∧ Gathered (numerals 0 (notesOf b.sentences).length)
            (set.flatMap fun x => x.2.markers)
        ∧ ((set.flatMap fun x => x.2.markers) = numerals 0 (notesOf b.sentences).length
          ↔ ∀ block ∈ b.blocks, s.NotesApart block) := by
  have hmarkers := s.markers_paragraphs 0 b.elements
  have hnotes := s.notes_setElements 0 b.elements
  rw [← Body.sentences_eq] at hmarkers hnotes
  exact ⟨s.paragraphs 0 b.elements, s.fst_paragraphs 0 b.elements, s.sorts_setElements 0 b.elements,
    hnotes, hmarkers⟩

/-- A sentence that ends with two notes. -/
def twoNotes : Body :=
  ⟨[.content ⟨.paragraph, [⟨[.text ⟨"Ravens fly", ⟨1, 11⟩⟩, .note ⟨"a", ⟨1, 29⟩⟩,
    .note ⟨"b", ⟨1, 38⟩⟩], ⟨1, 11⟩⟩], ⟨1, 1⟩⟩]⟩

/-- The two notes of the sentence share one marker, which is the number of neither. -/
theorem markers_twoNotes :
    let s : Setting := { sheet := .ofGuide .house .paper, shelf := .ofWorks [] }
    (s.setBody twoNotes).placed = []
      ∧ ((s.setBody twoNotes).body.filterMap Block.paragraph?).flatMap Paragraph.markers = ["12"]
      ∧ numerals 0 (s.setBody twoNotes).notes.length = ["1", "2"] := by
  decide +kernel

end Manuscript
