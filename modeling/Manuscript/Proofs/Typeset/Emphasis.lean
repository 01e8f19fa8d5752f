import Mathlib.Algebra.GroupWithZero.Nat
import Manuscript.Proofs.Character.SmallLetters
import Manuscript.Proofs.Typeset.Merging
import Manuscript.Style.Sheet

/-!
# What a paragraph prints in an emphasis

A paragraph is put together in steps: the runs of a sentence are joined, its start is capitalized, a
stop is put at its end, sentences are chained, and neighbours of equal emphasis are merged. All that
is put in on the way is regular, so that the texts of any other emphasis are those of the runs, in
their order; some may be merged, and one at the start of a sentence may be capitalized.

* `Span.Sets`: what is kept of the spans of a sentence when it is set.
* `Paragraph.gathered_assemble`: a paragraph prints the texts of an emphasis in groups.
* `Paragraph.length_assemble`: it merges as many markers as stand side by side.
-/

namespace Manuscript

open Manuscript.Typeset

namespace Span

section

variable {e : Emphasis} {s : Span} {spans : List Span}

/-! ## Joining -/

/-- Every span that follows another one in a sentence has a text. -/
theorem isEmpty_joinAfter (previous : Span) (h : ∀ s ∈ spans, s.text.isEmpty = false) :
    ∀ s ∈ joinAfter previous spans, s.text.isEmpty = false := by
  induction spans generalizing previous with
  | nil => exact fun s hs => absurd hs List.not_mem_nil
  | cons s rest ih =>
    obtain ⟨hs, hrest⟩ := List.forall_mem_cons.mp h
    unfold joinAfter
    split_ifs
    · exact List.forall_mem_cons.mpr ⟨rfl, List.forall_mem_cons.mpr ⟨hs, ih s hrest⟩⟩
    · exact List.forall_mem_cons.mpr ⟨hs, ih s hrest⟩

/-- The spaces between the spans are regular. -/
theorem textsOf_joinAfter (he : e ≠ .regular) (previous : Span) (spans : List Span) :
    textsOf e (joinAfter previous spans) = textsOf e spans := by
  induction spans generalizing previous with
  | nil => rfl
  | cons s rest ih =>
    have hspace : (regular " ").emphasis ≠ e := Ne.symm he
    unfold joinAfter
    split_ifs
    · rw [textsOf_cons_of_ne hspace, textsOf_cons, ih, ← textsOf_cons]
    · rw [textsOf_cons, ih, ← textsOf_cons]

/-- No space stands in front of a marker. -/
theorem marks_joinAfter (previous : Span) (spans : List Span) :
    SameContacts (marks .superscript spans) (marks .superscript (joinAfter previous spans)) := by
  induction spans generalizing previous with
  | nil => exact .refl []
  | cons s rest ih =>
    unfold joinAfter
    split_ifs with hspace
    · have hs : (s.emphasis == .superscript) = false := beq_false_of_ne hspace.1
      have hpad : SameContacts (marks .superscript [s]) (marks .superscript [regular " ", s]) := by
        unfold marks
        rw [List.map_cons, List.map_nil, hs]
        simp only [List.map_cons, List.map_nil, hs]
        exact .pad
      exact hpad.append (ih s)
    · exact (SameContacts.refl (marks .superscript [s])).append (ih s)

theorem joinSentence_of_nil (h : shown spans = []) : joinSentence spans = [] := by
  unfold joinSentence
  unfold shown at h
  rw [h]

theorem joinSentence_of_cons {rest : List Span} (h : shown spans = s :: rest) :
    joinSentence spans = s :: joinAfter s rest := by
  unfold joinSentence
  unfold shown at h
  rw [h]

/-- Joining a sentence puts in nothing but regular spaces, none of them in front of a marker. -/
theorem textsOf_joinSentence (he : e ≠ .regular) (spans : List Span) :
    textsOf e (joinSentence spans) = textsOf e (shown spans) := by
  cases h : shown spans with
  | nil => rw [joinSentence_of_nil h]
  | cons s rest =>
    rw [joinSentence_of_cons h, textsOf_cons, textsOf_joinAfter he, ← textsOf_cons]

theorem marks_joinSentence (spans : List Span) :
    SameContacts (marks .superscript (shown spans)) (marks .superscript (joinSentence spans)) := by
  cases h : shown spans with
  | nil =>
    rw [joinSentence_of_nil h]
    exact .refl _
  | cons s rest =>
    rw [joinSentence_of_cons h]
    exact (SameContacts.refl (marks .superscript [s])).append (marks_joinAfter s rest)

theorem isEmpty_joinSentence (spans : List Span) :
    ∀ s ∈ joinSentence spans, s.text.isEmpty = false := by
  have hshown : ∀ s ∈ shown spans, s.text.isEmpty = false := by
    intro s hs
    simpa using (List.mem_filter.mp hs).2
  cases h : shown spans with
  | nil =>
    rw [joinSentence_of_nil h]
    exact List.forall_mem_nil _
  | cons s rest =>
    rw [h] at hshown
    obtain ⟨hs, hrest⟩ := List.forall_mem_cons.mp hshown
    rw [joinSentence_of_cons h]
    exact List.forall_mem_cons.mpr ⟨hs, isEmpty_joinAfter s hrest⟩

/-! ## Completing a sentence -/

/-- A capital at the start does not leave a text empty. -/
theorem capitalizeFirst_ne_nil {cs : List Char} (h : cs ≠ []) : capitalizeFirst cs ≠ [] := by
  cases cs with
  | nil => exact absurd rfl h
  | cons c cs =>
    unfold capitalizeFirst
    split_ifs
    · exact List.append_ne_nil_of_left_ne_nil (Character.upper_ne_nil c) cs
    · simp
    · simp

/-- A text without lower case letters is its own capitalized form. -/
theorem capitalizeFirst_eq_self {cs : List Char} (h : ∀ c ∈ cs, Character.isLowercase c = false) :
    capitalizeFirst cs = cs := by
  induction cs with
  | nil => rfl
  | cons c cs ih =>
    obtain ⟨hc, hcs⟩ := List.forall_mem_cons.mp h
    unfold capitalizeFirst
    rw [hc, ih hcs, if_neg Bool.false_ne_true]
    exact ite_self _

/-- The second text is the first one, or it is the first one with a capital at its start. -/
def SameUpToCapital (t u : String) : Prop := u = t ∨ u = String.ofList (capitalizeFirst t.toList)

theorem textsOf_capitalizeStart (e : Emphasis) (spans : List Span) :
    List.Forall₂ SameUpToCapital (textsOf e spans) (textsOf e (capitalizeStart spans)) := by
  have hrefl (texts : List String) : List.Forall₂ SameUpToCapital texts texts :=
    List.forall₂_same.mpr fun _ _ => .inl rfl
  cases spans with
  | nil => exact .nil
  | cons s rest =>
    let capital : Span := ⟨String.ofList (capitalizeFirst s.text.toList), s.emphasis⟩
    show List.Forall₂ _ (textsOf e (s :: rest)) (textsOf e (capital :: rest))
    by_cases he : s.emphasis = e
    · rw [textsOf_cons_of_eq he, textsOf_cons_of_eq (s := capital) he]
      exact .cons (.inr rfl) (hrefl _)
    · rw [textsOf_cons_of_ne he, textsOf_cons_of_ne (s := capital) he]
      exact hrefl _

theorem marks_capitalizeStart (e : Emphasis) (spans : List Span) :
    marks e (capitalizeStart spans) = marks e spans := by
  cases spans <;> rfl

/-- The words and the markers of a sentence are its spans, and the last word is no marker. -/
theorem append_splitMarkers (spans : List Span) :
    (splitMarkers spans).1 ++ (splitMarkers spans).2 = spans
      ∧ ∀ last ∈ (splitMarkers spans).1.getLast?, last.emphasis ≠ .superscript := by
  unfold splitMarkers
  constructor
  · rw [← List.reverse_append, List.takeWhile_append_dropWhile, List.reverse_reverse]
  · intro last hlast
    rw [List.getLast?_reverse] at hlast
    have hword :=
      List.head?_dropWhile_not (fun s : Span => s.emphasis == .superscript) spans.reverse
    rw [hlast] at hword
    simpa using hword

theorem isEmpty_capitalizeStart (h : ∀ s ∈ spans, s.text.isEmpty = false) :
    ∀ s ∈ capitalizeStart spans, s.text.isEmpty = false := by
  cases spans with
  | nil => exact h
  | cons s rest =>
    obtain ⟨hs, hrest⟩ := List.forall_mem_cons.mp h
    refine List.forall_mem_cons.mpr ⟨?_, hrest⟩
    have hne : s.text.toList ≠ [] := by simpa using hs
    simpa using capitalizeFirst_ne_nil hne

theorem emphasis_of_mem_splitMarkers (h : s ∈ (splitMarkers spans).2) :
    s.emphasis = .superscript := by
  have hmarker := List.all_eq_true.mp List.all_takeWhile s (List.mem_reverse.mp h)
  exact beq_iff_eq.mp hmarker

/-- The stop that a sentence needs behind its words. -/
def neededStop (isTerminal : Char → Bool) (words : List Span) : List Span :=
  if words.getLast?.any fun last => !endsSentence isTerminal last.text.toList
  then [regular "."] else []

theorem finish_eq (isTerminal : Char → Bool) (spans : List Span) :
    finish isTerminal spans = (splitMarkers spans).1
      ++ neededStop isTerminal (splitMarkers spans).1 ++ (splitMarkers spans).2 := by
  have hsplit := (append_splitMarkers spans).1
  unfold finish neededStop
  rcases h : splitMarkers spans with ⟨words, markers⟩
  rw [h] at hsplit
  dsimp only at hsplit ⊢
  cases words.getLast? with
  | none => simp [hsplit]
  | some last =>
    by_cases hends : endsSentence isTerminal last.text.toList = true
    · simp [hends, hsplit]
    · simp [hends]

/-- A stop is put behind the last word, or nothing is. -/
theorem finish_cases (isTerminal : Char → Bool) (spans : List Span) :
    finish isTerminal spans = spans
      ∨ ∃ words last markers, spans = words ++ last :: markers ∧ last.emphasis ≠ .superscript
        ∧ (∀ s ∈ markers, s.emphasis = .superscript)
        ∧ finish isTerminal spans = words ++ last :: regular "." :: markers := by
  obtain ⟨hsplit, hword⟩ := append_splitMarkers spans
  rw [finish_eq]
  unfold neededStop
  split_ifs with hstop
  · obtain ⟨last, hlast, -⟩ := (Option.any_eq_true ..).mp hstop
    obtain ⟨front, hwords⟩ := List.getLast?_eq_some_iff.mp hlast
    refine .inr ⟨front, last, (splitMarkers spans).2, ?_, hword last hlast,
      fun s => emphasis_of_mem_splitMarkers, ?_⟩
    · rw [hwords, List.append_assoc] at hsplit
      exact hsplit.symm
    · rw [hwords, List.append_assoc, List.append_assoc]
      rfl
  · rw [List.append_nil]
    exact .inl hsplit

/-- The stop is regular. -/
theorem textsOf_finish (he : e ≠ .regular) (isTerminal : Char → Bool) (spans : List Span) :
    textsOf e (finish isTerminal spans) = textsOf e spans := by
  rcases finish_cases isTerminal spans with h | ⟨words, last, markers, hspans, -, -, h⟩
  · rw [h]
  · have hstop : (regular ".").emphasis ≠ e := Ne.symm he
    rw [h, hspans, textsOf_append, textsOf_append, textsOf_cons, textsOf_cons_of_ne hstop,
      ← textsOf_cons]

/-- The stop stands behind a word. -/
theorem marks_finish (isTerminal : Char → Bool) (spans : List Span) :
    SameContacts (marks .superscript spans) (marks .superscript (finish isTerminal spans)) := by
  rcases finish_cases isTerminal spans with h | ⟨words, last, markers, hspans, hlast, -, h⟩
  · rw [h]
    exact .refl _
  · have hmark : (last.emphasis == .superscript) = false := beq_false_of_ne hlast
    have hpad : SameContacts (marks .superscript [last])
        (marks .superscript [last, regular "."]) := by
      simp only [marks, List.map_cons, List.map_nil, hmark]
      exact .pad
    have hbehind := hpad.append (.refl (marks .superscript markers))
    have hall := (SameContacts.refl (marks .superscript words)).append hbehind
    rw [h, hspans]
    simpa [marks] using hall

theorem isEmpty_finish (isTerminal : Char → Bool) (h : ∀ s ∈ spans, s.text.isEmpty = false) :
    ∀ s ∈ finish isTerminal spans, s.text.isEmpty = false := by
  rcases finish_cases isTerminal spans with hfinish | ⟨words, last, markers, hspans, -, -, hfinish⟩
  · rw [hfinish]
    exact h
  · rw [hfinish]
    rw [hspans] at h
    intro s hs
    have hcases : s = regular "." ∨ s ∈ words ++ last :: markers := by
      simp only [List.mem_append, List.mem_cons] at hs ⊢
      tauto
    rcases hcases with rfl | hmem
    · rfl
    · exact h s hmem

/-- A sentence as it is joined and, where the guide asks for it, completed. -/
def setSentence (completes : Bool) (isTerminal : Char → Bool) (spans : List Span) : List Span :=
  if completes then complete isTerminal (joinSentence spans) else joinSentence spans

/-- What becomes of the spans of a sentence that are not regular. -/
structure Sets (spans set : List Span) : Prop where
  texts : ∀ e, e ≠ .regular → List.Forall₂ SameUpToCapital (textsOf e (shown spans)) (textsOf e set)
  marks : SameContacts (marks .superscript (shown spans)) (marks .superscript set)
  isEmpty : ∀ s ∈ set, s.text.isEmpty = false

/-- A sentence is set with all that it has in other emphases. -/
theorem sets_setSentence (completes : Bool) (isTerminal : Char → Bool) (spans : List Span) :
    Sets spans (setSentence completes isTerminal spans) := by
  unfold setSentence
  cases completes with
  | false =>
    constructor
    · intro e he
      rw [if_neg Bool.false_ne_true, textsOf_joinSentence he]
      exact List.forall₂_same.mpr fun _ _ => .inl rfl
    · exact marks_joinSentence spans
    · exact isEmpty_joinSentence spans
  | true =>
    constructor
    · intro e he
      rw [if_pos rfl, complete, textsOf_finish he, ← textsOf_joinSentence he]
      exact textsOf_capitalizeStart e _
    · have hstart := marks_capitalizeStart .superscript (joinSentence spans)
      have hfinish := marks_finish isTerminal (capitalizeStart (joinSentence spans))
      rw [hstart] at hfinish
      exact (marks_joinSentence spans).trans hfinish
    · exact isEmpty_finish isTerminal (isEmpty_capitalizeStart (isEmpty_joinSentence spans))

end

end Span

namespace Paragraph

open Manuscript.Span

variable {e : Emphasis}

/-- The separators are regular. -/
theorem textsOf_chain (he : e ≠ .regular) (separator : String) (sentences : List (List Span)) :
    textsOf e (chain separator sentences) = sentences.flatMap (textsOf e) := by
  have hseparator : (regular separator).emphasis ≠ e := Ne.symm he
  fun_induction chain separator sentences with
  | case1 => rfl
  | case2 sentence => simp
  | case3 sentence next rest ih =>
    have hcons : (sentence :: next :: rest).flatMap (textsOf e)
        = textsOf e sentence ++ (next :: rest).flatMap (textsOf e) := List.flatMap_cons
    rw [textsOf_append, textsOf_append, ih, hcons]
    split_ifs
    · rw [textsOf_nil, List.append_nil]
    · rw [textsOf_cons_of_ne hseparator, textsOf_nil, List.append_nil]

/-- Without a separator the sentences stand directly behind each other. -/
theorem chain_of_isEmpty {separator : String} (h : separator.isEmpty = true)
    (sentences : List (List Span)) : chain separator sentences = sentences.flatten := by
  fun_induction chain separator sentences with
  | case1 => rfl
  | case2 sentence => simp
  | case3 sentence next rest ih => rw [if_pos h, ih, List.append_nil]; rfl

/-- A separator keeps the markers of two sentences apart. -/
theorem contacts_chain {separator : String} (h : ¬ separator.isEmpty = true)
    (sentences : List (List Span)) :
    contacts (marks .superscript (chain separator sentences))
      = (sentences.map fun s => contacts (marks .superscript s)).sum := by
  fun_induction chain separator sentences with
  | case1 => rfl
  | case2 sentence => simp
  | case3 sentence next rest ih =>
    rw [if_neg h, List.map_cons, List.sum_cons, ← ih, ← contacts_append_false]
    simp only [marks, List.append_assoc, List.map_append]
    rfl

/-- Every span of a paragraph has a text before the spans are merged. -/
theorem isEmpty_chain {separator : String} {sentences : List (List Span)}
    (h : ∀ sentence ∈ sentences, ∀ s ∈ sentence, s.text.isEmpty = false) :
    ∀ s ∈ chain separator sentences, s.text.isEmpty = false := by
  fun_induction chain separator sentences with
  | case1 => exact fun s hs => absurd hs List.not_mem_nil
  | case2 sentence => exact h sentence List.mem_cons_self
  | case3 sentence next rest ih =>
    obtain ⟨hfirst, hrest⟩ := List.forall_mem_cons.mp h
    refine List.forall_mem_append.mpr ⟨List.forall_mem_append.mpr ⟨hfirst, ?_⟩, ih hrest⟩
    intro s hs
    split_ifs at hs with hseparator
    · cases hs
    · obtain rfl := List.mem_singleton.mp hs
      exact Bool.eq_false_iff.mpr hseparator

/-- The sentences of a paragraph that have a text, as they are set. -/
def setSentences (completes : Bool) (isTerminal : Char → Bool) (sentences : List (List Span)) :
    List (List Span) :=
  (sentences.filter fun x => !(shown x).isEmpty).map (setSentence completes isTerminal)

theorem isEmpty_joinSentence_iff (spans : List Span) :
    (joinSentence spans).isEmpty = (shown spans).isEmpty := by
  cases h : shown spans with
  | nil => rw [joinSentence_of_nil h]
  | cons s rest =>
    rw [joinSentence_of_cons h]
    rfl

/-- The spans of a paragraph are those of its set sentences, chained and merged. -/
theorem spans_assemble (indentation : Number.Binary32) (separator : String) (completes : Bool)
    (isTerminal : Char → Bool) (sentences : List (List Span)) :
    (assemble indentation separator completes isTerminal sentences).spans
      = merge (chain separator (setSentences completes isTerminal sentences)) := by
  have hjoined : (sentences.map joinSentence).filter (fun s => !s.isEmpty)
      = (sentences.filter fun x => !(shown x).isEmpty).map joinSentence := by
    rw [List.filter_map]
    simp only [Function.comp_def, isEmpty_joinSentence_iff]
  unfold assemble setSentences
  dsimp only
  rw [hjoined]
  cases completes with
  | false => rfl
  | true => rw [if_pos rfl, List.map_map]; rfl

section

variable {spans : List Span} {completes : Bool} {isTerminal : Char → Bool}

/-- A sentence without a text is left out. -/
theorem setSentences_cons_of_nil (h : shown spans = []) (rest : List (List Span)) :
    setSentences completes isTerminal (spans :: rest) = setSentences completes isTerminal rest := by
  simp [setSentences, h]

theorem setSentences_cons_of_ne_nil (h : shown spans ≠ []) (rest : List (List Span)) :
    setSentences completes isTerminal (spans :: rest)
      = setSentence completes isTerminal spans :: setSentences completes isTerminal rest := by
  simp [setSentences, h]

/-- The sentences are set with all that they have in other emphases than the regular one. -/
theorem texts_setSentences (he : e ≠ .regular) (sentences : List (List Span)) :
    List.Forall₂ SameUpToCapital (textsOf e (shown sentences.flatten))
      ((setSentences completes isTerminal sentences).flatMap (textsOf e)) := by
  induction sentences with
  | nil => exact .nil
  | cons spans rest ih =>
    rw [List.flatten_cons, shown_append, textsOf_append]
    by_cases h : shown spans = []
    · rw [setSentences_cons_of_nil h, h]
      exact ih
    · rw [setSentences_cons_of_ne_nil h, List.flatMap_cons]
      exact List.rel_append ((sets_setSentence completes isTerminal spans).texts e he) ih

/-- The markers of sentences that stand directly behind each other keep their contacts. -/
theorem marks_setSentences (sentences : List (List Span)) :
    SameContacts (marks .superscript (shown sentences.flatten))
      (marks .superscript (setSentences completes isTerminal sentences).flatten) := by
  induction sentences with
  | nil => exact .refl []
  | cons spans rest ih =>
    rw [List.flatten_cons, shown_append, marks_append]
    by_cases h : shown spans = []
    · rw [setSentences_cons_of_nil h, h]
      exact ih
    · rw [setSentences_cons_of_ne_nil h, List.flatten_cons, marks_append]
      exact (sets_setSentence completes isTerminal spans).marks.append ih

/-- So do the markers of each sentence on its own. -/
theorem sum_contacts_setSentences (sentences : List (List Span)) :
    ((setSentences completes isTerminal sentences).map fun s =>
        contacts (marks .superscript s)).sum
      = (sentences.map fun s => contacts (marks .superscript (shown s))).sum := by
  induction sentences with
  | nil => rfl
  | cons spans rest ih =>
    rw [List.map_cons, List.sum_cons, ← ih]
    by_cases h : shown spans = []
    · rw [setSentences_cons_of_nil h, h]
      exact (Nat.zero_add _).symm
    · rw [setSentences_cons_of_ne_nil h, List.map_cons, List.sum_cons,
        (sets_setSentence completes isTerminal spans).marks.contacts_eq]

theorem shown_chain_setSentences (separator : String) (sentences : List (List Span)) :
    shown (chain separator (setSentences completes isTerminal sentences))
      = chain separator (setSentences completes isTerminal sentences) := by
  apply shown_eq_self
  apply isEmpty_chain
  intro sentence hmem
  obtain ⟨spans, -, rfl⟩ := List.mem_map.mp hmem
  exact (sets_setSentence completes isTerminal spans).isEmpty

end

/-- How often two markers stand side by side in a paragraph of some sentences. A separator keeps
sentences apart. -/
def markerContacts (separator : String) (sentences : List (List Span)) : Nat :=
  if separator.isEmpty then contacts (marks .superscript (shown sentences.flatten))
  else (sentences.map fun s => contacts (marks .superscript (shown s))).sum

section

variable (indentation : Number.Binary32) (separator : String) (completes : Bool)
  (isTerminal : Char → Bool) (sentences : List (List Span))

/-- A paragraph prints the texts of an emphasis in their order, in groups of one or more and perhaps
with capitals at the starts of sentences. -/
theorem gathered_assemble (he : e ≠ .regular) : ∃ texts,
    List.Forall₂ SameUpToCapital (textsOf e (shown sentences.flatten)) texts
      ∧ Gathered texts
        (textsOf e (assemble indentation separator completes isTerminal sentences).spans) := by
  have hmerge := gathered_merge e (chain separator (setSentences completes isTerminal sentences))
  rw [shown_chain_setSentences, textsOf_chain he] at hmerge
  rw [spans_assemble]
  exact ⟨_, texts_setSentences he sentences, hmerge⟩

/-- No span of a paragraph has an emphasis that no span of its sentences has. -/
theorem emphasis_assemble (he : e ≠ .regular) (h : ∀ s ∈ sentences.flatten, s.emphasis ≠ e) :
    ∀ s ∈ (assemble indentation separator completes isTerminal sentences).spans,
      s.emphasis ≠ e := by
  have hshown : textsOf e (shown sentences.flatten) = [] :=
    textsOf_eq_nil_iff.mpr fun s hs => h s (List.mem_of_mem_filter hs)
  obtain ⟨texts, htexts, hgathered⟩ :=
    gathered_assemble indentation separator completes isTerminal sentences he
  rw [hshown] at htexts
  cases htexts
  exact textsOf_eq_nil_iff.mp hgathered.eq_nil

/-- A paragraph has as many spans of markers as it has markers, less one for every two that stand
side by side. -/
theorem length_assemble :
    (textsOf .superscript
        (assemble indentation separator completes isTerminal sentences).spans).length
      + markerContacts separator sentences
      = (textsOf .superscript (shown sentences.flatten)).length := by
  have hmerge := length_merge .superscript
    (chain separator (setSentences completes isTerminal sentences))
  rw [shown_chain_setSentences] at hmerge
  have hchain := textsOf_chain (e := .superscript) (by decide) separator
    (setSentences completes isTerminal sentences)
  have htexts : (textsOf .superscript (shown sentences.flatten)).length
      = ((setSentences completes isTerminal sentences).flatMap (textsOf .superscript)).length :=
    (texts_setSentences (by decide) sentences).length_eq
  have hcontacts : contacts (marks .superscript
      (chain separator (setSentences completes isTerminal sentences)))
        = markerContacts separator sentences := by
    unfold markerContacts
    split_ifs with h
    · rw [chain_of_isEmpty h, (marks_setSentences sentences).contacts_eq]
    · rw [contacts_chain h, sum_contacts_setSentences]
  rw [spans_assemble, htexts, ← hchain, ← hmerge, hcontacts]

end

end Paragraph

end Manuscript
