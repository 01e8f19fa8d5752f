import Manuscript.Proofs.Text.Trimming
import Manuscript.Proofs.Typeset.Emphasis

/-!
# What a paragraph is put together from

A paragraph is made of the sentences that have a text. Each is joined and, where the guide asks for
it, completed by a capital and a stop; separators stand between them and nowhere else. The spans
that come out are merged, which leaves every character in its place and its emphasis.

* `Span.Completed`: what a joined sentence and its completed form have to do with each other.
* `Paragraph.Prints`: the paragraph has the text and the emphases of some sentences.
* `Paragraph.assemble_prints`: it prints its joined sentences, or their completed forms.
-/

namespace Manuscript

open Manuscript.Typeset
open Manuscript.Character (isBlank)

/-! ## Ends of sentences -/

/-- Whether a text ends a sentence is a matter of its end. -/
theorem Typeset.endsSentence_append {isTerminal : Char → Bool} {ds : List Char}
    (h : endsSentence isTerminal ds = true) (cs : List Char) :
    endsSentence isTerminal (cs ++ ds) = true := by
  unfold endsSentence at h ⊢
  dsimp only at h ⊢
  generalize (fun c : Char => ['"', '\'', '”', '’'].contains c) = isQuote at h ⊢
  have hleft : Text.trimRight isQuote (Text.trimRight isBlank ds) ≠ [] := by
    intro hnil
    rw [hnil] at h
    cases h
  have hvisible : Text.trimRight isBlank ds ≠ [] := by
    intro hnil
    rw [hnil] at hleft
    exact hleft rfl
  rw [Text.trimRight_append_of_ne_nil hvisible, Text.trimRight_append_of_ne_nil hleft,
    List.getLast?_append_of_ne_nil cs hleft]
  exact h

theorem Typeset.endsSentence_stop {isTerminal : Char → Bool} (h : isTerminal '.' = true) :
    endsSentence isTerminal ['.'] = true := h

namespace Span

variable {isTerminal : Char → Bool} {joined spans words : List Span} {s : Span}

/-! ## Completed sentences -/

/-- A joined sentence in its completed form, with its words and the markers at its end. -/
structure Completed (isTerminal : Char → Bool) (joined words markers set : List Span) : Prop where
  parts : set = words ++ neededStop isTerminal words ++ markers
  capital : ∃ s rest, joined = s :: rest
    ∧ words ++ markers = ⟨String.ofList (capitalizeFirst s.text.toList), s.emphasis⟩ :: rest
  markers : ∀ s ∈ markers, s.emphasis = .superscript
  word : ∀ last ∈ words.getLast?, last.emphasis ≠ .superscript
  ends : (∃ s ∈ joined, s.emphasis ≠ .superscript) →
    endsSentence isTerminal (plainText (words ++ neededStop isTerminal words)).toList = true

/-- Words end a sentence by themselves, or by the stop that they need. -/
theorem endsSentence_words (hstop : isTerminal '.' = true) (hwords : words ≠ []) :
    endsSentence isTerminal (chars (words ++ neededStop isTerminal words)) = true := by
  obtain ⟨front, last, rfl⟩ := (List.eq_nil_or_concat' words).resolve_left hwords
  unfold neededStop
  rw [List.getLast?_concat, Option.any_some]
  -- the last word decides; what stands in front of it does not matter
  by_cases hends : endsSentence isTerminal last.text.toList = true
  · have hlast : chars [last] = last.text.toList := List.append_nil _
    rw [hends, Bool.not_true, if_neg Bool.false_ne_true, List.append_nil, chars_append, hlast]
    exact endsSentence_append hends _
  · rw [Bool.eq_false_iff.mpr hends, Bool.not_false, if_pos rfl, chars_append]
    exact endsSentence_append (endsSentence_stop hstop) _

/-- A capital at the start leaves every span in its emphasis. -/
theorem map_emphasis_capitalizeStart (spans : List Span) :
    (capitalizeStart spans).map Span.emphasis = spans.map Span.emphasis := by
  cases spans <;> rfl

/-- Completing a sentence that has a text. -/
theorem completed_complete (hstop : isTerminal '.' = true) (hjoined : joined ≠ []) :
    ∃ words markers, Completed isTerminal joined words markers (complete isTerminal joined) := by
  obtain ⟨hsplit, hword⟩ := append_splitMarkers (capitalizeStart joined)
  refine ⟨(splitMarkers (capitalizeStart joined)).1, (splitMarkers (capitalizeStart joined)).2,
    finish_eq isTerminal _, ?_, fun t => emphasis_of_mem_splitMarkers, hword, ?_⟩
  · cases joined with
    | nil => exact absurd rfl hjoined
    | cons s rest => exact ⟨s, rest, rfl, hsplit⟩
  · intro ⟨s, hs, hne⟩
    rw [toList_plainText]
    apply endsSentence_words hstop
    -- without words all spans would be markers
    intro hnil
    rw [hnil, List.nil_append] at hsplit
    have hemphasis : s.emphasis ∈ (capitalizeStart joined).map Span.emphasis := by
      rw [map_emphasis_capitalizeStart]
      exact List.mem_map_of_mem hs
    obtain ⟨t, ht, heq⟩ := List.mem_map.mp hemphasis
    rw [← hsplit] at ht
    exact hne (heq ▸ emphasis_of_mem_splitMarkers ht)

/-! ## Texts of spans -/

theorem plainText_append (spans others : List Span) :
    plainText (spans ++ others) = plainText spans ++ plainText others := by
  apply String.toList_injective
  rw [String.toList_append, toList_plainText, toList_plainText, toList_plainText, chars_append]

theorem plainText_merge (spans : List Span) : plainText (merge spans) = plainText spans := by
  apply String.toList_injective
  rw [toList_plainText, toList_plainText, chars_merge]

/-- What stands between two sentences is the separator, also if it is empty. -/
theorem styled_separator (separator : String) :
    styled (if separator.isEmpty then [] else [regular separator])
      = styled [regular separator] := by
  split_ifs with h
  · rw [String.isEmpty_iff.mp h]
    rfl
  · rfl

theorem plainText_separator (separator : String) :
    plainText (if separator.isEmpty then [] else [regular separator]) = separator := by
  split_ifs with h
  · exact (String.isEmpty_iff.mp h).symm
  · exact Gathered.join_singleton separator

end Span

namespace Paragraph

open Manuscript.Span

/-! ## Paragraphs -/

/-- The paragraph has the text of some sentences, with a separator between them. Every character is
in its emphasis, no span is empty, and spans that stand side by side differ in emphasis. -/
structure Prints (separator : String) (sentences : List (List Span)) (p : Paragraph) : Prop where
  text : p.text = Text.joinWith separator (sentences.map plainText)
  emphases : styled p.spans = (styled [regular separator]).intercalate (sentences.map styled)
  isEmpty : ∀ s ∈ p.spans, s.text.isEmpty = false
  isChain : p.spans.IsChain fun s t => s.emphasis ≠ t.emphasis

theorem plainText_chain (separator : String) (sentences : List (List Span)) :
    plainText (chain separator sentences)
      = Text.joinWith separator (sentences.map plainText) := by
  fun_induction chain separator sentences with
  | case1 => rfl
  | case2 sentence => rfl
  | case3 sentence next rest ih =>
    rw [plainText_append, plainText_append, plainText_separator, ih]
    rfl

theorem styled_chain (separator : String) (sentences : List (List Span)) :
    styled (chain separator sentences)
      = (styled [regular separator]).intercalate (sentences.map styled) := by
  fun_induction chain separator sentences with
  | case1 => rfl
  | case2 sentence => simp
  | case3 sentence next rest ih =>
    rw [styled_append, styled_append, styled_separator, ih, List.map_cons, List.map_cons,
      List.map_cons, List.intercalate_cons_cons]

/-- A paragraph prints its sentences as they are set. -/
theorem prints_setSentences (indentation : Number.Binary32) (separator : String) (completes : Bool)
    (isTerminal : Char → Bool) (sentences : List (List Span)) :
    (assemble indentation separator completes isTerminal sentences).Prints separator
      (setSentences completes isTerminal sentences) := by
  have hspans := spans_assemble indentation separator completes isTerminal sentences
  constructor
  · unfold text
    rw [hspans, plainText_merge, plainText_chain]
  · rw [hspans, styled_merge, styled_chain]
  · rw [hspans]
    exact isEmpty_merge _
  · rw [hspans]
    exact isChain_merge _

/-- A paragraph prints the sentences in which some span has a text, each of them joined, or joined
and completed. -/
theorem assemble_prints (indentation : Number.Binary32) (separator : String)
    (isTerminal : Char → Bool) (sentences : List (List Span)) (hstop : isTerminal '.' = true) :
    let joined := (sentences.filter fun x => x.any fun s => !s.text.isEmpty).map joinSentence
    (assemble indentation separator false isTerminal sentences).Prints separator joined
      ∧ (assemble indentation separator true isTerminal sentences).Prints separator
        (joined.map (complete isTerminal))
      ∧ ∀ sentence ∈ joined, ∃ words markers,
        Completed isTerminal sentence words markers (complete isTerminal sentence) := by
  have hfilter : (fun x : List Span => x.any fun s => !s.text.isEmpty)
      = fun x => !(shown x).isEmpty := by
    funext x
    unfold shown
    rw [Bool.eq_iff_iff]
    simp
  rw [hfilter]
  refine ⟨prints_setSentences indentation separator false isTerminal sentences, ?_, ?_⟩
  · have hcompleted := prints_setSentences indentation separator true isTerminal sentences
    rw [List.map_map]
    exact hcompleted
  · intro sentence hsentence
    obtain ⟨spans, hspans, rfl⟩ := List.mem_map.mp hsentence
    apply completed_complete hstop
    have hshown : (joinSentence spans).isEmpty = false := by
      rw [isEmpty_joinSentence_iff]
      simpa using (List.mem_filter.mp hspans).2
    exact List.isEmpty_eq_false_iff.mp hshown

/-- A sentence with a marker at its end, one without a text, and one that is but a marker. -/
theorem assemble_prints_markers :
    let indentation := Guide.mla9.rules.indentation.points
    let raven : List Span := [regular "a", italic "raven", ⟨"1", .superscript⟩]
    let marker : List Span := [⟨"2", .superscript⟩]
    Guide.mla9.isTerminal '.' = true
      ∧ (assemble indentation " " true Guide.mla9.isTerminal [raven, [regular ""], marker]).Prints
        " " [[regular "A", regular " ", italic "raven", regular ".", ⟨"1", .superscript⟩],
          marker] := by
  intro indentation raven marker
  have hstop : Guide.mla9.isTerminal '.' = true := by decide
  have hprints := (assemble_prints indentation " " Guide.mla9.isTerminal
    [raven, [regular ""], marker] hstop).2.1
  have hset : (([raven, [regular ""], marker].filter fun x =>
      x.any fun s => !s.text.isEmpty).map joinSentence).map (complete Guide.mla9.isTerminal)
        = [[regular "A", regular " ", italic "raven", regular ".", ⟨"1", .superscript⟩],
          marker] := by
    decide
  rw [hset] at hprints
  exact ⟨hstop, hprints⟩

end Paragraph

end Manuscript
