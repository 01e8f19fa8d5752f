import Manuscript.Proofs.Typeset.Assembly
import Manuscript.Proofs.Typeset.Words

/-!
# Spaces at the junctions of a sentence

The spans of a sentence are joined by single spaces. None is put in front of a usual punctuation
mark, so that a space in front of one stands there in a text of the sentence itself. The joining
rule does not know the further marks that a guide has.

* `Span.LiesIn`, `Span.LiesAcross`: where a piece of the text of spans lies.
* `Span.Settled`: what stands behind the spaces of a joined sentence.
* `Guide.spaces_before_punctuation`: where a space stands in front of a punctuation mark.
* `Guide.space_before_ellipsis`: the house form of a sentence has a space in front of an ellipsis.
-/

namespace Manuscript

open Manuscript.Typeset
open Manuscript.Character

namespace Span

variable {set spans words markers : List Span} {s t : Span} {front back : List Char} {c d : Char}

/-! ## Pieces of a sentence -/

/-- The piece of the text of spans, between what is in front of it and behind it, lies in a span. -/
def LiesIn (set : List Span) (s : Span) (front piece back : List Char) : Prop :=
  ∃ before after u v, set = before ++ s :: after ∧ s.text.toList = u ++ piece ++ v
    ∧ front = chars before ++ u ∧ back = v ++ chars after

/-- Two characters of the text of spans are the last one of a span and the first one of the next. -/
def LiesAcross (set : List Span) (s t : Span) (front : List Char) (c d : Char)
    (back : List Char) : Prop :=
  ∃ before after u v, set = before ++ s :: t :: after ∧ s.text.toList = u ++ [c]
    ∧ t.text.toList = d :: v ∧ front = chars before ++ u ∧ back = v ++ chars after

theorem LiesIn.cons (s₀ : Span) {piece : List Char} (h : LiesIn set s front piece back) :
    LiesIn (s₀ :: set) s (s₀.text.toList ++ front) piece back := by
  obtain ⟨before, after, u, v, rfl, htext, rfl, hback⟩ := h
  exact ⟨s₀ :: before, after, u, v, rfl, htext, (List.append_assoc ..).symm, hback⟩

theorem LiesAcross.cons (s₀ : Span) (h : LiesAcross set s t front c d back) :
    LiesAcross (s₀ :: set) s t (s₀.text.toList ++ front) c d back := by
  obtain ⟨before, after, u, v, rfl, hs, ht, rfl, hback⟩ := h
  exact ⟨s₀ :: before, after, u, v, rfl, hs, ht, (List.append_assoc ..).symm, hback⟩

/-- The first character of the text of spans is that of the first span. -/
theorem exists_of_chars_eq_cons (hempty : ∀ s ∈ set, s.text.isEmpty = false)
    (h : chars set = d :: back) :
    ∃ t after v, set = t :: after ∧ t.text.toList = d :: v ∧ back = v ++ chars after := by
  cases set with
  | nil => cases h
  | cons t after =>
    have ht := hempty t List.mem_cons_self
    rw [chars_cons] at h
    cases htext : t.text.toList with
    | nil => simp [String.toList_eq_nil_iff.mp htext] at ht
    | cons e v =>
      rw [htext] at h
      obtain ⟨rfl, rfl⟩ := List.cons.inj h
      exact ⟨t, after, v, rfl, htext, rfl⟩

/-- Two characters that stand side by side lie in one span or at the junction of two. -/
theorem liesIn_or_across (hempty : ∀ s ∈ set, s.text.isEmpty = false)
    (h : chars set = front ++ c :: d :: back) :
    (∃ s ∈ set, LiesIn set s front [c, d] back) ∨ ∃ s t, LiesAcross set s t front c d back := by
  induction set generalizing front with
  | nil => simp at h
  | cons s rest ih =>
    obtain ⟨-, hrest⟩ := List.forall_mem_cons.mp hempty
    have hbehind {front' : List Char} (hfront : front = s.text.toList ++ front')
        (h : chars rest = front' ++ c :: d :: back) :
        (∃ t ∈ s :: rest, LiesIn (s :: rest) t front [c, d] back)
          ∨ ∃ t u, LiesAcross (s :: rest) t u front c d back := by
      rw [hfront]
      rcases ih hrest h with ⟨t, ht, hin⟩ | ⟨t, u, hacross⟩
      · exact .inl ⟨t, List.mem_cons_of_mem s ht, hin.cons s⟩
      · exact .inr ⟨t, u, hacross.cons s⟩
    rw [chars_cons] at h
    rcases List.append_eq_append_iff.mp h with ⟨front', hfront, hchars⟩ | ⟨piece, hs, hpiece⟩
    · exact hbehind hfront hchars
    · -- the first span goes on behind the front by nothing, by one character or by both
      match piece, hpiece with
      | [], hpiece =>
        have hfront : front = s.text.toList ++ [] := by rw [hs, List.append_nil, List.append_nil]
        exact hbehind hfront hpiece.symm
      | [_], hpiece =>
        obtain ⟨rfl, hback⟩ := List.cons.inj hpiece
        obtain ⟨t, after, v, rfl, ht, rfl⟩ := exists_of_chars_eq_cons hrest hback.symm
        exact .inr ⟨s, t, [], after, front, v, rfl, hs, ht, rfl, rfl⟩
      | _ :: _ :: v, hpiece =>
        obtain ⟨rfl, hback⟩ := List.cons.inj hpiece
        obtain ⟨rfl, rfl⟩ := List.cons.inj hback
        refine .inl ⟨s, List.mem_cons_self, [], rest, front, v, rfl, ?_, rfl, rfl⟩
        rw [hs, List.append_assoc]
        rfl

/-- What may stand side by side stands on the two sides of a junction. -/
theorem LiesAcross.related {R : Span → Span → Prop} (h : LiesAcross set s t front c d back)
    (hchain : set.IsChain R) : R s t := by
  obtain ⟨before, after, u, v, rfl, -⟩ := h
  exact (List.isChain_cons_cons.mp (List.isChain_append.mp hchain).2.1).1

/-! ## Joined sentences -/

/-- The text does not end with a space. -/
def Closed (s : Span) : Prop := s.text.toList.getLast? ≠ some ' '

/-- The text neither starts nor ends with a space. -/
def Bare (s : Span) : Prop := s.text.toList.head? ≠ some ' ' ∧ Closed s

/-- What may stand behind a span. If it ends with a space it is nothing but that space, and neither
a marker nor a usual punctuation mark stands behind it. -/
def MayPrecede (s t : Span) : Prop :=
  Closed s ∨ s = regular " " ∧ t.emphasis ≠ .superscript
    ∧ ∀ c ∈ t.text.toList.head?, c ∉ Guide.usualPunctuation

/-- The spaces of a sentence stand where they may, none of them at its end. -/
structure Settled (set : List Span) : Prop where
  chain : set.IsChain MayPrecede
  last : ∀ s ∈ set.getLast?, Closed s

theorem settled_nil : Settled [] := ⟨.nil, by simp⟩

theorem Settled.cons (hs : Closed s) (h : Settled set) : Settled (s :: set) := by
  cases set with
  | nil => exact ⟨.singleton s, by simpa using hs⟩
  | cons t rest =>
    refine ⟨.cons_cons (.inl hs) h.chain, ?_⟩
    rw [List.getLast?_cons_cons]
    exact h.last

theorem Settled.tail (h : Settled (s :: set)) : Settled set := by
  cases set with
  | nil => exact settled_nil
  | cons t rest =>
    have hlast := h.last
    rw [List.getLast?_cons_cons] at hlast
    exact ⟨h.chain.tail, hlast⟩

theorem Settled.space (hmarker : t.emphasis ≠ .superscript)
    (hmark : ∀ c ∈ t.text.toList.head?, c ∉ Guide.usualPunctuation) (h : Settled (t :: set)) :
    Settled (regular " " :: t :: set) := by
  refine ⟨.cons_cons (.inr ⟨rfl, hmarker, hmark⟩) h.chain, ?_⟩
  rw [List.getLast?_cons_cons]
  exact h.last

/-- The joining rule knows the usual punctuation marks. -/
theorem head_of_needsSpaceBetween {previous next : String}
    (h : needsSpaceBetween previous next = true) :
    ∀ c ∈ next.toList.head?, c ∉ Guide.usualPunctuation := by
  intro c hc
  unfold needsSpaceBetween at h
  rw [hc] at h
  cases hlast : previous.toList.getLast? with
  | none => simp [hlast] at h
  | some last =>
    rw [hlast] at h
    have hmark := (Bool.and_eq_true_iff.mp h).2
    have hknown :
        ∀ c ∈ Guide.usualPunctuation, ['.', ',', ';', ':', '!', '?'].contains c = true := by
      simp [Guide.usualPunctuation]
    intro hmem
    rw [hknown c hmem] at hmark
    cases hmark

theorem settled_joinAfter (previous : Span) (h : ∀ s ∈ spans, Bare s) :
    Settled (joinAfter previous spans) := by
  induction spans generalizing previous with
  | nil => exact settled_nil
  | cons s rest ih =>
    obtain ⟨hs, hrest⟩ := List.forall_mem_cons.mp h
    -- a text of the sentence may stand in front of anything, since it does not end with a space
    have htail : Settled (s :: joinAfter s rest) := .cons hs.2 (ih s hrest)
    unfold joinAfter
    split_ifs with hspace
    · exact .space hspace.1 (head_of_needsSpaceBetween hspace.2) htail
    · exact htail

theorem mem_joinAfter {previous : Span} (h : s ∈ joinAfter previous spans) :
    s = regular " " ∨ s ∈ spans := by
  induction spans generalizing previous with
  | nil => cases h
  | cons t rest ih =>
    unfold joinAfter at h
    have hcases : s = regular " " ∨ s = t ∨ s ∈ joinAfter t rest := by
      split_ifs at h
      · simpa using h
      · exact .inr (by simpa using h)
    rcases hcases with hspace | rfl | hrest
    · exact .inl hspace
    · exact .inr List.mem_cons_self
    · exact (ih hrest).imp_right (List.mem_cons_of_mem t)

/-- A joined sentence starts with a text of its own. -/
theorem joinSentence_cases (spans : List Span) :
    joinSentence spans = []
      ∨ ∃ s ∈ spans, ∃ rest, rest ⊆ spans ∧ joinSentence spans = s :: joinAfter s rest := by
  have hshow : shown spans ⊆ spans := List.filter_sublist.subset
  cases hshown : shown spans with
  | nil => exact .inl (joinSentence_of_nil hshown)
  | cons s rest =>
    rw [hshown] at hshow
    obtain ⟨hs, hrest⟩ := List.cons_subset.mp hshow
    exact .inr ⟨s, hs, rest, hrest, joinSentence_of_cons hshown⟩

theorem settled_joinSentence (h : ∀ s ∈ spans, Bare s) : Settled (joinSentence spans) := by
  rcases joinSentence_cases spans with heq | ⟨s, hs, rest, hrest, heq⟩
  · rw [heq]
    exact settled_nil
  · rw [heq]
    exact .cons (h s hs).2 (settled_joinAfter s fun t ht => h t (hrest ht))

theorem head_joinSentence : ∀ s ∈ (joinSentence spans).head?, s ∈ spans := by
  intro s hs
  rcases joinSentence_cases spans with heq | ⟨t, ht, rest, -, heq⟩
  · rw [heq] at hs
    cases hs
  · rw [heq] at hs
    obtain rfl := Option.some.inj hs
    exact ht

theorem mem_joinSentence (h : s ∈ joinSentence spans) : s = regular " " ∨ s ∈ spans := by
  rcases joinSentence_cases spans with heq | ⟨t, ht, rest, hrest, heq⟩
  · rw [heq] at h
    cases h
  · rw [heq] at h
    rcases List.mem_cons.mp h with rfl | hafter
    · exact .inr ht
    · exact (mem_joinAfter hafter).imp_right fun hmem => hrest hmem

/-! ## Completed sentences -/

/-- A capital at the start takes the place of one character, or there is none to put. -/
theorem capitalizeFirst_cases (cs : List Char) :
    capitalizeFirst cs = cs
      ∨ ∃ u c v, cs = u ++ c :: v ∧ isLowercase c = true
        ∧ capitalizeFirst cs = u ++ upper c ++ v := by
  induction cs with
  | nil => exact .inl rfl
  | cons c cs ih =>
    unfold capitalizeFirst
    split_ifs with hletter hlower
    · exact .inr ⟨[], c, cs, rfl, hlower, rfl⟩
    · exact .inl rfl
    · rcases ih with heq | ⟨u, d, v, rfl, hd, heq⟩
      · exact .inl (by rw [heq])
      · exact .inr ⟨c :: u, d, v, rfl, hd, by rw [heq]; rfl⟩

/-- A piece without letters lies to a side of some letters. -/
theorem infix_of_lettered {piece u letters v : List Char} (hpiece : ∀ d ∈ piece, ¬ Lettered d)
    (hletters : ∀ d ∈ letters, Lettered d) (hne : letters ≠ [])
    (h : piece <:+: u ++ (letters ++ v)) : piece <:+: u ∨ piece <:+: v := by
  have houtside {l : List Char} (hl : l ⊆ piece) (hin : l ⊆ letters) : l = [] :=
    List.eq_nil_iff_forall_not_mem.mpr fun d hd => hpiece d (hl hd) (hletters d (hin hd))
  rcases List.infix_append_iff.mp h with hleft | hright | ⟨l, r, rfl, hl, hr⟩
  · exact .inl hleft
  · rcases List.infix_append_iff.mp hright with hinside | hbehind | ⟨l, r, rfl, hl, hr⟩
    · rw [houtside (List.Subset.refl piece) hinside.subset]
      exact .inl (List.nil_infix)
    · exact .inr hbehind
    · rw [houtside (List.subset_append_left l r) hl.subset]
      exact .inr hr.isInfix
  · obtain ⟨d, rest, rfl⟩ := List.exists_cons_of_ne_nil hne
    cases r with
    | nil =>
      rw [List.append_nil]
      exact .inl hl.isInfix
    | cons e r =>
      -- what goes on behind the first part would start with a letter
      have hhead : e = d := (List.cons_prefix_cons.mp hr).1
      refine absurd (hletters d List.mem_cons_self) (hhead ▸ hpiece e ?_)
      exact List.mem_append_right l List.mem_cons_self

/-- A capital brings no piece without letters into a text. -/
theorem SameUpToCapital.infix {t u : String} {piece : List Char} (h : SameUpToCapital t u)
    (hpiece : ∀ d ∈ piece, ¬ Lettered d) (hin : piece <:+: u.toList) : piece <:+: t.toList := by
  rcases h with rfl | rfl
  · exact hin
  · rw [String.toList_ofList] at hin
    rcases capitalizeFirst_cases t.toList with heq | ⟨v, c, w, htext, hc, heq⟩
    · rwa [heq] at hin
    · have hletters : ∀ d ∈ upper c, Lettered d :=
        fun d hd => lettered_of_mem_upper (lettered_of_isLowercase hc) hd
      rw [heq, List.append_assoc] at hin
      rw [htext]
      rcases infix_of_lettered hpiece hletters (upper_ne_nil c) hin with hleft | hright
      · exact hleft.trans (List.prefix_append v _).isInfix
      · exact hright.trans ((List.suffix_cons c w).trans (List.suffix_append v _)).isInfix

/-- A capital leaves no space at the end of a text. -/
theorem Closed.capital (h : Closed s) :
    Closed ⟨String.ofList (capitalizeFirst s.text.toList), s.emphasis⟩ := by
  unfold Closed at h ⊢
  rw [String.toList_ofList]
  rcases capitalizeFirst_cases s.text.toList with heq | ⟨u, c, v, htext, hc, heq⟩
  · rwa [heq]
  · rw [heq]
    rw [htext] at h
    cases v with
    | nil =>
      intro hspace
      rw [List.append_nil, List.getLast?_append_of_ne_nil u (upper_ne_nil c)] at hspace
      have hletter := lettered_of_mem_upper (lettered_of_isLowercase hc)
        (List.mem_of_getLast? hspace)
      exact absurd hletter (by decide)
    | cons d v =>
      rw [List.getLast?_append_of_ne_nil _ (List.cons_ne_nil d v)]
      rwa [List.getLast?_append_of_ne_nil u (List.cons_ne_nil c _), List.getLast?_cons_cons] at h

theorem Settled.capitalizeStart (h : Settled spans) (hhead : ∀ s ∈ spans.head?, Closed s) :
    Settled (capitalizeStart spans) := by
  cases spans with
  | nil => exact h
  | cons s rest => exact .cons (hhead s rfl).capital h.tail

/-- All but the first span stay as they are. -/
theorem mem_capitalizeStart (h : s ∈ capitalizeStart spans) :
    s ∈ spans ∨ ∃ t ∈ spans.head?, SameUpToCapital t.text s.text := by
  cases spans with
  | nil => cases h
  | cons t rest =>
    rcases List.mem_cons.mp h with rfl | hrest
    · exact .inr ⟨t, rfl, .inr rfl⟩
    · exact .inl (List.mem_cons_of_mem t hrest)

/-- The space that is put between texts does not end a sentence, and no marker is behind it, so that
it is not the last word either. -/
theorem Settled.closed_of_markers {last : Span} (h : Settled (words ++ last :: markers))
    (hmarkers : ∀ s ∈ markers, s.emphasis = .superscript) : Closed last := by
  have hbehind := (List.isChain_append.mp h.chain).2.1
  cases markers with
  | nil => exact h.last last (by simp)
  | cons marker rest =>
    rcases (List.isChain_cons_cons.mp hbehind).1 with hclosed | ⟨-, hmarker, -⟩
    · exact hclosed
    · exact absurd (hmarkers marker List.mem_cons_self) hmarker

/-- A stop behind the last word leaves the spaces where they are. -/
theorem Settled.finish (isTerminal : Char → Bool) (h : Settled spans) :
    Settled (finish isTerminal spans) := by
  rcases finish_cases isTerminal spans with heq | ⟨words, last, markers, hspans, -, hmarkers, heq⟩
  · rwa [heq]
  · rw [hspans] at h
    have hlast := h.closed_of_markers hmarkers
    have hstop : Closed (regular ".") := by
      unfold Closed
      decide
    obtain ⟨hwords, hbehind, hjunction⟩ := List.isChain_append.mp h.chain
    have hmarked : (regular "." :: markers).IsChain MayPrecede := by
      rw [List.isChain_cons]
      exact ⟨fun s _ => .inl hstop, hbehind.tail⟩
    rw [heq]
    constructor
    · -- in front of the last word nothing changes
      rw [List.isChain_append]
      exact ⟨hwords, .cons_cons (.inl hlast) hmarked, hjunction⟩
    · intro s hs
      cases markers with
      | nil =>
        obtain rfl : regular "." = s := by simpa using hs
        exact hstop
      | cons marker rest =>
        apply h.last s
        simpa using hs

theorem mem_finish {isTerminal : Char → Bool} (h : s ∈ finish isTerminal spans) :
    s = regular "." ∨ s ∈ spans := by
  rcases finish_cases isTerminal spans with heq | ⟨words, last, markers, hspans, -, -, heq⟩
  · rw [heq] at h
    exact .inr h
  · rw [heq] at h
    rw [hspans]
    simp only [List.mem_append, List.mem_cons] at h ⊢
    tauto

theorem settled_setSentence (completes : Bool) (isTerminal : Char → Bool)
    (h : ∀ s ∈ spans, Bare s) : Settled (setSentence completes isTerminal spans) := by
  have hjoined := settled_joinSentence h
  cases completes with
  | false => exact hjoined
  | true =>
    apply Settled.finish
    exact hjoined.capitalizeStart fun s hs => (h s (head_joinSentence s hs)).2

theorem mem_setSentence {completes : Bool} {isTerminal : Char → Bool}
    (h : s ∈ setSentence completes isTerminal spans) :
    s = regular " " ∨ s = regular "." ∨ ∃ t ∈ spans, SameUpToCapital t.text s.text := by
  have hjoined (hs : s ∈ joinSentence spans) :
      s = regular " " ∨ s = regular "." ∨ ∃ t ∈ spans, SameUpToCapital t.text s.text :=
    (mem_joinSentence hs).imp_right fun hown => .inr ⟨s, hown, .inl rfl⟩
  cases completes with
  | false => exact hjoined h
  | true =>
    rcases mem_finish h with hstop | hmem
    · exact .inr (.inl hstop)
    · rcases mem_capitalizeStart hmem with hkept | ⟨t, ht, hcapital⟩
      · exact hjoined hkept
      · exact .inr (.inr ⟨t, head_joinSentence t ht, hcapital⟩)

/-! ## Spaces in front of punctuation -/

/-- A space that stands in front of a punctuation mark in a set sentence stands there in a text of
the sentence, or it was put in front of a further mark of the house style. The relation says what
becomes of the texts. -/
def SpacesOwn (g : Guide) (R : String → String → Prop) (spans set : List Span) : Prop :=
  ∀ front c back, (plainText set).toList = front ++ ' ' :: c :: back → g.isPunctuation c = true →
    (∃ s, LiesIn set s front [' ', c] back
      ∧ ∃ t ∈ spans, R t.text s.text ∧ [' ', c] <:+: t.text.toList)
    ∨ (g = .house ∧ c ∈ g.rules.extraPunctuation
      ∧ ∃ t, LiesAcross set (regular " ") t front ' ' c back)

theorem spacesOwn_of_settled {R : String → String → Prop} (g : Guide) (h : Settled set)
    (hempty : ∀ s ∈ set, s.text.isEmpty = false)
    (hmem : ∀ s ∈ set, s.text.toList.length ≤ 1 ∨ ∃ t ∈ spans, R t.text s.text)
    (hpieces : ∀ {t u piece}, R t u → (∀ d ∈ piece, ¬ Lettered d) → piece <:+: u.toList →
      piece <:+: t.toList) : SpacesOwn g R spans set := by
  intro front c back htext hc
  rw [toList_plainText] at htext
  rcases liesIn_or_across hempty htext with ⟨s, hs, hin⟩ | ⟨s, t, hacross⟩
  · left
    refine ⟨s, hin, ?_⟩
    obtain ⟨-, -, u, v, -, hpiece, -⟩ := hin
    rcases hmem s hs with hshort | ⟨t, ht, hR⟩
    · -- what was put in between has no room for two characters
      rw [hpiece] at hshort
      simp only [List.length_append, List.length_cons] at hshort
      omega
    · have hmarks : ∀ d ∈ [' ', c], ¬ Lettered d := by
        have hmark := (marks_isPunctuation g).notLettered hc
        have hspace : ¬ Lettered ' ' := by decide
        simpa using ⟨hspace, hmark⟩
      exact ⟨t, ht, hR, hpieces hR hmarks ⟨u, v, hpiece.symm⟩⟩
  · right
    have hmay := hacross.related h.chain
    have hsplit := hacross
    obtain ⟨-, -, u, v, -, hs, ht, -⟩ := hsplit
    rcases hmay with hclosed | ⟨rfl, -, hhead⟩
    · exact absurd (by rw [hs, List.getLast?_concat]) hclosed
    · -- behind the separator stands a mark that the joining rule does not know
      have hunusual := hhead c (by rw [ht]; rfl)
      have hextra : c ∈ g.rules.extraPunctuation := by
        unfold Guide.isPunctuation at hc
        simpa [hunusual] using hc
      cases g with
      | mla9 => cases hextra
      | house => exact ⟨rfl, hextra, t, hacross⟩

end Span

open Manuscript.Span

namespace Guide

/-- If no text starts or ends with a space, a space stands in front of a punctuation mark only where
a text has it, in a sentence that is joined as well as in one that is set in a paragraph. The marks
that only the house style knows are left out of this: they get a space like a word. -/
theorem spaces_before_punctuation (g : Guide) :
    (∀ spans : List Span, (∀ s ∈ spans, Bare s) → SpacesOwn g Eq spans (joinSentence spans))
    ∧ ∀ sentences : List (List Span), (∀ spans ∈ sentences, ∀ s ∈ spans, Bare s) →
      (g.setParagraph sentences).text = Text.joinWith g.rules.sentenceSeparator
        ((Paragraph.setSentences g.rules.strict g.isTerminal sentences).map plainText)
      ∧ ∀ spans ∈ sentences,
        SpacesOwn g SameUpToCapital spans (setSentence g.rules.strict g.isTerminal spans) := by
  constructor
  · intro spans h
    apply spacesOwn_of_settled g (settled_joinSentence h) (isEmpty_joinSentence spans)
    · intro s hs
      rcases mem_joinSentence hs with rfl | hown
      · exact .inl (Nat.le_refl 1)
      · exact .inr ⟨s, hown, rfl⟩
    · intro t u piece htu _ hin
      exact htu ▸ hin
  · intro sentences h
    refine ⟨?_, fun spans hspans => ?_⟩
    · exact (Paragraph.prints_setSentences _ _ g.rules.strict g.isTerminal sentences).text
    · apply spacesOwn_of_settled g (settled_setSentence _ _ (h spans hspans))
        (sets_setSentence _ _ spans).isEmpty
      · intro s hs
        rcases mem_setSentence hs with rfl | rfl | hown
        · exact .inl (Nat.le_refl 1)
        · exact .inl (Nat.le_refl 1)
        · exact .inr hown
      · intro t u piece htu hpiece hin
        exact htu.infix hpiece hin

/-- A comma that a text has a space in front of, and one that follows a text. -/
theorem spaces_before_comma :
    let spans : List Span := [regular "ravens , crows", regular ",", italic "jays"]
    (∀ s ∈ spans, Bare s)
      ∧ SpacesOwn mla9 Eq spans (joinSentence spans)
      ∧ (mla9.setParagraph [spans]).text = "Ravens , crows, jays."
      ∧ SpacesOwn mla9 SameUpToCapital spans (setSentence true mla9.isTerminal spans) := by
  intro spans
  have hbare : ∀ s ∈ spans, Bare s := by
    unfold Bare Closed
    decide
  have hjoined := (spaces_before_punctuation mla9).1 spans hbare
  have hset := (spaces_before_punctuation mla9).2 [spans] (List.forall_mem_singleton.mpr hbare)
  refine ⟨hbare, hjoined, ?_, hset.2 spans List.mem_cons_self⟩
  rw [hset.1]
  decide

/-- An ellipsis is punctuation in the house style, and a space is put in front of it. -/
theorem space_before_ellipsis :
    let spans : List Span := [regular "Wait", regular "…"]
    (∀ s ∈ spans, Bare s) ∧ house.isPunctuation '…' = true
      ∧ (plainText (joinSentence spans)).toList = "Wait".toList ++ ' ' :: '…' :: []
      ∧ (house.setParagraph [spans]).text = "Wait …"
      ∧ ∀ s ∈ spans, ¬ [' ', '…'] <:+: s.text.toList := by
  intro spans
  have hbare : ∀ s ∈ spans, Bare s := by
    unfold Bare Closed
    decide
  exact ⟨hbare, by decide, by decide, by decide, by decide⟩

end Guide

end Manuscript
