import Mathlib.Data.List.Basic
import Manuscript.Token.Lexer

/-!
# The lines of a token stream

The tokens of a source are those of its lines, one line after the other, and each line is laid out
in the same way: a mark of its depth if the depth grew, what the line says, and a line end. Blank
lines and comments leave nothing behind, and a text over several lines belongs to the line that it
begins on.

* `TokenLine`: the tokens of one line, with what holds of them.
* `Deepens`: lines that are marked exactly where the depth grows.
* `keeps_step`: a character completes tokens that the promise of the lexer allows.
* `tokenize_lineGroups`: the tokens of a source are those of such lines.
-/

namespace Manuscript

/-- A value that is a word: one small letter or more. -/
def IsWord (value : String) : Prop := value ≠ "" ∧ ∀ c ∈ value.toList, 'a' ≤ c ∧ c ≤ 'z'

theorem Lexer.isWordLetter_iff {c : Char} : isWordLetter c = true ↔ 'a' ≤ c ∧ c ≤ 'z' := by
  unfold isWordLetter
  rw [Bool.and_eq_true, decide_eq_true_iff, decide_eq_true_iff]

instance (value : String) : Decidable (IsWord value) :=
  decidable_of_iff (value ≠ "" ∧ value.toList.all Lexer.isWordLetter = true) <| by
    unfold IsWord
    simp only [List.all_eq_true, Lexer.isWordLetter_iff]

theorem isWord_singleton {c : Char} (h : Lexer.isWordLetter c = true) :
    IsWord (String.singleton c) := by
  refine ⟨by simp, ?_⟩
  intro c' hc'
  rw [String.toList_singleton, List.mem_singleton] at hc'
  rw [hc']
  exact Lexer.isWordLetter_iff.mp h

theorem IsWord.push {value : String} (hv : IsWord value) {c : Char}
    (h : Lexer.isWordLetter c = true) : IsWord (value.push c) := by
  refine ⟨by simp, ?_⟩
  intro c' hc'
  rw [String.toList_push, List.mem_append, List.mem_singleton] at hc'
  rcases hc' with hc' | rfl
  · exact hv.2 c' hc'
  · exact Lexer.isWordLetter_iff.mp h

/-- A token that says something: a text, a word of small letters, or a separator. -/
structure Token.Speaks (t : Token) : Prop where
  kind : t.kind = .text ∨ t.kind = .keyword ∨ t.kind = .separator
  word : t.kind = .keyword → IsWord t.value

instance (t : Token) : Decidable t.Speaks :=
  decidable_of_iff ((t.kind = .text ∨ t.kind = .keyword ∨ t.kind = .separator)
    ∧ (t.kind = .keyword → IsWord t.value)) ⟨fun h => ⟨h.1, h.2⟩, fun h => ⟨h.kind, h.word⟩⟩

/-- The tokens of one line. -/
structure TokenLine where
  depth : Nat
  /-- The increase of indentation in front of the line. -/
  marker : Option Token
  content : List Token
  stop : Token
  marker_indent : ∀ t ∈ marker, t.kind = .indent ∧ t.value = toString depth
  content_ne_nil : content ≠ []
  content_speaks : ∀ t ∈ content, t.Speaks
  stop_lineEnd : stop.kind = .lineEnd
  indent_eq : ∀ t ∈ marker.toList ++ content ++ [stop], t.indent = depth

/-- The tokens of a line in order. -/
def TokenLine.tokens (line : TokenLine) : List Token :=
  line.marker.toList ++ line.content ++ [line.stop]

/-- Lines behind one of a depth: a line has a mark exactly if it is deeper than the one before. -/
def Deepens : Nat → List TokenLine → Prop
  | _, [] => True
  | previous, line :: rest => (line.marker.isSome ↔ previous < line.depth) ∧ Deepens line.depth rest

/-! ## Tokens from somewhere on

What is left of the tokens of a source begins at the start of a line, inside a line, or at a token
that is to stand inside one. -/

/-- The tokens of whole lines behind one of a depth. -/
def Lined (previous : Nat) (ts : List Token) : Prop :=
  ∃ lines, ts = lines.flatMap TokenLine.tokens ∧ Deepens previous lines

/-- The tokens of the rest of a line, which says nothing more or something, and of lines behind. -/
def Continued (depth : Nat) (ts : List Token) : Prop :=
  ∃ content stop rest, ts = content ++ stop :: rest
    ∧ (∀ t ∈ content, t.Speaks ∧ t.indent = depth)
    ∧ (stop.kind = .lineEnd ∧ stop.indent = depth)
    ∧ Lined depth rest

/-- The tokens of the rest of a line that says something first. -/
def Opened (depth : Nat) (ts : List Token) : Prop :=
  ∃ t rest, ts = t :: rest ∧ (t.Speaks ∧ t.indent = depth) ∧ Continued depth rest

variable {d previous : Nat} {t : Token} {ts : List Token}

/-- A line end closes the line. -/
theorem Lined.continued (h : Lined d ts) (hk : t.kind = .lineEnd) (hd : t.indent = d) :
    Continued d (t :: ts) :=
  ⟨[], t, ts, rfl, nofun, ⟨hk, hd⟩, h⟩

theorem Opened.continued (h : Opened d ts) : Continued d ts := by
  obtain ⟨t, _, rfl, ht, content, stop, rest, rfl, hcontent, hstop, hrest⟩ := h
  have hspeaks : ∀ u ∈ t :: content, u.Speaks ∧ u.indent = d :=
    List.forall_mem_cons.mpr ⟨ht, hcontent⟩
  exact ⟨t :: content, stop, rest, rfl, hspeaks, hstop, hrest⟩

/-- A line that says something may stand behind another one, with a mark if it is deeper. -/
theorem Opened.lined (h : Opened d ts) (marker : Option Token)
    (hmarker : ∀ m ∈ marker, m.kind = .indent ∧ m.value = toString d)
    (hdepth : ∀ m ∈ marker, m.indent = d) (hdeeper : marker.isSome ↔ previous < d) :
    Lined previous (marker.toList ++ ts) := by
  obtain ⟨t, _, rfl, ht, content, stop, rest, rfl, hcontent, hstop, lines, rfl, hlines⟩ := h
  have hspeaks : ∀ u ∈ t :: content, u.Speaks ∧ u.indent = d :=
    List.forall_mem_cons.mpr ⟨ht, hcontent⟩
  have hindent : ∀ u ∈ marker.toList ++ (t :: content) ++ [stop], u.indent = d := by
    intro u hu
    simp only [List.mem_append, Option.mem_toList, List.mem_singleton] at hu
    rcases hu with (hu | hu) | rfl
    · exact hdepth u hu
    · exact (hspeaks u hu).2
    · exact hstop.2
  let line : TokenLine :=
    { depth := d, marker, content := t :: content, stop, marker_indent := hmarker
      content_ne_nil := List.cons_ne_nil t content, content_speaks := fun u hu => (hspeaks u hu).1
      stop_lineEnd := hstop.1, indent_eq := hindent }
  refine ⟨line :: lines, ?_, hdeeper, hlines⟩
  rw [List.flatMap_cons]
  unfold TokenLine.tokens
  simp [line]

namespace Lexer

/-- What the tokens that a lexer still gives out look like. -/
def Promise (l : Lexer) (ts : List Token) : Prop :=
  match l.mode with
  | .lineStart | .comment => Lined l.depth ts
  | .between => Continued l.depth ts
  | .keyword | .text | .escape => Opened l.depth ts

/-- What a lexer remembers agrees with its mode: between tokens the line has some, at the start of
a line it has none, and in a word there is a word. -/
structure Settled (l : Lexer) : Prop where
  depth : l.previousDepth = l.depth
  lineStart : l.mode = .lineStart ∨ l.mode = .comment → l.lineHasTokens = false
  between : l.mode = .between → l.lineHasTokens = true
  keyword : l.mode = .keyword → IsWord l.buffer

/-- A step keeps a promise: the tokens that it completes fulfil it together with any that the
lexer promises afterwards. -/
structure Step.Keeps (promise : List Token → Prop) (s : Step) : Prop where
  tokens : ∀ ts, s.lexer.Promise ts → promise (s.tokens ++ ts)
  settled : s.lexer.Settled

variable {l : Lexer} {c : Char} {p : Position}

/-- A step after tokens keeps a promise that they turn into the one of the step. -/
theorem Step.Keeps.after {promise before : List Token → Prop} {s : Step} (hs : s.Keeps promise)
    (hb : ∀ us, promise us → before (ts ++ us)) : (s.after ts).Keeps before where
  tokens := by
    intro us hus
    unfold Step.after
    rw [List.append_assoc]
    exact hb _ (hs.tokens us hus)
  settled := hs.settled

/-! ## One character -/

/-- The lexer at the start of a line is settled. -/
theorem Settled.endLine (h : l.previousDepth = l.depth) : l.endLine.Settled where
  depth := h
  lineStart := fun _ => rfl
  between := nofun
  keyword := nofun

/-- Between tokens, a character that is no blank and ends no line begins a token or is one. -/
theorem keeps_stepBetween_of_ne (hm : l.mode = .between) (hd : l.previousDepth = l.depth)
    (he : (l.stepBetween c p).error = none) (hblank : ¬ (c = ' ' ∨ c = '\t')) (hbreak : c ≠ '\n') :
    (l.stepBetween c p).Keeps (Opened l.depth) := by
  unfold stepBetween at he ⊢
  rw [if_neg hblank, if_neg hbreak] at he ⊢
  split_ifs at he ⊢ with hcomma hquote hletter
  · refine ⟨?_, hd, by simp [hm], fun _ => rfl, by simp [hm]⟩
    intro ts hts
    unfold Promise at hts
    dsimp only at hts
    rw [hm] at hts
    have hspeaks : (l.token .separator "," p).Speaks := ⟨.inr (.inr rfl), nofun⟩
    exact ⟨_, ts, rfl, ⟨hspeaks, rfl⟩, hts⟩
  · exact ⟨fun ts hts => hts, hd, by simp, nofun, nofun⟩
  · exact ⟨fun ts hts => hts, hd, by simp, nofun, fun _ => isWord_singleton hletter⟩

/-- Between the tokens of a line that has some, the line goes on or ends. -/
theorem keeps_stepBetween (hm : l.mode = .between) (hs : l.Settled)
    (he : (l.stepBetween c p).error = none) : (l.stepBetween c p).Keeps (Continued l.depth) := by
  by_cases hblank : c = ' ' ∨ c = '\t'
  · unfold stepBetween
    rw [if_pos hblank]
    refine ⟨?_, hs⟩
    intro ts hts
    unfold Promise at hts
    dsimp only at hts
    rw [hm] at hts
    exact hts
  by_cases hbreak : c = '\n'
  · unfold stepBetween
    rw [if_neg hblank, if_pos hbreak]
    refine ⟨?_, Settled.endLine hs.depth⟩
    intro ts hts
    exact Lined.continued hts rfl rfl
  · have hkeeps := keeps_stepBetween_of_ne hm hs.depth he hblank hbreak
    exact ⟨fun ts hts => (hkeeps.tokens ts hts).continued, hkeeps.settled⟩

theorem keeps_stepLineStart (hm : l.mode = .lineStart) (hs : l.Settled)
    (he : (l.stepLineStart c p).error = none) :
    (l.stepLineStart c p).Keeps (Lined l.depth) := by
  have hcounted : ∀ tabs spaces,
      Step.Keeps (Lined l.depth) { lexer := { l with tabs := tabs, spaces := spaces } } := by
    intro tabs spaces
    refine ⟨?_, hs.depth, hs.lineStart, hs.between, hs.keyword⟩
    intro ts hts
    unfold Promise at hts
    dsimp only at hts
    rw [hm] at hts
    exact hts
  have hnone : l.lineHasTokens = false := hs.lineStart (.inl hm)
  unfold stepLineStart at he ⊢
  dsimp only at he ⊢
  by_cases htab : c = '\t'
  · rw [if_pos htab]
    exact hcounted _ _
  by_cases hspace : c = ' '
  · rw [if_neg htab, if_pos hspace]
    exact hcounted _ _
  by_cases hbreak : c = '\n'
  · rw [if_neg htab, if_neg hspace, if_pos hbreak]
    exact ⟨fun ts hts => hts, Settled.endLine hs.depth⟩
  have hblank : ¬ (c = ' ' ∨ c = '\t') := by simp [htab, hspace]
  rw [if_neg htab, if_neg hspace, if_neg hbreak] at he ⊢
  split_ifs at he ⊢ with hcomment hdeeper
  · exact ⟨fun ts hts => hts, hs.depth, fun _ => hnone, nofun, nofun⟩
  · -- the line is deeper than the one before it, and its mark says so
    rw [hs.depth] at hdeeper
    refine (keeps_stepBetween_of_ne rfl rfl he hblank hbreak).after ?_
    intro us hus
    apply hus.lined (some _)
    · rintro _ ⟨⟩
      exact ⟨rfl, rfl⟩
    · rintro _ ⟨⟩
      rfl
    · exact iff_of_true rfl hdeeper
  · rw [hs.depth] at hdeeper
    have hkeeps := keeps_stepBetween_of_ne rfl rfl he hblank hbreak
    refine ⟨?_, hkeeps.settled⟩
    intro ts hts
    apply Opened.lined (hkeeps.tokens ts hts) none nofun nofun
    exact iff_of_false nofun hdeeper

/-- The word that was read says something. -/
theorem speaks_word (hm : l.mode = .keyword) (hs : l.Settled) : l.word.Speaks :=
  ⟨.inr (.inl rfl), fun _ => hs.keyword hm⟩

theorem settled_closeWord (hs : l.Settled) : l.closeWord.Settled where
  depth := hs.depth
  lineStart := by simp [closeWord]
  between := fun _ => rfl
  keyword := nofun

theorem keeps_stepKeyword (hm : l.mode = .keyword) (hs : l.Settled)
    (he : (l.stepKeyword c p).error = none) : (l.stepKeyword c p).Keeps (Opened l.depth) := by
  unfold stepKeyword at he ⊢
  split_ifs at he ⊢ with hletter hend
  · refine ⟨?_, hs.depth, hs.lineStart, hs.between, fun _ => (hs.keyword hm).push hletter⟩
    intro ts hts
    unfold Promise at hts
    dsimp only at hts
    rw [hm] at hts
    exact hts
  · refine (keeps_stepBetween (l := l.closeWord) rfl (settled_closeWord hs) he).after ?_
    intro us hus
    exact ⟨_, us, rfl, ⟨speaks_word hm hs, rfl⟩, hus⟩

/-- A text keeps the line open until it is closed, also over a line break. -/
theorem keeps_stepText (hm : l.mode = .text) (hs : l.Settled) :
    (l.stepText c).Keeps (Opened l.depth) := by
  have hstay : ∀ buffer line column, Step.Keeps (Opened l.depth)
      { lexer := { l with buffer := buffer, line := line, column := column } } := by
    intro buffer line column
    refine ⟨?_, hs.depth, hs.lineStart, hs.between, by simp [hm]⟩
    intro ts hts
    unfold Promise at hts
    dsimp only at hts
    rw [hm] at hts
    exact hts
  unfold stepText
  split_ifs
  · refine ⟨?_, hs.depth, by simp, fun _ => rfl, nofun⟩
    intro ts hts
    have hspeaks : (l.token .text l.buffer l.start).Speaks := ⟨.inl rfl, nofun⟩
    exact ⟨_, ts, rfl, ⟨hspeaks, rfl⟩, hts⟩
  · exact ⟨fun ts hts => hts, hs.depth, by simp, nofun, nofun⟩
  · exact hstay _ _ _
  · exact hstay _ _ _
  · exact hstay _ _ _

theorem keeps_stepEscape (hs : l.Settled) (he : (l.stepEscape c p).error = none) :
    (l.stepEscape c p).Keeps (Opened l.depth) := by
  unfold stepEscape at he ⊢
  cases hu : unescape? c with
  | none =>
    rw [hu] at he
    cases he
  | some d => exact ⟨fun ts hts => hts, hs.depth, by simp, nofun, nofun⟩

/-- One character completes tokens that the promise of the lexer allows. -/
theorem keeps_step (hs : l.Settled) (he : (l.step c).error = none) :
    (l.step c).Keeps l.Promise := by
  unfold step at he ⊢
  by_cases hc : c = '\r'
  · rw [if_pos hc]
    exact ⟨fun ts hts => hts, hs⟩
  rw [if_neg hc] at he ⊢
  have hs' : Settled { l with column := l.column + 1 } :=
    ⟨hs.depth, hs.lineStart, hs.between, hs.keyword⟩
  show Step.Keeps (Promise { l with column := l.column + 1 }) _
  generalize { l with column := l.column + 1 } = l' at he hs' ⊢
  unfold Promise
  dsimp only at he ⊢
  cases hm : l'.mode with
  | lineStart =>
    rw [hm] at he
    exact keeps_stepLineStart hm hs' he
  | comment =>
    dsimp only
    split_ifs
    · exact ⟨fun ts hts => hts, Settled.endLine hs'.depth⟩
    · refine ⟨?_, hs'⟩
      intro ts hts
      unfold Promise at hts
      dsimp only at hts
      rw [hm] at hts
      exact hts
  | between =>
    rw [hm] at he
    exact keeps_stepBetween hm hs' he
  | keyword =>
    rw [hm] at he
    exact keeps_stepKeyword hm hs' he
  | text => exact keeps_stepText hm hs'
  | escape =>
    rw [hm] at he
    exact keeps_stepEscape hs' he

/-! ## A whole source -/

/-- The end of a source closes a line that has tokens. -/
theorem continued_closeLine (h : l.lineHasTokens = true) :
    Continued l.depth l.closeLine.tokens := by
  unfold closeLine
  rw [if_pos h]
  exact Lined.continued ⟨[], rfl, trivial⟩ rfl rfl

/-- The end of a source adds nothing to a line that has no tokens. -/
theorem lined_closeLine (h : l.lineHasTokens = false) : Lined l.depth l.closeLine.tokens := by
  unfold closeLine
  rw [h, if_neg Bool.false_ne_true]
  exact ⟨[], rfl, trivial⟩

theorem promise_finish (hs : l.Settled) (he : l.finish.error = none) :
    l.Promise l.finish.tokens := by
  unfold finish Promise at *
  cases hm : l.mode with
  | lineStart => exact lined_closeLine (hs.lineStart (.inl hm))
  | comment => exact lined_closeLine (hs.lineStart (.inr hm))
  | between => exact continued_closeLine (hs.between hm)
  | keyword =>
    have hclosed : Continued l.depth l.closeWord.closeLine.tokens := continued_closeLine rfl
    exact ⟨_, _, rfl, ⟨speaks_word hm hs, rfl⟩, hclosed⟩
  | text =>
    rw [hm] at he
    cases he
  | escape =>
    rw [hm] at he
    cases he

/-- The tokens of the rest of a source are those that the lexer promises. -/
theorem promise_read {cs : List Char} (hs : l.Settled) (h : l.read cs = .ok ts) :
    l.Promise ts := by
  induction cs generalizing l ts with
  | nil =>
    unfold read at h
    dsimp only at h
    split at h
    · cases h
    next he =>
      cases h
      exact promise_finish hs he
  | cons c cs ih =>
    unfold read at h
    dsimp only at h
    split at h
    · cases h
    next he =>
      have hkeeps := keeps_step hs he
      rcases hr : (l.step c).lexer.read cs with e | us
      · rw [hr] at h
        cases h
      · rw [hr] at h
        cases h
        exact hkeeps.tokens us (ih hkeeps.settled hr)

end Lexer

/-- The tokens of a source that can be read are those of lines, each with a mark of its depth, if
the depth grew, then something that it says, and a line end. -/
theorem tokenize_lineGroups {source : String} (h : tokenize source = .ok ts) :
    ∃ lines : List TokenLine, ts = lines.flatMap TokenLine.tokens ∧ Deepens 0 lines :=
  Lexer.promise_read (l := {}) ⟨rfl, fun _ => rfl, nofun, nofun⟩ h

/-- The tokens of a title with two parts. -/
def splitTitle : List Token :=
  [⟨.keyword, "title", ⟨1, 1⟩, 0⟩, ⟨.lineEnd, "", ⟨1, 6⟩, 0⟩, ⟨.indent, "1", ⟨3, 1⟩, 1⟩,
    ⟨.text, "On", ⟨3, 2⟩, 1⟩, ⟨.separator, ",", ⟨3, 6⟩, 1⟩, ⟨.text, "order", ⟨3, 8⟩, 1⟩,
    ⟨.lineEnd, "", ⟨3, 15⟩, 1⟩]

/-- The line of the parts is marked, and the comment in front of it is gone. -/
theorem tokenize_lineGroups_splitTitle :
    tokenize "title\n# two parts\n\t\"On\", \"order\"" = .ok splitTitle
      ∧ ∃ lines : List TokenLine,
        splitTitle = lines.flatMap TokenLine.tokens ∧ Deepens 0 lines := by
  have htokens : tokenize "title\n# two parts\n\t\"On\", \"order\"" = .ok splitTitle := by
    decide +kernel
  exact ⟨htokens, tokenize_lineGroups htokens⟩

end Manuscript
