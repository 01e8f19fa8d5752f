import Mathlib.Tactic.SplitIfs
import Manuscript.Proofs.Reordering.Passage

/-!
# Scanning passages again

The characters of a line are read as the same tokens wherever the line stands, up to their positions
and to the mark of its depth, which depends on the line before it. So the characters of passages are
read as their tokens.

* `InStep`: two lexers that cannot be told apart by what they read, but by where they are.
* `SourceLine.passes`: a line behind any other one.
* `Passage.passes`: a passage, with the lines of its block.
-/

namespace Manuscript

open Canonical

namespace Lexer

/-! ## Two lexers beside each other -/

/-- The lexer is not inside a word or a text. -/
def AtRest (l : Lexer) : Prop := l.mode = .lineStart ∨ l.mode = .comment ∨ l.mode = .between

/-- Two lexers that have read the same of a line that they may not have met a token of. -/
structure Beside (l m : Lexer) : Prop where
  mode : m.mode = l.mode
  column : m.column = l.column
  tabs : m.tabs = l.tabs
  spaces : m.spaces = l.spaces

/-- Two lexers that have read the same of lines of the same depth. -/
structure InStep (l m : Lexer) : Prop extends Beside l m where
  buffer : ¬ l.AtRest → m.buffer = l.buffer
  depth : m.depth = l.depth
  previousDepth : m.previousDepth = l.previousDepth

/-- Two steps that do the same, up to positions. -/
structure SameStep (s s' : Step) : Prop where
  lexer : InStep s.lexer s'.lexer
  tokens : s'.tokens.map Token.unplaced = s.tokens.map Token.unplaced
  error : s.error = none → s'.error = none

variable {l m n : Lexer} {c : Char} {p p' : Position} {cs : List Char} {ts us : List Token}

theorem SameStep.after {s s' : Step} (h : SameStep s s')
    (ht : us.map Token.unplaced = ts.map Token.unplaced) : SameStep (s.after ts) (s'.after us) where
  lexer := h.lexer
  tokens := by
    unfold Step.after
    rw [List.map_append, List.map_append, h.tokens, ht]
  error := h.error

theorem InStep.token (h : InStep l m) (kind : TokenKind) (value : String) (p p' : Position) :
    (m.token kind value p').unplaced = (l.token kind value p).unplaced := by
  unfold Lexer.token Token.unplaced
  rw [h.depth]

theorem InStep.endLine (h : InStep l m) : InStep l.endLine m.endLine :=
  ⟨⟨rfl, rfl, rfl, rfl⟩, absurd (.inl rfl), h.depth, h.previousDepth⟩

theorem InStep.sameStep_between (h : InStep l m) (hm : l.mode = .between) (c : Char)
    (p p' : Position) : SameStep (l.stepBetween c p) (m.stepBetween c p') := by
  have hrest : l.AtRest := .inr (.inr hm)
  unfold stepBetween
  split_ifs
  · exact ⟨h, rfl, id⟩
  · refine ⟨h.endLine, ?_, id⟩
    rw [List.map_singleton, List.map_singleton, h.token .lineEnd "" p p']
  · refine ⟨⟨⟨h.mode, h.column, h.tabs, h.spaces⟩, absurd hrest, h.depth, h.previousDepth⟩, ?_, id⟩
    rw [List.map_singleton, List.map_singleton, h.token .separator "," p p']
  · exact ⟨⟨⟨rfl, h.column, h.tabs, h.spaces⟩, fun _ => rfl, h.depth, h.previousDepth⟩, rfl, id⟩
  · exact ⟨⟨⟨rfl, h.column, h.tabs, h.spaces⟩, fun _ => rfl, h.depth, h.previousDepth⟩, rfl, id⟩
  · exact ⟨h, rfl, nofun⟩

theorem Beside.measuredDepth (h : Beside l m) : m.measuredDepth = l.measuredDepth := by
  unfold Lexer.measuredDepth
  rw [h.tabs, h.spaces]

/-- A line that opens at a depth: both lexers are on it. -/
theorem Beside.opened (h : Beside l m) (d : Nat) (b b' : Bool) :
    InStep { l with mode := .between, depth := d, previousDepth := d, lineHasTokens := b }
      { m with mode := .between, depth := d, previousDepth := d, lineHasTokens := b' } :=
  ⟨⟨rfl, h.column, h.tabs, h.spaces⟩, absurd (.inr (.inr rfl)), rfl, rfl⟩

theorem InStep.sameStep_lineStart (h : InStep l m) (hm : l.mode = .lineStart) (c : Char)
    (hp : p'.column = p.column) : SameStep (l.stepLineStart c p) (m.stepLineStart c p') := by
  have hrest : l.AtRest := .inl hm
  unfold stepLineStart
  dsimp only
  rw [h.toBeside.measuredDepth, h.previousDepth, hp]
  split_ifs
  · exact ⟨⟨⟨h.mode, h.column, congrArg (· + 1) h.tabs, h.spaces⟩, absurd hrest, h.depth, rfl⟩,
      rfl, id⟩
  · exact ⟨⟨⟨h.mode, h.column, h.tabs, congrArg (· + 1) h.spaces⟩, absurd hrest, h.depth, rfl⟩,
      rfl, id⟩
  · exact ⟨h.endLine, rfl, id⟩
  · exact ⟨⟨⟨rfl, h.column, h.tabs, h.spaces⟩, absurd (.inr (.inl rfl)), h.depth, rfl⟩, rfl, id⟩
  · exact ((h.toBeside.opened l.measuredDepth true true).sameStep_between rfl c p p').after rfl
  · exact (h.toBeside.opened l.measuredDepth _ _).sameStep_between rfl c p p'

theorem InStep.closeWord (h : InStep l m) : InStep l.closeWord m.closeWord :=
  ⟨⟨rfl, h.column, h.tabs, h.spaces⟩, fun _ => rfl, h.depth, h.previousDepth⟩

theorem InStep.sameStep_keyword (h : InStep l m) (hm : l.mode = .keyword) (c : Char)
    (p p' : Position) : SameStep (l.stepKeyword c p) (m.stepKeyword c p') := by
  have hbuffer := h.buffer (by simp [AtRest, hm])
  unfold stepKeyword
  split_ifs
  · exact ⟨⟨⟨h.mode, h.column, h.tabs, h.spaces⟩, fun _ => congrArg (String.push · c) hbuffer,
      h.depth, h.previousDepth⟩, rfl, id⟩
  · refine (h.closeWord.sameStep_between rfl c p p').after ?_
    have hword := h.token .keyword l.buffer l.start m.start
    unfold Lexer.word
    rw [hbuffer, List.map_singleton, List.map_singleton, hword]
  · exact ⟨h, rfl, nofun⟩

theorem InStep.sameStep_text (h : InStep l m) (hm : l.mode = .text) (c : Char) :
    SameStep (l.stepText c) (m.stepText c) := by
  have hbuffer := h.buffer (by simp [AtRest, hm])
  unfold stepText
  rw [hbuffer]
  split_ifs
  · refine ⟨⟨⟨rfl, h.column, h.tabs, h.spaces⟩, fun _ => rfl, h.depth, h.previousDepth⟩, ?_, id⟩
    have htext := h.token .text l.buffer l.start m.start
    rw [List.map_singleton, List.map_singleton, htext]
  · exact ⟨⟨⟨rfl, h.column, h.tabs, h.spaces⟩, fun _ => rfl, h.depth, h.previousDepth⟩, rfl, id⟩
  · exact ⟨⟨⟨h.mode, rfl, h.tabs, h.spaces⟩, fun _ => rfl, h.depth, h.previousDepth⟩, rfl, id⟩
  · exact ⟨⟨⟨h.mode, rfl, h.tabs, h.spaces⟩, fun _ => rfl, h.depth, h.previousDepth⟩, rfl, id⟩
  · exact ⟨⟨⟨h.mode, h.column, h.tabs, h.spaces⟩, fun _ => rfl, h.depth, h.previousDepth⟩, rfl, id⟩

theorem InStep.sameStep_escape (h : InStep l m) (hm : l.mode = .escape) (c : Char)
    (p p' : Position) : SameStep (l.stepEscape c p) (m.stepEscape c p') := by
  have hbuffer := h.buffer (by simp [AtRest, hm])
  unfold stepEscape
  cases unescape? c with
  | none => exact ⟨h, rfl, nofun⟩
  | some d =>
    exact ⟨⟨⟨rfl, h.column, h.tabs, h.spaces⟩, fun _ => congrArg (String.push · d) hbuffer,
      h.depth, h.previousDepth⟩, rfl, id⟩

/-- Lexers on lines of the same depth stay so, whatever they read. -/
theorem InStep.sameStep (h : InStep l m) (c : Char) : SameStep (l.step c) (m.step c) := by
  unfold step
  by_cases hc : c = '\r'
  · rw [if_pos hc, if_pos hc]
    exact ⟨h, rfl, id⟩
  rw [if_neg hc, if_neg hc]
  have hp : (⟨m.line, m.column + 1⟩ : Position).column
      = (⟨l.line, l.column + 1⟩ : Position).column := congrArg (· + 1) h.column
  have h' : InStep { l with column := l.column + 1 } { m with column := m.column + 1 } :=
    ⟨⟨h.mode, hp, h.tabs, h.spaces⟩, h.buffer, h.depth, h.previousDepth⟩
  have hl : Lexer.mode { l with column := l.column + 1 } = l.mode := rfl
  dsimp only
  generalize { l with column := l.column + 1 } = l' at h' hl ⊢
  generalize { m with column := m.column + 1 } = m' at h' ⊢
  generalize (⟨l.line, l.column + 1⟩ : Position) = p at hp ⊢
  generalize (⟨m.line, m.column + 1⟩ : Position) = p' at hp ⊢
  rw [h.mode]
  cases hm : l.mode with
  | lineStart => exact h'.sameStep_lineStart (hl.trans hm) c hp
  | comment =>
    dsimp only
    split_ifs
    · exact ⟨h'.endLine, rfl, id⟩
    · exact ⟨h', rfl, id⟩
  | between => exact h'.sameStep_between (hl.trans hm) c p p'
  | keyword => exact h'.sameStep_keyword (hl.trans hm) c p p'
  | text => exact h'.sameStep_text (hl.trans hm) c
  | escape => exact h'.sameStep_escape (hl.trans hm) c p p'

theorem InStep.passes (h : InStep l m) (hp : Passes l cs ts n) :
    ∃ us n', Passes m cs us n' ∧ us.map Token.unplaced = ts.map Token.unplaced ∧ InStep n n' := by
  induction hp generalizing m with
  | nil l => exact ⟨[], m, .nil m, rfl, h⟩
  | @cons l l' n c cs ts us hs _ ih =>
    have hsame := h.sameStep c
    rw [hs] at hsame
    obtain ⟨us', n', hp', hus, hn⟩ := ih hsame.lexer
    refine ⟨(m.step c).tokens ++ us', n', .cons ?_ hp', ?_, hn⟩
    · rw [← hsame.error rfl]
    · rw [List.map_append, List.map_append, hus, hsame.tokens]

/-! ## The start of a line -/

/-- The mark in front of a line behind one of another depth. -/
def marks (previous depth : Nat) : List Token := if previous < depth then [indentTo depth] else []

/-- The lexer has met no token of the line. -/
def Closed (l : Lexer) : Prop := l.mode = .lineStart ∨ l.mode = .comment

/-- The first character of a line opens it, with a mark if it is deeper than the one before. -/
theorem stepLineStart_opens (hblank : ¬ (c = ' ' ∨ c = '\t')) (hbreak : c ≠ '\n')
    (hcomment : ¬ (c = '#' ∧ p.column = 1)) :
    ∃ b mark, l.stepLineStart c p = (stepBetween { l with
        mode := .between, depth := l.measuredDepth, previousDepth := l.measuredDepth
        lineHasTokens := b } c p).after mark
      ∧ mark.map Token.unplaced = marks l.previousDepth l.measuredDepth := by
  rw [not_or] at hblank
  unfold stepLineStart marks
  rw [if_neg hblank.2, if_neg hblank.1, if_neg hbreak, if_neg hcomment]
  dsimp only
  split_ifs with hdeeper
  · exact ⟨true, _, rfl, rfl⟩
  · exact ⟨l.lineHasTokens, [], rfl, rfl⟩

/-- Two lexers at the start of a line, behind lines of two depths, stay there, or they open a line
of the same depth. -/
inductive Opening (before before' : Nat) : Step → Step → Prop
  | stay {l m : Lexer} (h : Beside l m) (hclosed : l.Closed) (hl : l.previousDepth = before)
      (hm : m.previousDepth = before') : Opening before before' ⟨l, [], none⟩ ⟨m, [], none⟩
  | opens {d : Nat} {l m : Lexer} {ts us vs ws : List Token} (h : InStep l m)
      (hvs : vs.map Token.unplaced = marks before d)
      (hws : ws.map Token.unplaced = marks before' d)
      (hus : us.map Token.unplaced = ts.map Token.unplaced)
      (hpromise : ∀ xs, l.Promise xs → Opened d (ts ++ xs)) (hsettled : l.Settled) :
      Opening before before' ⟨l, vs ++ ts, none⟩ ⟨m, ws ++ us, none⟩

/-- A character at the start of a line. -/
theorem Beside.opening_lineStart (h : Beside l m) (hmode : l.mode = .lineStart)
    (hp : p'.column = p.column) (he : (l.stepLineStart c p).error = none) :
    Opening l.previousDepth m.previousDepth (l.stepLineStart c p) (m.stepLineStart c p') := by
  have hclosed : l.Closed := .inl hmode
  by_cases hblank : c = ' ' ∨ c = '\t'
  · rcases hblank with rfl | rfl
    · exact .stay ⟨h.mode, h.column, h.tabs, congrArg (· + 1) h.spaces⟩ hclosed rfl rfl
    · exact .stay ⟨h.mode, h.column, congrArg (· + 1) h.tabs, h.spaces⟩ hclosed rfl rfl
  by_cases hbreak : c = '\n'
  · subst hbreak
    exact .stay (l := l.endLine) ⟨rfl, rfl, rfl, rfl⟩ (.inl rfl) rfl rfl
  by_cases hcomment : c = '#' ∧ p.column = 1
  · have hcomment' : c = '#' ∧ p'.column = 1 := ⟨hcomment.1, hp.trans hcomment.2⟩
    rw [not_or] at hblank
    unfold stepLineStart
    rw [if_neg hblank.2, if_neg hblank.1, if_neg hbreak, if_pos hcomment, if_neg hblank.2,
      if_neg hblank.1, if_neg hbreak, if_pos hcomment']
    exact .stay ⟨rfl, h.column, h.tabs, h.spaces⟩ (.inr rfl) rfl rfl
  · have hcomment' : ¬ (c = '#' ∧ p'.column = 1) := fun hboth => hcomment ⟨hboth.1, hp ▸ hboth.2⟩
    obtain ⟨b, vs, hl, hvs⟩ := stepLineStart_opens (l := l) hblank hbreak hcomment
    obtain ⟨b', ws, hm, hws⟩ := stepLineStart_opens (l := m) hblank hbreak hcomment'
    rw [h.measuredDepth] at hm hws
    rw [hl] at he ⊢
    rw [hm]
    have hsame := (h.opened l.measuredDepth b b').sameStep_between rfl c p p'
    have hkeeps := keeps_stepBetween_of_ne (l := { l with
      mode := .between, depth := l.measuredDepth, previousDepth := l.measuredDepth
      lineHasTokens := b }) rfl rfl he hblank hbreak
    generalize stepBetween { l with mode := _, depth := _, previousDepth := _, lineHasTokens := b }
      c p = s at he hsame hkeeps ⊢
    generalize stepBetween { m with mode := _, depth := _, previousDepth := _, lineHasTokens := b' }
      c p' = s' at hsame ⊢
    obtain ⟨n, ts, e⟩ := s
    obtain ⟨n', us, e'⟩ := s'
    obtain rfl : e = none := he
    obtain rfl : e' = none := hsame.error rfl
    exact .opens hsame.lexer hvs hws hsame.tokens hkeeps.tokens hkeeps.settled

theorem step_lineStart (hm : l.mode = .lineStart) (hc : c ≠ '\r') :
    l.step c = stepLineStart { l with column := l.column + 1 } c ⟨l.line, l.column + 1⟩ := by
  simp only [step, if_neg hc]
  split <;> simp_all

theorem step_comment (hm : l.mode = .comment) (hc : c ≠ '\r') :
    l.step c = ⟨if c = '\n' then { l with column := l.column + 1 }.endLine
      else { l with column := l.column + 1 }, [], none⟩ := by
  simp only [step, if_neg hc]
  split <;> simp_all

/-- One character for both lexers. -/
theorem Beside.opening (h : Beside l m) (hclosed : l.Closed) (he : (l.step c).error = none) :
    Opening l.previousDepth m.previousDepth (l.step c) (m.step c) := by
  by_cases hc : c = '\r'
  · subst hc
    exact .stay h hclosed rfl rfl
  have hp : (⟨m.line, m.column + 1⟩ : Position).column
      = (⟨l.line, l.column + 1⟩ : Position).column := congrArg (· + 1) h.column
  have h' : Beside { l with column := l.column + 1 } { m with column := m.column + 1 } :=
    ⟨h.mode, hp, h.tabs, h.spaces⟩
  rcases hclosed with hmode | hmode
  · rw [step_lineStart hmode hc] at he ⊢
    rw [step_lineStart (h.mode.trans hmode) hc]
    exact h'.opening_lineStart hmode hp he
  · rw [step_comment hmode hc, step_comment (h.mode.trans hmode) hc]
    by_cases hbreak : c = '\n'
    · rw [if_pos hbreak, if_pos hbreak]
      exact .stay ⟨rfl, rfl, rfl, rfl⟩ (.inl rfl) rfl rfl
    · rw [if_neg hbreak, if_neg hbreak]
      exact .stay h' (.inr hmode) rfl rfl

/-! ## Whole lines -/

/-- At the start of a line nothing is left to give out. -/
theorem promise_nil (hm : l.mode = .lineStart) : l.Promise [] := by
  unfold Promise
  rw [hm]
  exact ⟨[], rfl, trivial⟩

/-- A lexer beside one at the start of a line is there, too. -/
theorem InStep.fresh (h : InStep l m) (hl : l.Fresh) (hs : m.Settled) : m.Fresh where
  mode := h.mode.trans hl.mode
  column := h.column.trans hl.column
  tabs := h.tabs.trans hl.tabs
  spaces := h.spaces.trans hl.spaces
  lineHasTokens := hs.lineStart (.inl (h.mode.trans hl.mode))

/-- A line that is read is read again from another lexer at the start of a line. -/
theorem Beside.passes (hp : Passes l cs ts n) (h : Beside l m) (hclosed : l.Closed) (hn : n.Fresh)
    (hne : ts ≠ []) :
    ∃ d us vs n', Opened d vs
      ∧ ts.map Token.unplaced = marks l.previousDepth d ++ vs.map Token.unplaced
      ∧ Passes m cs us n' ∧ us.map Token.unplaced = marks m.previousDepth d ++ vs.map Token.unplaced
      ∧ InStep n n' := by
  induction hp generalizing m with
  | nil l => exact absurd rfl hne
  | @cons l l' n c cs ts ts' hstep hrest ih =>
    have hopening := h.opening hclosed (c := c) (by rw [hstep])
    rw [hstep] at hopening
    generalize hm : m.step c = s at hopening
    cases hopening with
    | stay h' hclosed' hl hm' =>
      obtain ⟨d, us, vs, n', hopened, hts, hpasses, hus, hn'⟩ := ih h' hclosed' hn hne
      rw [hl] at hts
      rw [hm'] at hus
      exact ⟨d, us, vs, n', hopened, hts, .skip hm hpasses, hus, hn'⟩
    | opens h' hvs hws hus hpromise hsettled =>
      obtain ⟨us', n', hpasses, hus', hn'⟩ := h'.passes hrest
      have hopened := hpromise _ (hrest.promise hsettled (promise_nil hn.mode))
      refine ⟨_, _, _, n', hopened, ?_, .cons hm hpasses, ?_, hn'⟩
      · rw [List.map_append, List.map_append, hvs, List.append_assoc, List.append_nil,
          List.map_append]
      · rw [List.map_append, List.map_append, hws, hus, hus', List.append_assoc, List.append_nil,
          List.map_append]

/-! ## The depth behind a line -/

/-- The tokens of a step stand at the depth of the lexer. Without a token, the depth is the one
before or there is going to be a token. -/
structure Step.Level (l : Lexer) (s : Step) : Prop where
  indent : ∀ t ∈ s.tokens, t.indent = s.lexer.depth
  depth : s.tokens = [] → s.lexer.AtRest → l.AtRest ∧ s.lexer.depth = l.depth

/-- A step that completes no token. -/
theorem Step.Level.silent {l' : Lexer} {e : Option LexicalError}
    (h : l'.AtRest → l.AtRest ∧ l'.depth = l.depth) : Step.Level l ⟨l', [], e⟩ :=
  ⟨List.forall_mem_nil _, fun _ => h⟩

/-- Between tokens the depth stays, and the tokens that are read stand at it. -/
theorem depth_stepBetween (l : Lexer) (c : Char) (p : Position) :
    (l.stepBetween c p).lexer.depth = l.depth
      ∧ ∀ t ∈ (l.stepBetween c p).tokens, t.indent = l.depth := by
  unfold stepBetween
  split_ifs
  · exact ⟨rfl, nofun⟩
  · exact ⟨rfl, by simp [Lexer.token]⟩
  · exact ⟨rfl, by simp [Lexer.token]⟩
  · exact ⟨rfl, nofun⟩
  · exact ⟨rfl, nofun⟩
  · exact ⟨rfl, nofun⟩

/-- Tokens in front of what is read between tokens. -/
theorem level_after_stepBetween {l' : Lexer} (ts : List Token) (hts : ∀ t ∈ ts, t.indent = l'.depth)
    (hdepth : ts ++ (l'.stepBetween c p).tokens = [] → (l'.stepBetween c p).lexer.AtRest →
      l.AtRest ∧ l'.depth = l.depth) : ((l'.stepBetween c p).after ts).Level l := by
  obtain ⟨hl', htokens⟩ := depth_stepBetween l' c p
  refine ⟨fun t ht => ?_, fun hnone hrest => ?_⟩
  · rcases List.mem_append.mp ht with ht | ht
    · exact (hts t ht).trans hl'.symm
    · exact (htokens t ht).trans hl'.symm
  · obtain ⟨hl, hsame⟩ := hdepth hnone hrest
    exact ⟨hl, hl'.trans hsame⟩

/-- A character that is no blank and ends no line is a token or begins one. -/
theorem not_atRest_stepBetween (hblank : ¬ (c = ' ' ∨ c = '\t')) (hbreak : c ≠ '\n')
    (he : (l.stepBetween c p).error = none) (ht : (l.stepBetween c p).tokens = []) :
    ¬ (l.stepBetween c p).lexer.AtRest := by
  unfold stepBetween AtRest at *
  rw [if_neg hblank, if_neg hbreak] at he ht ⊢
  split_ifs at he ht ⊢
  · simp
  · simp

theorem level_stepLineStart (hm : l.mode = .lineStart)
    (he : (l.stepLineStart c p).error = none) : (l.stepLineStart c p).Level l := by
  have hrest : l.AtRest := .inl hm
  by_cases hblank : c = ' ' ∨ c = '\t'
  · rcases hblank with rfl | rfl
    · exact .silent fun _ => ⟨hrest, rfl⟩
    · exact .silent fun _ => ⟨hrest, rfl⟩
  by_cases hbreak : c = '\n'
  · subst hbreak
    exact .silent fun _ => ⟨hrest, rfl⟩
  by_cases hcomment : c = '#' ∧ p.column = 1
  · rw [not_or] at hblank
    unfold stepLineStart
    rw [if_neg hblank.2, if_neg hblank.1, if_neg hbreak, if_pos hcomment]
    exact .silent fun _ => ⟨hrest, rfl⟩
  · obtain ⟨b, mark, hl, hmark⟩ := stepLineStart_opens (l := l) hblank hbreak hcomment
    rw [hl] at he ⊢
    apply level_after_stepBetween
    · intro t ht
      have hunplaced := List.mem_map_of_mem (f := Token.unplaced) ht
      rw [hmark] at hunplaced
      unfold marks at hunplaced
      split_ifs at hunplaced
      · exact congrArg Token.indent (List.mem_singleton.mp hunplaced)
      · cases hunplaced
    · intro hnone hatrest
      have hopens := not_atRest_stepBetween hblank hbreak he (List.append_eq_nil_iff.mp hnone).2
      exact absurd hatrest hopens

/-- One character. -/
theorem level_step (he : (l.step c).error = none) : (l.step c).Level l := by
  unfold step at he ⊢
  by_cases hc : c = '\r'
  · rw [if_pos hc]
    exact .silent fun h => ⟨h, rfl⟩
  rw [if_neg hc] at he ⊢
  have hcounted : ∀ s : Step, s.Level { l with column := l.column + 1 } → s.Level l :=
    fun _ h => ⟨h.indent, h.depth⟩
  refine hcounted _ ?_
  generalize { l with column := l.column + 1 } = l' at he ⊢
  dsimp only at he ⊢
  cases hm : l'.mode with
  | lineStart =>
    rw [hm] at he
    exact level_stepLineStart hm he
  | comment =>
    have hrest : l'.AtRest := .inr (.inl hm)
    dsimp only
    split_ifs
    · exact .silent fun _ => ⟨hrest, rfl⟩
    · exact .silent fun _ => ⟨hrest, rfl⟩
  | between =>
    have hrest : l'.AtRest := .inr (.inr hm)
    exact level_after_stepBetween [] (List.forall_mem_nil _) fun _ _ => ⟨hrest, rfl⟩
  | keyword =>
    rw [hm] at he
    dsimp only at he ⊢
    unfold stepKeyword at he ⊢
    split_ifs at he ⊢
    · exact .silent fun h => absurd h (by simp [AtRest, hm])
    · exact level_after_stepBetween [l'.word] (by simp [word, Lexer.token, closeWord]) (by simp)
  | text =>
    dsimp only
    unfold stepText
    split_ifs
    · exact ⟨by simp [Lexer.token], by simp⟩
    · exact .silent fun h => absurd h (by simp [AtRest])
    · exact .silent fun h => absurd h (by simp [AtRest, hm])
    · exact .silent fun h => absurd h (by simp [AtRest, hm])
    · exact .silent fun h => absurd h (by simp [AtRest, hm])
  | escape =>
    rw [hm] at he
    dsimp only at he ⊢
    unfold stepEscape at he ⊢
    cases hu : unescape? c with
    | none =>
      rw [hu] at he
      cases he
    | some d => exact .silent fun h => absurd h (by simp [AtRest])

/-- Outside of words and texts the lexer is at the depth of the last token that was read. -/
theorem Passes.level (hp : Passes l cs ts n) (hn : n.AtRest) :
    (∀ t ∈ ts.getLast?, t.indent = n.depth) ∧ (ts = [] → l.AtRest ∧ n.depth = l.depth) := by
  induction hp with
  | nil l => exact ⟨nofun, fun _ => ⟨hn, rfl⟩⟩
  | @cons l l' n c cs ts us hs _ ih =>
    obtain ⟨hlast, hnone⟩ := ih hn
    have hlevel := level_step (l := l) (c := c) (by rw [hs])
    rw [hs] at hlevel
    rcases us.eq_nil_or_concat with rfl | ⟨us, u, rfl⟩
    · obtain ⟨hrest, hdepth⟩ := hnone rfl
      rw [List.append_nil]
      constructor
      · exact fun t ht => (hlevel.indent t (List.mem_of_getLast? ht)).trans hdepth.symm
      · intro hts
        obtain ⟨hl, hsame⟩ := hlevel.depth hts hrest
        exact ⟨hl, hdepth.trans hsame⟩
    · refine ⟨fun t ht => hlast t ?_, by simp⟩
      simpa using ht

end Lexer

open Lexer

/-! ## Lines -/

namespace SourceLine

variable (line : SourceLine) {d : Nat} {vs : List Token}

/-- The tokens of the line are those of an open line behind the mark of its depth. -/
theorem eq_of_opened (hv : Opened d vs)
    (ht : line.tokens.tokens.map Token.unplaced = marks 0 d ++ vs.map Token.unplaced) :
    d = line.depth ∧ vs.map Token.unplaced = line.first :: (line.rest ++ [line.stop]) := by
  obtain ⟨v, ws, rfl, ⟨hspeaks, rfl⟩, -⟩ := hv
  have htokens : line.tokens.tokens.map Token.unplaced
      = line.tokens.marker.toList.map Token.unplaced
        ++ (line.first :: (line.rest ++ [line.stop])) := by
    unfold TokenLine.tokens
    rw [List.map_append, List.map_append, line.content_eq, List.append_assoc]
    rfl
  have hplain : v.unplaced.isIndent = false := (plain_of_speaks hspeaks).2
  rw [htokens] at ht
  unfold marks at ht
  cases hmarker : line.tokens.marker with
  | none =>
    rw [hmarker] at ht
    split_ifs at ht
    · have hfirst := line.plain_first.2
      rw [(List.cons.inj ht).1] at hfirst
      cases hfirst
    · refine ⟨?_, ht.symm⟩
      rw [← line.indent_first, (List.cons.inj ht).1]
      rfl
  | some mark =>
    obtain ⟨hkind, -⟩ := line.tokens.marker_indent mark hmarker
    have hindent := line.tokens.indent_eq mark (by simp [hmarker])
    rw [hmarker] at ht
    split_ifs at ht
    · obtain ⟨hfirst, hrest⟩ := List.cons.inj ht
      refine ⟨?_, hrest.symm⟩
      exact (congrArg Token.indent hfirst).symm.trans hindent
    · rw [← (List.cons.inj ht).1] at hplain
      unfold Token.isIndent Token.unplaced at hplain
      rw [hkind] at hplain
      cases hplain

/-- A line is read behind any other one: a mark if it is deeper, and always the same tokens. -/
theorem passes {m : Lexer} (hm : m.Fresh) (hs : m.Settled) :
    ∃ us n, Passes m line.chars us n ∧ n.Fresh ∧ n.Settled ∧ n.previousDepth = line.depth
      ∧ us.map Token.unplaced
        = marks m.previousDepth line.depth ++ (line.first :: (line.rest ++ [line.stop])) := by
  obtain ⟨l, hread, hl⟩ := line.read
  have hbeside : Beside {} m := ⟨hm.mode, hm.column, hm.tabs, hm.spaces⟩
  have hne : line.tokens.tokens ≠ [] := by simp [TokenLine.tokens]
  obtain ⟨d, us, vs, n, hopened, hts, hpasses, hus, hn⟩ :=
    hbeside.passes hread (.inl rfl) hl hne
  obtain ⟨rfl, hvs⟩ := line.eq_of_opened hopened hts
  have hsettled : n.Settled := hpasses.settled hs
  have hdepth : line.depth = l.depth := by
    rw [← (hread.level (.inl hl.mode)).1 line.tokens.stop (by simp [TokenLine.tokens])]
    exact (line.tokens.indent_eq _ (by simp)).symm
  refine ⟨us, n, hpasses, hn.fresh hl hsettled, hsettled, ?_, hvs ▸ hus⟩
  rw [hsettled.depth, hn.depth, hdepth]

end SourceLine

/-! ## Passages -/

namespace Passage

theorem marks_of_le {previous depth : Nat} (h : depth ≤ previous) : marks previous depth = [] :=
  if_neg (Nat.not_lt.mpr h)

mutual
/-- A passage is read behind any line: a mark if it is deeper, and always the same tokens. -/
theorem passes {d : Nat} (p : Passage) (hp : p.At d) {m : Lexer} (hm : m.Fresh) (hs : m.Settled) :
    ∃ us n, Passes m p.chars us n ∧ n.Fresh ∧ n.Settled ∧ d ≤ n.previousDepth
      ∧ us.map Token.unplaced = marks m.previousDepth d ++ p.tokens := by
  obtain ⟨line, members⟩ := p
  obtain ⟨rfl, hmembers⟩ := at_iff.mp hp
  obtain ⟨us, n, hpasses, hn, hsettled, hdepth, hus⟩ := line.passes hm hs
  obtain ⟨vs, n', hpasses', hn', hsettled', hdepth', hvs⟩ := passesOf members hmembers hn hsettled
  rw [hdepth] at hdepth' hvs
  have hdeeper : marks line.depth ((lines line members).line.depth + 1)
      = [indentTo (line.depth + 1)] := if_pos (Nat.lt_succ_self _)
  refine ⟨us ++ vs, n', ?_, hn', hsettled', ?_, ?_⟩
  · rw [chars]
    exact hpasses.append hpasses'
  · exact (Nat.le_min.mpr ⟨le_rfl, Nat.le_succ _⟩).trans hdepth'
  · rw [List.map_append, hus, hvs, tokens, hdeeper, List.append_assoc, List.cons_append,
      List.append_assoc]
    cases members <;> rfl

/-- Passages of one depth one after the other: only the first may have a mark. -/
theorem passesOf {d : Nat} (ps : List Passage) (hps : ∀ p ∈ ps, p.At d) {m : Lexer} (hm : m.Fresh)
    (hs : m.Settled) :
    ∃ us n, Passes m (charsOf ps) us n ∧ n.Fresh ∧ n.Settled
      ∧ min m.previousDepth d ≤ n.previousDepth
      ∧ us.map Token.unplaced
        = (if ps.isEmpty then [] else marks m.previousDepth d) ++ tokensOf ps := by
  cases ps with
  | nil =>
    rw [charsOf]
    exact ⟨[], m, .nil m, hm, hs, Nat.min_le_left _ _, rfl⟩
  | cons p ps =>
    obtain ⟨hp, hps⟩ := List.forall_mem_cons.mp hps
    obtain ⟨us, n, hpasses, hn, hsettled, hdepth, hus⟩ := passes p hp hm hs
    obtain ⟨vs, n', hpasses', hn', hsettled', hdepth', hvs⟩ := passesOf ps hps hn hsettled
    rw [Nat.min_eq_right hdepth] at hdepth'
    rw [marks_of_le hdepth, ite_self, List.nil_append] at hvs
    refine ⟨us ++ vs, n', ?_, hn', hsettled', (Nat.min_le_right _ _).trans hdepth', ?_⟩
    · rw [charsOf]
      exact hpasses.append hpasses'
    · rw [List.map_append, hus, hvs, tokensOf, List.append_assoc]
      rfl
end

/-- A source that consists of passages is read as their tokens. -/
theorem tokenize_charsOf {F : List Passage} (hF : ∀ p ∈ F, p.At 0) :
    ∃ ts, tokenize (String.ofList (charsOf F)) = .ok ts
      ∧ ts.map Token.unplaced = tokensOf F := by
  obtain ⟨ts, n, hpasses, hn, -, -, hts⟩ := passesOf F hF fresh_start settled_start
  have hread := hpasses.read []
  rw [List.append_nil, read_nil hn] at hread
  refine ⟨ts, ?_, ?_⟩
  · unfold tokenize
    rw [String.toList_ofList, hread]
    simp [Except.map]
  · rw [hts, marks_of_le (Nat.zero_le _), ite_self, List.nil_append]

end Passage

end Manuscript
