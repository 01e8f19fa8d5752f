import Manuscript.Proofs.Token.Passing

/-!
# Lines that leave no trace

A blank line or a comment gives no token, and it leaves alone what is remembered of the lines before
it. All that it does is to move what stands behind it down by one line. Carriage returns do not even
do that, and a line feed at the end of a source closes no line that the end would not close.

* `step_lowered` and `read_lowered`: a lexer further down reads in the same way.
* `above_step`: what is given out stands above the first fresh line.
* `step_lineFeed`: a line feed gives out what the end of the source gives out.
* `tokenize_invisible`: lines without tokens, carriage returns and a last line feed.
-/

namespace Manuscript

/-! ## One line further down -/

/-- The position, one line further down if it stands on the line `n` or below it. -/
def Position.lowered (n : Nat) (p : Position) : Position :=
  if n ≤ p.line then ⟨p.line + 1, p.column⟩ else p

theorem Position.lowered_of_le {n : Nat} {p : Position} (h : n ≤ p.line) :
    p.lowered n = ⟨p.line + 1, p.column⟩ := if_pos h

theorem Position.lowered_of_lt {n : Nat} {p : Position} (h : p.line < n) : p.lowered n = p :=
  if_neg (Nat.not_le_of_lt h)

theorem Position.column_lowered (n : Nat) (p : Position) : (p.lowered n).column = p.column := by
  unfold lowered
  split_ifs <;> rfl

/-- The token with its position lowered. -/
def Token.lowered (n : Nat) (t : Token) : Token := { t with position := t.position.lowered n }

/-- The error with its position lowered. -/
def LexicalError.lowered (n : Nat) : LexicalError → LexicalError
  | unexpectedCharacter c p => unexpectedCharacter c (p.lowered n)
  | invalidEscape c value p => invalidEscape c value (p.lowered n)
  | unterminatedText value p => unterminatedText value (p.lowered n)

/-- What a source is read as, with the positions of all tokens or of its error lowered. -/
def lowered (n : Nat) : Except LexicalError (List Token) → Except LexicalError (List Token)
  | .error e => .error (e.lowered n)
  | .ok ts => .ok (ts.map (Token.lowered n))

theorem lowered_after {n : Nat} {ts : List Token} (h : ∀ t ∈ ts, t.position.line < n)
    (outcome : Except LexicalError (List Token)) :
    lowered n (outcome.map (ts ++ ·)) = (lowered n outcome).map (ts ++ ·) := by
  have hts : ts.map (Token.lowered n) = ts := by
    rw [List.map_congr_left (g := id), List.map_id]
    intro t ht
    unfold Token.lowered
    rw [Position.lowered_of_lt (h t ht)]
    rfl
  cases outcome with
  | error e => rfl
  | ok us => simp only [Except.map, lowered, List.map_append, hts]

namespace Lexer

/-- The lexer, one line further down. The start of a token that was given out long ago may stand
above the line. -/
def lowered (n : Nat) (l : Lexer) : Lexer :=
  { l with line := l.line + 1, start := l.start.lowered n }

/-- The step, with all that it gives out and leaves behind lowered. -/
def Step.lowered (n : Nat) (s : Step) : Step where
  lexer := s.lexer.lowered n
  tokens := s.tokens.map (Token.lowered n)
  error := s.error.map (LexicalError.lowered n)

variable {n : Nat} {l : Lexer} {c : Char} {p : Position}

theorem Step.lowered_after (ts : List Token) (s : Step) :
    (s.after ts).lowered n = (s.lowered n).after (ts.map (Token.lowered n)) := by
  unfold Step.lowered Step.after
  rw [List.map_append]

theorem stepBetween_lowered (n : Nat) (l : Lexer) (c : Char) (p : Position) :
    (l.lowered n).stepBetween c (p.lowered n) = (l.stepBetween c p).lowered n := by
  unfold stepBetween
  split_ifs <;> rfl

theorem stepLineStart_lowered (h : n ≤ l.line) (c : Char) (p : Position) :
    (l.lowered n).stepLineStart c (p.lowered n) = (l.stepLineStart c p).lowered n := by
  have hmarker : Position.lowered n ⟨l.line, 1⟩ = ⟨l.line + 1, 1⟩ := Position.lowered_of_le h
  have hmeasured : (l.lowered n).measuredDepth = l.measuredDepth := rfl
  have hprevious : (l.lowered n).previousDepth = l.previousDepth := rfl
  unfold stepLineStart
  rw [Position.column_lowered, hmeasured, hprevious]
  dsimp only
  split_ifs
  · rfl
  · rfl
  · rfl
  · rfl
  · rw [Step.lowered_after, ← stepBetween_lowered]
    show _ = Step.after [Token.mk .indent _ (Position.lowered n ⟨l.line, 1⟩) _] _
    rw [hmarker]
    rfl
  · rw [← stepBetween_lowered]
    rfl

theorem stepKeyword_lowered (n : Nat) (l : Lexer) (c : Char) (p : Position) :
    (l.lowered n).stepKeyword c (p.lowered n) = (l.stepKeyword c p).lowered n := by
  unfold stepKeyword
  split_ifs
  · rfl
  · rw [Step.lowered_after, ← stepBetween_lowered]
    rfl
  · rfl

theorem stepText_lowered (n : Nat) (l : Lexer) (c : Char) :
    (l.lowered n).stepText c = (l.stepText c).lowered n := by
  have hbuffer : (l.lowered n).buffer = l.buffer := rfl
  unfold stepText
  rw [hbuffer]
  split_ifs <;> rfl

theorem stepEscape_lowered (n : Nat) (l : Lexer) (c : Char) (p : Position) :
    (l.lowered n).stepEscape c (p.lowered n) = (l.stepEscape c p).lowered n := by
  unfold stepEscape
  cases unescape? c <;> rfl

/-- One line further down, a character does what it does here, one line further down. -/
theorem step_lowered (h : n ≤ l.line) (c : Char) :
    (l.lowered n).step c = (l.step c).lowered n := by
  unfold step
  by_cases hc : c = '\r'
  · rw [if_pos hc, if_pos hc]
    rfl
  rw [if_neg hc, if_neg hc]
  -- the column is counted first, which lowering leaves alone
  have hmode : (l.lowered n).mode = l.mode := rfl
  have hposition : (⟨(l.lowered n).line, (l.lowered n).column + 1⟩ : Position)
      = Position.lowered n ⟨l.line, l.column + 1⟩ :=
    (Position.lowered_of_le (p := ⟨l.line, l.column + 1⟩) h).symm
  have hcounted : { l.lowered n with column := (l.lowered n).column + 1 }
      = lowered n { l with column := l.column + 1 } := rfl
  dsimp only
  rw [hcounted, hposition, hmode]
  have h' : n ≤ ({ l with column := l.column + 1 } : Lexer).line := h
  generalize { l with column := l.column + 1 } = l' at h' ⊢
  cases l.mode with
  | lineStart => exact stepLineStart_lowered h' ..
  | comment =>
    dsimp only
    split_ifs <;> rfl
  | between => exact stepBetween_lowered ..
  | keyword => exact stepKeyword_lowered ..
  | text => exact stepText_lowered ..
  | escape => exact stepEscape_lowered ..

/-- So does the end of the source. -/
theorem finish_lowered (h : n ≤ l.line) : (l.lowered n).finish = l.finish.lowered n := by
  have hclose (l : Lexer) (h : n ≤ l.line) : (l.lowered n).closeLine = l.closeLine.lowered n := by
    have hend : Position.lowered n ⟨l.line, l.column + 1⟩ = ⟨l.line + 1, l.column + 1⟩ :=
      Position.lowered_of_le h
    have htokens : (l.lowered n).lineHasTokens = l.lineHasTokens := rfl
    unfold closeLine
    rw [htokens]
    split_ifs
    · show _ = Step.mk _ [Token.mk .lineEnd "" (Position.lowered n ⟨l.line, l.column + 1⟩) _] none
      rw [hend]
      rfl
    · rfl
  have hmode : (l.lowered n).mode = l.mode := rfl
  unfold finish
  rw [hmode]
  cases l.mode with
  | lineStart => exact hclose l h
  | comment => exact hclose l h
  | between => exact hclose l h
  | keyword =>
    show ((l.closeWord.lowered n).closeLine).after _ = (l.closeWord.closeLine.after _).lowered n
    rw [Step.lowered_after, hclose l.closeWord h]
    rfl
  | text => rfl
  | escape => rfl

/-- A character moves the lexer to the next line exactly if it is a line feed. -/
theorem step_line (he : (l.step c).error = none) :
    (l.step c).lexer.line = l.line + if c = '\n' then 1 else 0 := by
  by_cases hc : c = '\r'
  · subst hc
    rfl
  · have hline := congrArg Position.line (here_step hc he)
    unfold Position.past at hline
    split_ifs at hline ⊢ <;> exact hline

/-- The rest of a source is read in the same way one line further down. -/
theorem read_lowered (h : n ≤ l.line) (cs : List Char) :
    (l.lowered n).read cs = Manuscript.lowered n (l.read cs) := by
  induction cs generalizing l with
  | nil =>
    unfold read
    rw [finish_lowered h]
    cases he : l.finish.error with
    | some e => simp [Step.lowered, he, Manuscript.lowered]
    | none => simp [Step.lowered, he, Manuscript.lowered]
  | cons c cs ih =>
    unfold read
    rw [step_lowered h]
    cases he : (l.step c).error with
    | some e => simp [Step.lowered, he, Manuscript.lowered]
    | none =>
      have hline : n ≤ (l.step c).lexer.line := by
        rw [step_line he]
        omega
      simp only [Step.lowered, he, Option.map_none, ih hline]
      cases (l.step c).lexer.read cs with
      | error e => rfl
      | ok ts => simp [Except.map, Manuscript.lowered]

/-! ## What was given out -/

/-- The first line that no token was given out for. -/
def freshLine (l : Lexer) : Nat :=
  match l.mode with
  | .lineStart | .comment => l.line
  | .between | .keyword | .text | .escape => l.line + 1

/-- A step from where `n` is the first fresh line: no line becomes fresh again, and what is given
out, or was begun last, stands above the first one. -/
structure Step.Above (n : Nat) (s : Step) : Prop where
  line : n ≤ s.lexer.freshLine
  tokens : ∀ t ∈ s.tokens, t.position.line < s.lexer.freshLine
  start : s.lexer.start.line < s.lexer.freshLine

theorem Step.Above.after {s : Step} {ts : List Token} (h : s.Above n)
    (hts : ∀ t ∈ ts, t.position.line < n) : (s.after ts).Above n where
  line := h.line
  tokens := List.forall_mem_append.mpr ⟨fun t ht => Nat.lt_of_lt_of_le (hts t ht) h.line, h.tokens⟩
  start := h.start

theorem Step.Above.weaken {m : Nat} {s : Step} (h : s.Above m) (hn : n ≤ m) : s.Above n :=
  ⟨Nat.le_trans hn h.line, h.tokens, h.start⟩

/-- A step that gives out nothing. -/
theorem Step.Above.silent {m : Lexer} (h : n ≤ m.freshLine) (hs : m.start.line < n) :
    Step.Above n { lexer := m } :=
  ⟨h, fun _ ht => absurd ht List.not_mem_nil, Nat.lt_of_lt_of_le hs h⟩

/-- What stands on the line before the first fresh one may be given out. -/
theorem Step.Above.single {m : Lexer} {t : Token} (h : n ≤ m.freshLine)
    (ht : t.position.line < n) (hs : m.start.line < n) :
    Step.Above n { lexer := m, tokens := [t] } := by
  have hts : ∀ u ∈ [t], u.position.line < n := List.forall_mem_singleton.mpr ht
  exact (Step.Above.silent h hs).after hts

theorem above_stepBetween (hm : l.mode = .between) (hs : l.start.line < l.line + 1)
    (hp : p.line = l.line) : (l.stepBetween c p).Above (l.line + 1) := by
  have hfresh (tokens : Bool) : l.line + 1 ≤ freshLine { l with lineHasTokens := tokens } := by
    unfold freshLine
    simp [hm]
  have hhere : p.line < l.line + 1 := by omega
  unfold stepBetween
  split_ifs
  · exact .silent (hfresh l.lineHasTokens) hs
  · exact .single (Nat.le_refl _) hhere hs
  · exact .single (hfresh true) hhere hs
  · exact .silent (Nat.le_refl _) hhere
  · exact .silent (Nat.le_refl _) hhere
  · have hstay := Step.Above.silent (hfresh l.lineHasTokens) hs
    exact ⟨hstay.line, hstay.tokens, hstay.start⟩

/-- The first character of a line that means something opens the line. -/
theorem above_stepLineStart (hm : l.mode = .lineStart) (hs : l.start.line < l.line)
    (hp : p.line = l.line) : (l.stepLineStart c p).Above l.line := by
  have hcounted (tabs spaces : Nat) : l.line ≤ freshLine { l with tabs, spaces } := by
    unfold freshLine
    simp [hm]
  have hopened (tokens : Bool) := above_stepBetween (c := c) (l := { l with
    mode := .between, depth := l.measuredDepth, previousDepth := l.measuredDepth
    lineHasTokens := tokens }) rfl (Nat.lt_succ_of_lt hs) hp
  unfold stepLineStart
  dsimp only
  split_ifs
  · exact .silent (hcounted _ _) hs
  · exact .silent (hcounted _ _) hs
  · exact .silent (Nat.le_succ _) hs
  · exact .silent (Nat.le_refl _) hs
  · refine ((hopened true).after ?_).weaken (Nat.le_succ _)
    intro t ht
    rw [List.mem_singleton.mp ht]
    exact Nat.lt_succ_self _
  · exact (hopened l.lineHasTokens).weaken (Nat.le_succ _)

theorem above_stepKeyword (hm : l.mode = .keyword) (hs : l.start.line < l.line + 1)
    (hp : p.line = l.line) : (l.stepKeyword c p).Above (l.line + 1) := by
  have hstay (buffer : String) : l.line + 1 ≤ freshLine { l with buffer } := by
    unfold freshLine
    simp [hm]
  unfold stepKeyword
  split_ifs
  · exact .silent (hstay _) hs
  · refine (above_stepBetween (l := l.closeWord) rfl hs hp).after ?_
    intro t ht
    rw [List.mem_singleton.mp ht]
    exact hs
  · have hquiet := Step.Above.silent (hstay l.buffer) hs
    exact ⟨hquiet.line, hquiet.tokens, hquiet.start⟩

theorem above_stepText (hm : l.mode = .text) (hs : l.start.line < l.line + 1) :
    (l.stepText c).Above (l.line + 1) := by
  have hstay (buffer : String) (line column : Nat) (hline : l.line ≤ line) :
      l.line + 1 ≤ freshLine { l with buffer, line, column } := by
    unfold freshLine
    simp [hm, hline]
  unfold stepText
  split_ifs
  · exact .single (Nat.le_refl _) hs hs
  · exact .silent (Nat.le_refl _) hs
  · exact .silent (hstay _ _ _ (Nat.le_succ _)) hs
  · exact .silent (hstay _ _ _ (Nat.le_succ _)) hs
  · exact .silent (hstay _ _ _ (Nat.le_refl _)) hs

theorem above_stepEscape (hm : l.mode = .escape) (hs : l.start.line < l.line + 1) :
    (l.stepEscape c p).Above (l.line + 1) := by
  unfold stepEscape
  cases unescape? c with
  | some d => exact .silent (Nat.le_refl _) hs
  | none =>
    have hquiet := Step.Above.silent (m := l) (n := l.line + 1) (by simp [freshLine, hm]) hs
    exact ⟨hquiet.line, hquiet.tokens, hquiet.start⟩

/-- One character opens the line that it stands on, or none. -/
theorem above_step (hs : l.start.line < l.freshLine) (c : Char) :
    (l.step c).Above l.freshLine := by
  unfold step
  by_cases hc : c = '\r'
  · rw [if_pos hc]
    exact .silent (Nat.le_refl _) hs
  rw [if_neg hc]
  have hs' : ({ l with column := l.column + 1 } : Lexer).start.line
      < freshLine { l with column := l.column + 1 } := hs
  show Step.Above (freshLine { l with column := l.column + 1 }) _
  generalize { l with column := l.column + 1 } = l' at hs' ⊢
  unfold freshLine at hs' ⊢
  dsimp only
  cases hm : l'.mode with
  | lineStart =>
    rw [hm] at hs'
    exact above_stepLineStart hm hs' rfl
  | comment =>
    rw [hm] at hs'
    dsimp only
    split_ifs
    · exact .silent (Nat.le_succ _) hs'
    · refine .silent ?_ hs'
      unfold freshLine
      simp [hm]
  | between =>
    rw [hm] at hs'
    exact above_stepBetween hm hs' rfl
  | keyword =>
    rw [hm] at hs'
    exact above_stepKeyword hm hs' rfl
  | text =>
    rw [hm] at hs'
    exact above_stepText hm hs'
  | escape =>
    rw [hm] at hs'
    exact above_stepEscape hm hs'

variable {m : Lexer} {cs : List Char} {ts : List Token}

/-- What was given out for a part stands above the first fresh line behind it. -/
theorem Passes.above (h : Passes l cs ts m) (hs : l.start.line < l.freshLine) :
    l.freshLine ≤ m.freshLine ∧ (∀ t ∈ ts, t.position.line < m.freshLine)
      ∧ m.start.line < m.freshLine := by
  induction h with
  | nil l => exact ⟨Nat.le_refl _, nofun, hs⟩
  | @cons l l' m c cs ts us hstep _ ih =>
    have habove := above_step hs c
    rw [hstep] at habove
    obtain ⟨hline, htokens, hstart⟩ := ih habove.start
    refine ⟨Nat.le_trans habove.line hline, List.forall_mem_append.mpr ⟨?_, htokens⟩, hstart⟩
    intro t ht
    exact Nat.lt_of_lt_of_le (habove.tokens t ht) hline

/-- The line feeds of a part are counted. -/
theorem Passes.line (h : Passes l cs ts m) : m.line = l.line + cs.count '\n' := by
  induction h with
  | nil l => rfl
  | @cons l l' m c cs ts us hstep _ ih =>
    have hline := step_line (l := l) (c := c) (by rw [hstep])
    rw [hstep] at hline
    rw [ih, hline, List.count_cons]
    simp only [beq_iff_eq]
    omega

theorem Passes.placed (h : Passes l cs ts m) (hl : l.Placed) : m.Placed := by
  induction h with
  | nil l => exact hl
  | @cons l l' m c cs ts us hstep _ ih =>
    have hrises : (l.step c).Rises l.floor := ascending_step hl (by rw [hstep])
    rw [hstep] at hrises
    exact ih hrises.placed

/-- A lexer that has read no character of a line stands at its start. -/
theorem Passes.fresh (h : Passes {} cs ts m) (hm : m.mode = .lineStart) (hcolumn : m.column = 0) :
    m.Fresh := by
  have hcounted := (h.placed ⟨fun _ => Nat.le_refl 0, by simp⟩).indentation hm
  have htokens := (h.settled settled_start).lineStart (.inl hm)
  exact ⟨hm, hcolumn, by omega, by omega, htokens⟩

/-- A line feed at the end of a source gives out what the end gives out. -/
theorem step_lineFeed (hl : l.Settled) (he : l.finish.error = none) :
    ∃ m : Lexer, l.step '\n' = ⟨m, l.finish.tokens, none⟩ ∧ m.Fresh := by
  unfold step finish at *
  rw [if_neg (by decide)]
  dsimp only
  cases hm : l.mode with
  | lineStart =>
    refine ⟨_, ?_, fresh_endLine { l with mode := .lineStart, column := l.column + 1 }⟩
    simp [stepLineStart, closeLine, hl.lineStart (.inl hm)]
  | comment =>
    refine ⟨_, ?_, fresh_endLine { l with mode := .comment, column := l.column + 1 }⟩
    simp [closeLine, hl.lineStart (.inr hm)]
  | between =>
    refine ⟨_, ?_, fresh_endLine { l with mode := .between, column := l.column + 1 }⟩
    simp [stepBetween, closeLine, hl.between hm, token]
  | keyword =>
    refine ⟨_, ?_, fresh_endLine { l.closeWord with column := l.column + 1 }⟩
    simp [stepKeyword, stepBetween, closeLine, closeWord, token, Step.after, isWordLetter, word]
  | text =>
    rw [hm] at he
    cases he
  | escape =>
    rw [hm] at he
    cases he

end Lexer

open Lexer

/-! ## Whole sources -/

/-- A line without tokens at the start of a line moves what stands behind it down. -/
theorem tokenize_insert {a v b : String} {s : Scanner}
    (ha : Scanner.feedAll {} a.toList = (s, none)) (hm : s.lexer.mode = .lineStart)
    (hcolumn : s.lexer.column = 0) (hv : InvisibleLine v.toList) :
    tokenize (a ++ v ++ b) = lowered (a.toList.count '\n' + 1) (tokenize (a ++ b)) := by
  obtain ⟨ts, -, hpasses⟩ := Passes.of_feedAll ha
  have hfresh := hpasses.fresh hm hcolumn
  have hline : a.toList.count '\n' + 1 = s.lexer.line := by
    rw [hpasses.line, Nat.add_comm]
  -- the line is fresh, so that all that was given out before stands above it
  obtain ⟨-, htokens, hstart⟩ := hpasses.above Nat.zero_lt_one
  have hopen : s.lexer.freshLine = s.lexer.line := by
    unfold freshLine
    rw [hm]
  rw [hopen] at htokens hstart
  -- the invisible line does to the lexer what lowering it does
  have hlowered : { s.lexer with line := s.lexer.line + 1 } = s.lexer.lowered s.lexer.line := by
    unfold Lexer.lowered
    rw [Position.lowered_of_lt hstart]
  have hquiet := passes_invisible hv hfresh
  rw [hlowered] at hquiet
  unfold tokenize
  rw [String.toList_append, String.toList_append, String.toList_append, List.append_assoc,
    hpasses.read, hpasses.read, hquiet.read, hline, lowered_after htokens,
    read_lowered (Nat.le_refl _)]
  cases lowered s.lexer.line (s.lexer.read b.toList) <;> rfl

/-- Carriage returns do not matter. -/
theorem tokenize_congr {s t : String} (h : visible s.toList = visible t.toList) :
    tokenize s = tokenize t := by
  unfold tokenize
  rw [Lexer.read_eq, Lexer.read_eq, ← stream_visible, h, stream_visible]

/-- A line feed at the end of a source closes the line that the end would close. -/
theorem tokenize_lineFeed {s : String} {ts : List Token} (h : tokenize s = .ok ts) :
    tokenize (s ++ "\n") = .ok ts := by
  obtain ⟨us, l, hpasses, he, rfl⟩ := passes_of_read h
  obtain ⟨m, hstep, hm⟩ := step_lineFeed (hpasses.settled settled_start) he
  have hbreak : Passes l ['\n'] (l.finish.tokens ++ []) m := .cons hstep (.nil m)
  have hlast : "\n".toList = ['\n'] ++ [] := rfl
  unfold tokenize
  rw [String.toList_append, hpasses.read, hlast, hbreak.read, read_nil hm]
  simp [Except.map]

/-- Lines without tokens, carriage returns and a last line feed are invisible. -/
theorem tokenize_invisible :
    (∀ (a v b : String) (s : Scanner), Scanner.feedAll {} a.toList = (s, none) →
      s.lexer.mode = .lineStart → s.lexer.column = 0 → InvisibleLine v.toList →
        tokenize (a ++ v ++ b) = lowered (a.toList.count '\n' + 1) (tokenize (a ++ b)))
      ∧ (∀ s t : String, visible s.toList = visible t.toList → tokenize s = tokenize t)
      ∧ ∀ (s : String) (ts : List Token), tokenize s = .ok ts → tokenize (s ++ "\n") = .ok ts :=
  ⟨fun _ _ _ _ ha hm hcolumn hv => tokenize_insert ha hm hcolumn hv,
    fun _ _ h => tokenize_congr h, fun _ _ h => tokenize_lineFeed h⟩

/-- A comment moves an error behind it down, also behind a text over two lines. -/
theorem tokenize_invisible_comment :
    InvisibleLine "# by no one\n".toList
      ∧ tokenize ("title \"On\nravens\"\n" ++ "author \"Jane\\q\"")
        = .error (.invalidEscape 'q' "Jane" ⟨3, 14⟩)
      ∧ tokenize ("title \"On\nravens\"\n" ++ "# by no one\n" ++ "author \"Jane\\q\"")
        = .error (.invalidEscape 'q' "Jane" ⟨4, 14⟩)
      ∧ tokenize "title\r \"On\"\r\n" = tokenize "title \"On\"\n"
      ∧ tokenize ("title" ++ "\n")
        = .ok [⟨.keyword, "title", ⟨1, 1⟩, 0⟩, ⟨.lineEnd, "", ⟨1, 6⟩, 0⟩] := by
  have hcomment : InvisibleLine "# by no one\n".toList :=
    .comment (by decide : '\n' ∉ " by no one".toList)
  have herror : tokenize ("title \"On\nravens\"\n" ++ "author \"Jane\\q\"")
      = .error (.invalidEscape 'q' "Jane" ⟨3, 14⟩) := by decide +kernel
  have hread : tokenize "title"
      = .ok [⟨.keyword, "title", ⟨1, 1⟩, 0⟩, ⟨.lineEnd, "", ⟨1, 6⟩, 0⟩] := by decide +kernel
  refine ⟨hcomment, herror, ?_, tokenize_invisible.2.1 _ _ (by decide +kernel),
    tokenize_invisible.2.2 _ _ hread⟩
  rw [tokenize_invisible.1 _ _ _ (Scanner.feedAll {} "title \"On\nravens\"\n".toList).1
    (by decide +kernel) (by decide +kernel) (by decide +kernel) hcomment, herror]
  decide +kernel

end Manuscript
