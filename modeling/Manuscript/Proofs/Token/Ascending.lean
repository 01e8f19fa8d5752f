import Mathlib.Tactic.SplitIfs
import Manuscript.Token.Lexer

/-!
# Tokens ascend

The tokens of a source stand in the order of their positions, and no two at the same position. What
the lexer gave out stands in front of its floor, and nothing that it gives out later stands in front
of it.

* `Ascending`: tokens from a position on and up to another, each behind the one before it.
* `ascending_step`: a character moves the floor behind the tokens that it completes.
* `ascending_tokenize`: the tokens of a source ascend.
-/

namespace Manuscript

namespace Position

/-- A position stands before another or at it. -/
def AtOrBefore (p q : Position) : Prop := p.line < q.line ∨ p.line = q.line ∧ p.column ≤ q.column

/-- The position behind another one on its line. -/
def next (p : Position) : Position := ⟨p.line, p.column + 1⟩

variable {p q r : Position}

@[simp] theorem AtOrBefore.refl (p : Position) : p.AtOrBefore p := .inr ⟨rfl, Nat.le_refl _⟩

theorem AtOrBefore.trans (h : p.AtOrBefore q) (h' : q.AtOrBefore r) : p.AtOrBefore r := by
  unfold AtOrBefore at *
  omega

theorem Before.atOrBefore (h : p.Before q) : p.AtOrBefore q := by
  unfold Before at h
  unfold AtOrBefore
  omega

theorem AtOrBefore.trans_before (h : p.AtOrBefore q) (h' : q.Before r) : p.Before r := by
  unfold AtOrBefore at h
  unfold Before at *
  omega

theorem Before.trans_atOrBefore (h : p.Before q) (h' : q.AtOrBefore r) : p.Before r := by
  unfold AtOrBefore at h'
  unfold Before at *
  omega

theorem Before.ne (h : p.Before q) : p ≠ q := by
  rintro rfl
  unfold Before at h
  omega

/-- What stands behind a position stands at the next one or behind it. -/
theorem next_atOrBefore_iff : p.next.AtOrBefore q ↔ p.Before q := by
  unfold next AtOrBefore Before
  dsimp only
  omega

/-- What stands in front of the next position does not stand behind this one. -/
theorem before_next_iff : p.Before q.next ↔ p.AtOrBefore q := by
  unfold next AtOrBefore Before
  dsimp only
  omega

end Position

/-- Tokens from a position on and up to another one, each behind the one before it. -/
def Ascending : Position → List Token → Position → Prop
  | p, [], q => p.AtOrBefore q
  | p, t :: ts, q => p.AtOrBefore t.position ∧ Ascending t.position.next ts q

variable {p q r : Position} {ts us : List Token}

theorem Ascending.weaken (h : Ascending q ts r) (hp : p.AtOrBefore q) : Ascending p ts r := by
  cases ts with
  | nil => exact hp.trans h
  | cons t ts => exact ⟨hp.trans h.1, h.2⟩

theorem Ascending.append (h : Ascending p ts q) (h' : Ascending q us r) :
    Ascending p (ts ++ us) r := by
  induction ts generalizing p with
  | nil => exact h'.weaken h
  | cons t ts ih => exact ⟨h.1, ih h.2⟩

/-- One token that stands in front of the end. -/
theorem Ascending.single {t : Token} (hp : p.AtOrBefore t.position) (hq : t.position.Before q) :
    Ascending p [t] q := ⟨hp, Position.next_atOrBefore_iff.mpr hq⟩

/-- No token stands in front of the start. -/
theorem Ascending.atOrBefore (h : Ascending p ts q) : ∀ t ∈ ts, p.AtOrBefore t.position := by
  induction ts generalizing p with
  | nil => exact fun t ht => absurd ht List.not_mem_nil
  | cons u ts ih =>
    intro t ht
    rcases List.mem_cons.mp ht with rfl | ht
    · exact h.1
    · have hu : u.position.Before t.position := Position.next_atOrBefore_iff.mp (ih h.2 t ht)
      exact (h.1.trans_before hu).atOrBefore

/-- The end does not stand in front of the start. -/
theorem Ascending.atOrBefore_end (h : Ascending p ts q) : p.AtOrBefore q := by
  induction ts generalizing p with
  | nil => exact h
  | cons t ts ih => exact (h.1.trans_before (Position.next_atOrBefore_iff.mp (ih h.2))).atOrBefore

/-- The end may be brought forward behind the last token. -/
theorem Ascending.to_last (h : Ascending p ts q) {t : Token} (ht : t ∈ ts.getLast?) :
    Ascending p ts t.position.next := by
  induction ts generalizing p with
  | nil => cases ht
  | cons u ts ih =>
    refine ⟨h.1, ?_⟩
    cases ts with
    | nil =>
      cases ht
      exact .refl _
    | cons v vs => exact ih h.2 (by simpa using ht)

/-- Every token stands in front of all later ones. -/
theorem Ascending.pairwise (h : Ascending p ts q) :
    ts.Pairwise fun t u => t.position.Before u.position := by
  induction ts generalizing p with
  | nil => exact .nil
  | cons t ts ih =>
    refine List.pairwise_cons.mpr ⟨?_, ih h.2⟩
    intro u hu
    exact Position.next_atOrBefore_iff.mp (h.2.atOrBefore u hu)

namespace Lexer

/-- The first position at which a token may still be given out. -/
def floor (l : Lexer) : Position :=
  match l.mode with
  | .lineStart | .comment => ⟨l.line, 1⟩
  | .between => ⟨l.line, l.column + 1⟩
  | .keyword | .text | .escape => l.start

/-- A line in whose indentation something was counted has columns, and the token that is being read
starts at a character that was read. -/
structure Placed (l : Lexer) : Prop where
  indentation : l.mode = .lineStart → l.tabs + l.spaces ≤ l.column
  start : l.mode = .keyword ∨ l.mode = .text ∨ l.mode = .escape →
    l.start.AtOrBefore ⟨l.line, l.column⟩

/-- What a step without an error leaves behind: the tokens that it gives out stand between a
position and its floor. -/
structure Step.Rises (p : Position) (s : Step) : Prop where
  tokens : Ascending p s.tokens s.lexer.floor
  placed : s.lexer.Placed

theorem Step.Rises.after {ts : List Token} {s : Step} (hs : s.Rises q) (ht : Ascending p ts q) :
    (s.after ts).Rises p := ⟨ht.append hs.tokens, hs.placed⟩

theorem Step.Rises.weaken {s : Step} (hs : s.Rises q) (hp : p.AtOrBefore q) : s.Rises p :=
  ⟨hs.tokens.weaken hp, hs.placed⟩

variable {l : Lexer} {ch : Char}

theorem placed_endLine (l : Lexer) : l.endLine.Placed where
  indentation := fun _ => Nat.le_refl 0
  start := by simp [endLine]

theorem placed_between (h : l.mode = .between) : l.Placed where
  indentation := by simp [h]
  start := by simp [h]

/-- Between tokens, a character gives out a token at its own position, or begins one there. -/
theorem rises_stepBetween (hm : l.mode = .between)
    (he : (l.stepBetween ch ⟨l.line, l.column⟩).error = none) :
    (l.stepBetween ch ⟨l.line, l.column⟩).Rises ⟨l.line, l.column⟩ := by
  have hfloor : l.floor = ⟨l.line, l.column + 1⟩ := by
    unfold floor
    rw [hm]
  have hbehind : Position.Before ⟨l.line, l.column⟩ l.floor := by
    rw [hfloor]
    exact .inr ⟨rfl, Nat.lt_succ_self _⟩
  unfold stepBetween at he ⊢
  split_ifs at he ⊢
  · exact ⟨hbehind.atOrBefore, placed_between hm⟩
  · exact ⟨.single (.refl _) (.inl (Nat.lt_succ_self _)), placed_endLine l⟩
  · refine ⟨.single (.refl _) ?_, placed_between hm⟩
    unfold floor at hbehind ⊢
    rw [hm] at hbehind ⊢
    exact hbehind
  · exact ⟨.refl _, nofun, fun _ => .refl _⟩
  · exact ⟨.refl _, nofun, fun _ => .refl _⟩

/-- At the start of a line, the increase of indentation stands in the first column, and the token
that follows it behind the indentation. -/
theorem rises_stepLineStart (hcolumn : l.tabs + l.spaces < l.column) (hm : l.mode = .lineStart)
    (he : (l.stepLineStart ch ⟨l.line, l.column⟩).error = none) :
    (l.stepLineStart ch ⟨l.line, l.column⟩).Rises ⟨l.line, 1⟩ := by
  have hfloor : ∀ tabs spaces, floor { l with tabs := tabs, spaces := spaces } = ⟨l.line, 1⟩ := by
    intro tabs spaces
    unfold floor
    rw [hm]
  have hpositive : 1 ≤ l.column := by omega
  have hfirst : Position.AtOrBefore ⟨l.line, 1⟩ ⟨l.line, l.column⟩ := .inr ⟨rfl, hpositive⟩
  unfold stepLineStart at he ⊢
  dsimp only at he ⊢
  split_ifs at he ⊢ with htab hspace hnewline hcomment hdeeper
  · refine ⟨?_, ?_, by simp [hm]⟩
    · rw [hfloor]
      exact .refl _
    · intro _
      dsimp only
      omega
  · refine ⟨?_, ?_, by simp [hm]⟩
    · rw [hfloor]
      exact .refl _
    · intro _
      dsimp only
      omega
  · exact ⟨.inl (Nat.lt_succ_self _), placed_endLine l⟩
  · exact ⟨.refl _, nofun, by simp⟩
  · -- the depth grew, so that something was counted in front of the character
    have hdepth : 0 < l.measuredDepth := Nat.zero_lt_of_lt hdeeper
    have hcounted : 1 ≤ l.tabs + l.spaces := by
      unfold measuredDepth spacesPerIndent at hdepth
      omega
    refine (rises_stepBetween (l := { l with
      mode := .between, depth := l.measuredDepth, previousDepth := l.measuredDepth
      lineHasTokens := true }) rfl he).after ?_
    exact .single (.refl _) (.inr ⟨rfl, by dsimp only [token]; omega⟩)
  · exact (rises_stepBetween (l := { l with
      mode := .between, depth := l.measuredDepth, previousDepth := l.measuredDepth }) rfl he).weaken
      hfirst

/-- A word is given out at its first letter by the character behind it. -/
theorem rises_stepKeyword (hm : l.mode = .keyword) (hs : l.start.Before ⟨l.line, l.column⟩)
    (he : (l.stepKeyword ch ⟨l.line, l.column⟩).error = none) :
    (l.stepKeyword ch ⟨l.line, l.column⟩).Rises l.start := by
  unfold stepKeyword at he ⊢
  split_ifs at he ⊢
  · refine ⟨?_, by simp [hm], fun _ => hs.atOrBefore⟩
    unfold floor
    rw [hm]
    exact .refl _
  · exact (rises_stepBetween (l := l.closeWord) rfl he).after (.single (.refl _) hs)

/-- A text is given out at its opening quote. -/
theorem rises_stepText (hm : l.mode = .text) (hs : l.start.Before ⟨l.line, l.column⟩) :
    (l.stepText ch).Rises l.start := by
  have hfloor : ∀ buffer line column,
      floor { l with buffer := buffer, line := line, column := column } = l.start := by
    intro buffer line column
    unfold floor
    rw [hm]
  have hstay : Ascending l.start [] l.start := .refl _
  unfold stepText
  split_ifs
  · refine ⟨.single (.refl _) ?_, placed_between rfl⟩
    exact hs.trans_atOrBefore (.inr ⟨rfl, Nat.le_succ _⟩)
  · exact ⟨.refl _, nofun, fun _ => hs.atOrBefore⟩
  · refine ⟨?_, by simp [hm], fun _ => ?_⟩
    · rw [hfloor]
      exact hstay
    · unfold Position.Before at hs
      unfold Position.AtOrBefore
      dsimp only at hs ⊢
      omega
  · refine ⟨?_, by simp [hm], fun _ => ?_⟩
    · rw [hfloor]
      exact hstay
    · unfold Position.Before at hs
      unfold Position.AtOrBefore
      dsimp only at hs ⊢
      omega
  · refine ⟨?_, by simp [hm], fun _ => hs.atOrBefore⟩
    unfold floor
    rw [hm]
    exact hstay

theorem rises_stepEscape (hs : l.start.Before ⟨l.line, l.column⟩)
    (he : (l.stepEscape ch ⟨l.line, l.column⟩).error = none) :
    (l.stepEscape ch ⟨l.line, l.column⟩).Rises l.start := by
  unfold stepEscape at he ⊢
  cases hu : unescape? ch with
  | none =>
    rw [hu] at he
    cases he
  | some d => exact ⟨.refl _, nofun, fun _ => hs.atOrBefore⟩

/-- The floor in front of the character that is read, which has its column already. -/
def entry (l : Lexer) : Position :=
  match l.mode with
  | .lineStart | .comment => ⟨l.line, 1⟩
  | .between => ⟨l.line, l.column⟩
  | .keyword | .text | .escape => l.start

/-- What is placed has the column of the character that is read: it stands behind what was counted,
and behind the start of the token that is being read. -/
structure Entered (l : Lexer) : Prop where
  indentation : l.mode = .lineStart → l.tabs + l.spaces < l.column
  start : l.mode = .keyword ∨ l.mode = .text ∨ l.mode = .escape →
    l.start.Before ⟨l.line, l.column⟩

theorem Placed.entered (h : l.Placed) : Entered { l with column := l.column + 1 } where
  indentation := fun hm => Nat.lt_succ_of_le (h.indentation hm)
  start := fun hm => (h.start hm).trans_before (.inr ⟨rfl, Nat.lt_succ_self _⟩)

/-- One character moves the floor behind the tokens that it completes. -/
theorem ascending_step (h : l.Placed) (he : (l.step ch).error = none) :
    (l.step ch).Rises l.floor := by
  unfold step at he ⊢
  by_cases hc : ch = '\r'
  · rw [if_pos hc]
    exact ⟨.refl _, h⟩
  rw [if_neg hc] at he ⊢
  have hentered := h.entered
  show Step.Rises (entry { l with column := l.column + 1 }) _
  generalize { l with column := l.column + 1 } = l' at he hentered ⊢
  unfold entry
  dsimp only at he ⊢
  cases hm : l'.mode with
  | lineStart =>
    rw [hm] at he
    exact rises_stepLineStart (hentered.indentation hm) hm he
  | comment =>
    dsimp only
    split_ifs
    · exact ⟨.inl (Nat.lt_succ_self _), placed_endLine _⟩
    · refine ⟨?_, by simp [hm], by simp [hm]⟩
      unfold floor
      rw [hm]
      exact .refl _
  | between =>
    rw [hm] at he
    exact rises_stepBetween hm he
  | keyword =>
    rw [hm] at he
    exact rises_stepKeyword hm (hentered.start (.inl hm)) he
  | text => exact rises_stepText hm (hentered.start (.inr (.inl hm)))
  | escape =>
    rw [hm] at he
    exact rises_stepEscape (hentered.start (.inr (.inr hm))) he

/-- At the end of a source a line is closed behind its last character. -/
theorem ascending_closeLine (l : Lexer) :
    ∃ q, Ascending ⟨l.line, l.column + 1⟩ l.closeLine.tokens q := by
  unfold closeLine
  split_ifs
  · exact ⟨⟨l.line, l.column + 2⟩, .single (.refl _) (.inr ⟨rfl, Nat.lt_succ_self _⟩)⟩
  · exact ⟨_, .refl _⟩

theorem ascending_finish (h : l.Placed) (he : l.finish.error = none) :
    ∃ q, Ascending l.floor l.finish.tokens q := by
  obtain ⟨q, hq⟩ := ascending_closeLine l
  unfold finish floor at *
  cases hm : l.mode with
  | lineStart => exact ⟨q, hq.weaken (.inr ⟨rfl, Nat.succ_le_succ (Nat.zero_le _)⟩)⟩
  | comment => exact ⟨q, hq.weaken (.inr ⟨rfl, Nat.succ_le_succ (Nat.zero_le _)⟩)⟩
  | between => exact ⟨q, hq⟩
  | keyword =>
    obtain ⟨q', hq'⟩ := ascending_closeLine l.closeWord
    have hstart : l.start.Before ⟨l.line, l.column + 1⟩ :=
      (h.start (.inl hm)).trans_before (.inr ⟨rfl, Nat.lt_succ_self _⟩)
    exact ⟨q', Ascending.append (.single (.refl _) hstart) hq'⟩
  | text =>
    rw [hm] at he
    cases he
  | escape =>
    rw [hm] at he
    cases he

theorem ascending_read {cs : List Char} (h : l.Placed) (hread : l.read cs = .ok ts) :
    ∃ q, Ascending l.floor ts q := by
  induction cs generalizing l ts with
  | nil =>
    unfold read at hread
    dsimp only at hread
    split at hread
    · cases hread
    next he =>
      cases hread
      exact ascending_finish h he
  | cons ch cs ih =>
    unfold read at hread
    dsimp only at hread
    split at hread
    · cases hread
    next he =>
      have hrises := ascending_step h he
      rcases hr : (l.step ch).lexer.read cs with e | us
      · rw [hr] at hread
        cases hread
      · rw [hr] at hread
        cases hread
        obtain ⟨q, hq⟩ := ih hrises.placed hr
        exact ⟨q, hrises.tokens.append hq⟩

end Lexer

/-- The tokens of a source that can be read ascend, from the first character on. -/
theorem ascending_tokenize {source : String} (h : tokenize source = .ok ts) :
    ∃ q, Ascending ⟨1, 1⟩ ts q :=
  Lexer.ascending_read (l := {}) ⟨fun _ => Nat.le_refl 0, by simp⟩ h

end Manuscript
