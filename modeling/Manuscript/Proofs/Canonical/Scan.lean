import Mathlib.Tactic.SplitIfs
import Manuscript.Proofs.Canonical.Tree
import Manuscript.Proofs.Specification.Unplaced

/-!
# Scanning printed lines

Printed lines are read as their tokens, wherever on the page they stand: positions are left out of
what is said here. A lexer is described by the few things that the next characters depend on.

* `yields_lexeme`: a lexeme is read as its token if something that ends a word stands behind it.
* `yields_lines`: lines are read as their tokens, with the increases of indentation.
-/

namespace Manuscript

/-! ## Keywords as words -/

theorem Keyword.mem_all (k : Keyword) : k ∈ Keyword.all := by
  cases k <;> decide

/-- The spelling of a keyword is a word. -/
theorem Keyword.spelling_letters (k : Keyword) :
    k.spelling.toList ≠ [] ∧ ∀ c ∈ k.spelling.toList, Lexer.isWordLetter c = true := by
  have hall : (Keyword.all.all fun k =>
      !k.spelling.toList.isEmpty && k.spelling.toList.all Lexer.isWordLetter) = true := by
    decide +kernel
  have hk := List.all_eq_true.mp hall k k.mem_all
  rw [Bool.and_eq_true, List.all_eq_true] at hk
  exact ⟨by simpa using hk.1, hk.2⟩

/-- A keyword is the keyword of its spelling. -/
theorem Keyword.ofWord_spelling (k : Keyword) : Keyword.ofWord? k.spelling = some k := by
  have hall : ∀ k ∈ Keyword.all, Keyword.ofWord? k.spelling = some k := by
    decide +kernel
  exact hall k k.mem_all

namespace Lexer

open Canonical

/-- Reading the rest of a source gives the tokens, up to their positions. -/
def Yields (l : Lexer) (cs : List Char) (ts : List Token) : Prop :=
  ∃ us, l.read cs = .ok us ∧ us.map Token.unplaced = ts

/-! ## Steps -/

/-- A step without an error gives out its tokens in front of those of the rest. -/
theorem Yields.step {l l' : Lexer} {c : Char} {cs : List Char} {us ts : List Token}
    (hs : l.step c = ⟨l', us, none⟩) (h : Yields l' cs ts) :
    Yields l (c :: cs) (us.map Token.unplaced ++ ts) := by
  obtain ⟨vs, hv, rfl⟩ := h
  refine ⟨us ++ vs, ?_, List.map_append⟩
  rw [read, hs]
  dsimp only
  rw [hv]
  rfl

/-- A step that gives out no token. -/
theorem Yields.skip {l l' : Lexer} {c : Char} {cs : List Char} {ts : List Token}
    (hs : l.step c = ⟨l', [], none⟩) (h : Yields l' cs ts) : Yields l (c :: cs) ts :=
  h.step hs

/-- If a step does what the step of another lexer does, with some tokens in front, then reading on
does so, too. -/
theorem Yields.of_after {l l' : Lexer} {c : Char} {cs : List Char} {us ts : List Token}
    (hs : l.step c = (l'.step c).after us) (h : Yields l' (c :: cs) ts) :
    Yields l (c :: cs) (us.map Token.unplaced ++ ts) := by
  obtain ⟨vs, hv, rfl⟩ := h
  refine ⟨us ++ vs, ?_, List.map_append⟩
  rw [read] at hv ⊢
  rw [hs]
  unfold Step.after
  dsimp only
  cases he : (l'.step c).error with
  | some e =>
    rw [he] at hv
    cases hv
  | none =>
    rw [he] at hv
    dsimp only at hv ⊢
    cases hr : read (l'.step c).lexer cs with
    | error e =>
      rw [hr] at hv
      cases hv
    | ok ws =>
      rw [hr] at hv
      cases hv
      simp [Except.map]

/-! ## What the next characters depend on -/

/-- The lexer is in the indentation of a line, behind some spaces. -/
structure AtStart (p n : Nat) (l : Lexer) : Prop where
  mode : l.mode = .lineStart
  tabs : l.tabs = 0
  spaces : l.spaces = n
  previousDepth : l.previousDepth = p
  lineHasTokens : l.lineHasTokens = false

/-- The lexer is between the tokens of a line. -/
structure Between (d : Nat) (l : Lexer) : Prop where
  mode : l.mode = .between
  depth : l.depth = d
  previousDepth : l.previousDepth = d

/-- The lexer has read a part of a token. -/
structure Inside (m : Mode) (d : Nat) (known : List Char) (l : Lexer) : Prop where
  mode : l.mode = m
  depth : l.depth = d
  previousDepth : l.previousDepth = d
  buffer : l.buffer.toList = known

variable {d p n : Nat} {l : Lexer} {c : Char} {cs : List Char} {ts : List Token}

/-! ## Texts and words -/

/-- A character that is written as it is. -/
theorem yields_plain {known : List Char} (hl : Inside .text d known l)
    (hc : c ≠ '"' ∧ c ≠ '\\' ∧ c ≠ '\n' ∧ c ≠ '\r')
    (h : ∀ l', Inside .text d (known ++ [c]) l' → Yields l' cs ts) : Yields l (c :: cs) ts := by
  obtain ⟨h₁, h₂, h₃, h₄⟩ := hc
  refine .skip ?_ (h { l with column := l.column + 1, buffer := l.buffer.push c } ?_)
  · simp [Lexer.step, stepText, hl.mode, h₁, h₂, h₃, h₄]
  · exact ⟨hl.mode, hl.depth, hl.previousDepth, by simp [hl.buffer]⟩

/-- An escape reads as the character that it stands for. -/
theorem yields_escape {known : List Char} {e : Char} (hl : Inside .text d known l)
    (he : unescape? e = some c) (hr : e ≠ '\r')
    (h : ∀ l', Inside .text d (known ++ [c]) l' → Yields l' cs ts) :
    Yields l ('\\' :: e :: cs) ts := by
  have hback : l.step '\\' = ⟨{ l with column := l.column + 1, mode := .escape }, [], none⟩ := by
    simp [Lexer.step, stepText, hl.mode]
  refine .skip hback (.skip ?_ (h { l with
    column := l.column + 2, mode := .text, buffer := l.buffer.push c } ?_))
  · simp [Lexer.step, stepEscape, hr, he]
  · exact ⟨rfl, hl.depth, hl.previousDepth, by simp [hl.buffer]⟩

/-- What is left of a text is read up to its closing quote. -/
theorem yields_text {value known : List Char} (hv : '\r' ∉ value) (hl : Inside .text d known l)
    (h : ∀ l', Between d l' → Yields l' cs ts) :
    Yields l (value.flatMap escaped ++ '"' :: cs)
      ((Lexeme.text (String.ofList (known ++ value))).token d :: ts) := by
  -- what was read so far is in the buffer, and the next character adds to it, escaped or not
  induction value generalizing l known with
  | nil =>
    have hclose : l.step '"' = ⟨{ l with
        column := l.column + 1, mode := .between, buffer := "", lineHasTokens := true },
        [l.token .text l.buffer l.start], none⟩ := by
      simp only [Lexer.step, stepText, hl.mode]
      rfl
    have htoken : (l.token .text l.buffer l.start).unplaced
        = (Lexeme.text (String.ofList (known ++ []))).token d := by
      rw [List.append_nil, ← hl.buffer, String.ofList_toList]
      unfold Lexer.token
      rw [hl.depth]
      rfl
    rw [← htoken]
    exact .step hclose (h _ ⟨rfl, hl.depth, hl.previousDepth⟩)
  | cons c value ih =>
    rw [List.mem_cons, not_or] at hv
    rw [List.flatMap_cons, List.append_assoc, List.append_cons known c value]
    unfold escaped
    split_ifs with h₁ h₂ h₃ h₄
    · subst h₁
      exact yields_escape hl rfl (by decide) fun l' hl' => ih hv.2 hl'
    · subst h₂
      exact yields_escape hl rfl (by decide) fun l' hl' => ih hv.2 hl'
    · subst h₃
      exact yields_escape hl rfl (by decide) fun l' hl' => ih hv.2 hl'
    · subst h₄
      exact yields_escape hl rfl (by decide) fun l' hl' => ih hv.2 hl'
    · exact yields_plain hl ⟨h₁, h₂, h₃, Ne.symm hv.1⟩ fun l' hl' => ih hv.2 hl'

/-- What may stand behind a word on a printed line. -/
def EndsWord (c : Char) : Prop := c = ' ' ∨ c = ',' ∨ c = '\n'

/-- A letter is none of the characters that mean something else. -/
theorem isWordLetter_ne {a : Char} (h : isWordLetter a = true) (hc : isWordLetter c = false) :
    a ≠ c := by
  rintro rfl
  rw [h] at hc
  cases hc

/-- What is left of a word is read up to the character behind it. -/
theorem yields_word {letters known : List Char} (hw : ∀ a ∈ letters, isWordLetter a = true)
    (hc : EndsWord c) (hl : Inside .keyword d known l)
    (h : ∀ l', Between d l' → Yields l' (c :: cs) ts) :
    Yields l (letters ++ c :: cs)
      (⟨.keyword, String.ofList (known ++ letters), .origin, d⟩ :: ts) := by
  induction letters generalizing l known with
  | nil =>
    have hclose : l.step c = (l.closeWord.step c).after [l.word] := by
      rcases hc with rfl | rfl | rfl <;> simp only [Lexer.step, stepKeyword, hl.mode] <;> rfl
    have htoken : l.word.unplaced = ⟨.keyword, String.ofList (known ++ []), .origin, d⟩ := by
      rw [List.append_nil, ← hl.buffer, String.ofList_toList]
      unfold Lexer.word Lexer.token
      rw [hl.depth]
      rfl
    rw [← htoken]
    exact .of_after hclose (h _ ⟨rfl, hl.depth, hl.previousDepth⟩)
  | cons a letters ih =>
    have ha : isWordLetter a = true := hw a List.mem_cons_self
    have hr : a ≠ '\r' := isWordLetter_ne ha (by decide)
    have hletter : l.step a = ⟨{ l with column := l.column + 1, buffer := l.buffer.push a },
        [], none⟩ := by
      simp [Lexer.step, stepKeyword, hl.mode, ha, hr]
    rw [List.append_cons known a letters]
    refine .skip hletter (ih (fun b hb => hw b (List.mem_cons_of_mem a hb)) ?_)
    exact ⟨hl.mode, hl.depth, hl.previousDepth, by simp [hl.buffer]⟩

/-! ## Lexemes -/

/-- A lexeme is read as its token, if the character behind it may stand behind a word. -/
theorem yields_lexeme {x : Lexeme} (hx : x.Clean) (hc : EndsWord c) (hl : Between d l)
    (h : ∀ l', Between d l' → Yields l' (c :: cs) ts) :
    Yields l (x.chars ++ c :: cs) (x.token d :: ts) := by
  cases x with
  | word k =>
    obtain ⟨hne, hletters⟩ := k.spelling_letters
    obtain ⟨a, letters, hk⟩ := List.exists_cons_of_ne_nil hne
    rw [hk] at hletters
    have ha : isWordLetter a = true := hletters a List.mem_cons_self
    have hfirst : l.step a = ⟨{ l with
        column := l.column + 1, mode := .keyword, start := ⟨l.line, l.column + 1⟩,
        buffer := String.singleton a }, [], none⟩ := by
      have h₁ : a ≠ '\r' := isWordLetter_ne ha (by decide)
      have h₂ : a ≠ ' ' := isWordLetter_ne ha (by decide)
      have h₃ : a ≠ '\t' := isWordLetter_ne ha (by decide)
      have h₄ : a ≠ '\n' := isWordLetter_ne ha (by decide)
      have h₅ : a ≠ ',' := isWordLetter_ne ha (by decide)
      have h₆ : a ≠ '"' := isWordLetter_ne ha (by decide)
      simp [Lexer.step, stepBetween, hl.mode, ha, h₁, h₂, h₃, h₄, h₅, h₆]
    have htoken : (Lexeme.word k).token d
        = ⟨.keyword, String.ofList ([a] ++ letters), .origin, d⟩ := by
      rw [List.singleton_append, ← hk, String.ofList_toList]
      rfl
    rw [Lexeme.chars, hk, htoken]
    refine .skip hfirst (yields_word (fun b hb => hletters b (List.mem_cons_of_mem a hb)) hc ?_ h)
    exact ⟨rfl, hl.depth, hl.previousDepth, by simp⟩
  | text value =>
    have hopen : l.step '"' = ⟨{ l with
        column := l.column + 1, mode := .text, start := ⟨l.line, l.column + 1⟩, buffer := "" },
        [], none⟩ := by
      simp [Lexer.step, stepBetween, hl.mode]
    have htoken : (Lexeme.text value).token d
        = (Lexeme.text (String.ofList ([] ++ value.toList))).token d := by
      rw [List.nil_append, String.ofList_toList]
    rw [Lexeme.chars, List.cons_append, List.append_assoc, htoken]
    exact .skip hopen (yields_text hx ⟨rfl, hl.depth, hl.previousDepth, rfl⟩ h)
  | comma =>
    have hcomma : l.step ',' = ⟨{ l with column := l.column + 1, lineHasTokens := true },
        [l.token .separator "," ⟨l.line, l.column + 1⟩], none⟩ := by
      simp [Lexer.step, stepBetween, hl.mode, Lexer.token]
    have htoken : (l.token .separator "," ⟨l.line, l.column + 1⟩).unplaced
        = Lexeme.comma.token d := by
      unfold Lexer.token
      rw [hl.depth]
      rfl
    rw [← htoken]
    exact .step hcomma (h _ ⟨hl.mode, hl.depth, hl.previousDepth⟩)

/-! ## Lines -/

/-- A blank between two lexemes is skipped. -/
theorem yields_blank (hl : Between d l) (h : ∀ l', Between d l' → Yields l' cs ts) :
    Yields l (' ' :: cs) ts := by
  have hblank : l.step ' ' = ⟨{ l with column := l.column + 1 }, [], none⟩ := by
    simp [Lexer.step, stepBetween, hl.mode]
  exact .skip hblank (h _ ⟨hl.mode, hl.depth, hl.previousDepth⟩)

/-- What stands behind a lexeme of a line may stand behind a word. -/
theorem endsWord_behind (xs : List Lexeme) (cs : List Char) :
    ∃ c cs', EndsWord c ∧ xs.flatMap Lexeme.charsBehind ++ '\n' :: cs = c :: cs' := by
  cases xs with
  | nil => exact ⟨'\n', cs, .inr (.inr rfl), rfl⟩
  | cons x xs =>
    cases x with
    | comma => exact ⟨',', _, .inr (.inl rfl), rfl⟩
    | word k => exact ⟨' ', _, .inl rfl, rfl⟩
    | text value => exact ⟨' ', _, .inl rfl, rfl⟩

/-- A lexeme that is not the last of its line. -/
theorem yields_lexeme_behind {x : Lexeme} (hx : x.Clean) {xs : List Lexeme} (hl : Between d l)
    (h : ∀ l', Between d l' →
      Yields l' (xs.flatMap Lexeme.charsBehind ++ '\n' :: cs) ts) :
    Yields l (x.chars ++ (xs.flatMap Lexeme.charsBehind ++ '\n' :: cs)) (x.token d :: ts) := by
  obtain ⟨c, cs', hc, hcs⟩ := endsWord_behind xs cs
  rw [hcs] at h ⊢
  exact yields_lexeme hx hc hl h

/-- The lexemes behind the first of a line are read as their tokens. -/
theorem yields_behind {xs : List Lexeme} (hx : ∀ x ∈ xs, x.Clean) (hl : Between d l)
    (h : ∀ l', Between d l' → Yields l' ('\n' :: cs) ts) :
    Yields l (xs.flatMap Lexeme.charsBehind ++ '\n' :: cs) (xs.map (Lexeme.token d) ++ ts) := by
  induction xs generalizing l with
  | nil => exact h l hl
  | cons x xs ih =>
    have hxs : ∀ y ∈ xs, y.Clean := fun y hy => hx y (List.mem_cons_of_mem x hy)
    have hbehind : ∀ l', Between d l' →
        Yields l' (x.chars ++ (xs.flatMap Lexeme.charsBehind ++ '\n' :: cs))
          (x.token d :: (xs.map (Lexeme.token d) ++ ts)) := fun l' hl' =>
      yields_lexeme_behind (hx x List.mem_cons_self) hl' fun l'' hl'' => ih hxs hl''
    rw [List.flatMap_cons, List.append_assoc]
    cases x with
    | comma => exact hbehind l hl
    | word k => exact yields_blank hl hbehind
    | text value => exact yields_blank hl hbehind

/-- Spaces at the start of a line are counted. -/
theorem yields_spaces (m : Nat) (hl : AtStart p n l)
    (h : ∀ l', AtStart p (n + m) l' → Yields l' cs ts) :
    Yields l (List.replicate m ' ' ++ cs) ts := by
  induction m generalizing l n with
  | zero => exact h l hl
  | succ m ih =>
    have hspace : l.step ' ' = ⟨{ l with column := l.column + 1, spaces := l.spaces + 1 },
        [], none⟩ := by
      simp [Lexer.step, stepLineStart, hl.mode]
    rw [List.replicate_succ, List.cons_append]
    refine .skip hspace
      (ih (n := n + 1) ⟨hl.mode, hl.tabs, ?_, hl.previousDepth, hl.lineHasTokens⟩ ?_)
    · show l.spaces + 1 = n + 1
      rw [hl.spaces]
    · intro l' hl'
      rw [Nat.add_right_comm, Nat.add_assoc] at hl'
      exact h l' hl'

/-- The first character of a lexeme is no indentation, no comment and no end of line. -/
theorem lexeme_head (x : Lexeme) : ∃ c cs, x.chars = c :: cs
    ∧ c ≠ ' ' ∧ c ≠ '\t' ∧ c ≠ '\n' ∧ c ≠ '#' ∧ c ≠ '\r' := by
  cases x with
  | word k =>
    obtain ⟨hne, hletters⟩ := k.spelling_letters
    obtain ⟨c, cs, hk⟩ := List.exists_cons_of_ne_nil hne
    rw [hk] at hletters
    have hc : isWordLetter c = true := hletters c List.mem_cons_self
    exact ⟨c, cs, hk, isWordLetter_ne hc (by decide), isWordLetter_ne hc (by decide),
      isWordLetter_ne hc (by decide), isWordLetter_ne hc (by decide),
      isWordLetter_ne hc (by decide)⟩
  | text value => exact ⟨'"', _, rfl, by decide⟩
  | comma => exact ⟨',', [], rfl, by decide⟩

/-- The first character of a line gives the line its depth, with a token if the depth grew. -/
theorem yields_start (hl : AtStart p (spacesPerIndent * d) l)
    (hc : c ≠ ' ' ∧ c ≠ '\t' ∧ c ≠ '\n' ∧ c ≠ '#' ∧ c ≠ '\r')
    (h : ∀ l', Between d l' → Yields l' (c :: cs) ts) :
    Yields l (c :: cs) ((if p < d then [indentTo d] else []) ++ ts) := by
  obtain ⟨h₁, h₂, h₃, h₄, h₅⟩ := hc
  have hdepth : l.tabs + l.spaces / spacesPerIndent = d := by
    rw [hl.tabs, hl.spaces, Nat.mul_div_cancel_left d (by decide), Nat.zero_add]
  split_ifs with hlt
  · let opened : Lexer := { l with
      mode := .between, depth := d, previousDepth := d, lineHasTokens := true }
    have hafter : l.step c
        = (opened.step c).after [opened.token .indent (toString d) ⟨l.line, 1⟩] := by
      simp [Lexer.step, stepLineStart, hl.mode, h₁, h₂, h₃, h₄, h₅, measuredDepth, hdepth,
        hl.previousDepth, hlt, opened, Lexer.token]
    exact .of_after hafter (h opened ⟨rfl, rfl, rfl⟩)
  · let opened : Lexer := { l with mode := .between, depth := d, previousDepth := d }
    have hafter : l.step c = (opened.step c).after [] := by
      simp [Lexer.step, stepLineStart, hl.mode, h₁, h₂, h₃, h₄, h₅, measuredDepth, hdepth,
        hl.previousDepth, hlt, opened, Step.after]
    exact .of_after hafter (h opened ⟨rfl, rfl, rfl⟩)

/-- The end of a line is a token, and the next line starts. -/
theorem yields_lineEnd (hl : Between d l) (h : ∀ l', AtStart d 0 l' → Yields l' cs ts) :
    Yields l ('\n' :: cs) (lineEndAt d :: ts) := by
  have hend : l.step '\n' = ⟨{ l with column := l.column + 1 }.endLine,
      [l.token .lineEnd "" ⟨l.line, l.column + 1⟩], none⟩ := by
    simp [Lexer.step, stepBetween, hl.mode, Lexer.token]
  have htoken : (l.token .lineEnd "" ⟨l.line, l.column + 1⟩).unplaced = lineEndAt d := by
    unfold Lexer.token
    rw [hl.depth]
    rfl
  rw [← htoken]
  exact .step hend (h _ ⟨rfl, rfl, rfl, hl.previousDepth, rfl⟩)

/-- A line is read as its tokens, with an increase of indentation in front of a deeper line. -/
theorem yields_line {line : Line} (hline : line.Clean) (hl : AtStart p 0 l)
    (h : ∀ l', AtStart line.depth 0 l' → Yields l' cs ts) :
    Yields l (line.chars ++ cs)
      ((if p < line.depth then [indentTo line.depth] else []) ++ (line.tokens ++ ts)) := by
  unfold Line.chars Line.tokens
  simp only [List.append_assoc, List.cons_append, List.nil_append]
  refine yields_spaces _ hl fun l₁ hl₁ => ?_
  rw [Nat.zero_add] at hl₁
  obtain ⟨c, cs', hchars, hc⟩ := lexeme_head line.first
  have hfirst : ∀ l', Between line.depth l' → Yields l'
      (line.first.chars ++ (line.rest.flatMap Lexeme.charsBehind ++ '\n' :: cs))
      (line.first.token line.depth
        :: (line.rest.map (Lexeme.token line.depth) ++ (lineEndAt line.depth :: ts))) := by
    intro l₂ hl₂
    refine yields_lexeme_behind hline.1 hl₂ fun l₃ hl₃ => ?_
    exact yields_behind hline.2 hl₃ fun l₄ hl₄ => yields_lineEnd hl₄ h
  rw [hchars] at hfirst ⊢
  exact yields_start hl₁ hc hfirst

/-- Lines are read as their tokens. -/
theorem yields_lines {lines : List Line} (hlines : ∀ line ∈ lines, line.Clean)
    (hl : AtStart p 0 l) : Yields l (lines.flatMap Line.chars) (tokensFrom p lines) := by
  -- the depth of a line is what the indentation of the next one is compared with
  induction lines generalizing l p with
  | nil =>
    refine ⟨[], ?_, rfl⟩
    have hfinish : l.finish = ⟨{ l with mode := .lineStart }, [], none⟩ := by
      simp [finish, closeLine, hl.mode, hl.lineHasTokens]
    rw [List.flatMap_nil, read, hfinish]
  | cons line lines ih =>
    rw [List.flatMap_cons, tokensFrom]
    refine yields_line (hlines line List.mem_cons_self) hl fun l' hl' => ?_
    exact ih (fun m hm => hlines m (List.mem_cons_of_mem line hm)) hl'

end Lexer

/-- Printed lines are a source that can be read. -/
theorem tokenize_lines {lines : List Canonical.Line} (h : ∀ line ∈ lines, line.Clean) :
    ∃ ts, tokenize (String.ofList (lines.flatMap Canonical.Line.chars)) = .ok ts
      ∧ ts.map Token.unplaced = Canonical.tokensFrom 0 lines := by
  unfold tokenize
  rw [String.toList_ofList]
  exact Lexer.yields_lines h ⟨rfl, rfl, rfl, rfl, rfl⟩

end Manuscript
