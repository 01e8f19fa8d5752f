import Manuscript.Proofs.Token.Layout
import Manuscript.Proofs.Token.Stream

/-!
# Passing over a part of a source

A part of a source is read the same whatever stands behind it. `Passes` says what reading it does:
it takes a lexer to another one and gives out tokens, without an error.

* `Passes.read`, `Passes.stream`: the tokens of a part come first, and the rest is read from where
  the part ends.
* `Passes.here`: the lexer knows where it is.
* `passes_invisible`: a line without tokens moves the lexer down.
* `passes_letters`, `passes_unquoted`: words, texts.
-/

namespace Manuscript

namespace Lexer

/-- Reading characters takes a lexer to another one and gives out tokens, without an error. -/
inductive Passes : Lexer → List Char → List Token → Lexer → Prop
  | nil (l : Lexer) : Passes l [] [] l
  | cons {l m n : Lexer} {c : Char} {cs : List Char} {ts us : List Token}
      (hs : l.step c = ⟨m, ts, none⟩) (h : Passes m cs us n) : Passes l (c :: cs) (ts ++ us) n

namespace Passes

variable {l m n : Lexer} {c : Char} {cs ds : List Char} {ts us : List Token}

/-- A character that completes no token. -/
theorem skip (hs : l.step c = ⟨m, [], none⟩) (h : Passes m cs us n) : Passes l (c :: cs) us n :=
  .cons hs h

theorem append (h : Passes l cs ts m) (h' : Passes m ds us n) :
    Passes l (cs ++ ds) (ts ++ us) n := by
  induction h with
  | nil => exact h'
  | cons hs _ ih =>
    rw [List.append_assoc]
    exact .cons hs (ih h')

/-- The tokens of a part come first. -/
theorem read (h : Passes l cs ts m) (ds : List Char) :
    l.read (cs ++ ds) = (m.read ds).map (ts ++ ·) := by
  induction h with
  | nil l =>
    rw [List.nil_append]
    cases l.read ds <;> rfl
  | @cons l m n c cs ts us hs _ ih =>
    rw [List.cons_append, Lexer.read, hs]
    dsimp only
    rw [ih]
    cases n.read ds with
    | error e => rfl
    | ok vs => simp only [Except.map, List.append_assoc]

/-- The tokens of a part come first in the stream, whatever becomes of the rest. -/
theorem stream (h : Passes l cs ts m) (ds : List Char) :
    Scanner.stream ⟨l, []⟩ (cs ++ ds) = (Scanner.stream ⟨m, []⟩ ds).after ts := by
  induction h with
  | nil l => rfl
  | @cons l m n c cs ts us hs _ ih =>
    have hfeed : Scanner.feed ⟨l, []⟩ c = (⟨m, ts⟩, none) := by
      unfold Scanner.feed Scanner.afterStep
      rw [hs]
      rfl
    rw [List.cons_append, Scanner.stream, hfeed]
    show (Scanner.stream ⟨m, []⟩ (cs ++ ds)).after ts = _
    rw [ih, TokenStream.after_after]

end Passes

variable {l m n : Lexer} {c : Char} {cs ds : List Char} {ts us : List Token}

/-- What a scanner gives out for characters that it finds no error in. -/
theorem Passes.of_feedAll {s s' : Scanner} {cs : List Char}
    (h : s.feedAll cs = (s', none)) :
    ∃ ts, s'.ready = s.ready ++ ts ∧ Passes s.lexer cs ts s'.lexer := by
  induction cs generalizing s with
  | nil =>
    cases h
    exact ⟨[], (List.append_nil _).symm, .nil _⟩
  | cons c cs ih =>
    unfold Scanner.feedAll Scanner.feed Scanner.afterStep at h
    cases he : (s.lexer.step c).error with
    | some e =>
      rw [he] at h
      cases h
    | none =>
      rw [he] at h
      obtain ⟨ts, hready, hpasses⟩ := ih h
      refine ⟨(s.lexer.step c).tokens ++ ts, ?_, .cons ?_ hpasses⟩
      · rw [hready, List.append_assoc]
      · rw [← he]

/-- A source that can be read is passed, and the rest comes from its end. -/
theorem passes_of_read (h : l.read cs = .ok ts) :
    ∃ us n, Passes l cs us n ∧ n.finish.error = none ∧ ts = us ++ n.finish.tokens := by
  induction cs generalizing l ts with
  | nil =>
    unfold read at h
    dsimp only at h
    split at h
    · cases h
    next he =>
      cases h
      exact ⟨[], l, .nil l, he, rfl⟩
  | cons c cs ih =>
    unfold read at h
    dsimp only at h
    split at h
    · cases h
    next he =>
      rcases hr : (l.step c).lexer.read cs with e | vs
      · rw [hr] at h
        cases h
      · rw [hr] at h
        cases h
        obtain ⟨us, n, hpasses, hfinish, rfl⟩ := ih hr
        refine ⟨(l.step c).tokens ++ us, n, .cons ?_ hpasses, hfinish, (List.append_assoc ..).symm⟩
        rw [← he]

theorem settled_start : Settled {} := ⟨rfl, fun _ => rfl, nofun, nofun⟩

/-- A part leaves the lexer settled. -/
theorem Passes.settled (hp : Passes l cs ts n) (hs : l.Settled) : n.Settled := by
  induction hp with
  | nil l => exact hs
  | @cons l l' n c cs ts ts' hstep _ ih =>
    have hkeeps := keeps_step hs (c := c) (by rw [hstep])
    rw [hstep] at hkeeps
    exact ih hkeeps.settled

/-- The tokens of a part keep the promise of the lexer. -/
theorem Passes.promise (hp : Passes l cs ts n) (hs : l.Settled) (hn : n.Promise us) :
    l.Promise (ts ++ us) := by
  induction hp with
  | nil l => exact hn
  | @cons l l' n c cs ts ts' hstep _ ih =>
    have hkeeps := keeps_step hs (c := c) (by rw [hstep])
    rw [hstep] at hkeeps
    rw [List.append_assoc]
    exact hkeeps.tokens _ (ih hkeeps.settled hn)

/-! ## Where the lexer is -/

/-- Between tokens, a character is counted. -/
theorem here_stepBetween (l : Lexer) (c : Char) :
    (stepBetween { l with column := l.column + 1 } c ⟨l.line, l.column + 1⟩).lexer.here
      = l.here.past c := by
  unfold stepBetween Position.past
  by_cases hblank : c = ' ' ∨ c = '\t'
  · have hne : c ≠ '\n' := by
      rintro rfl
      simp at hblank
    rw [if_pos hblank, if_neg hne]
    rfl
  · rw [if_neg hblank]
    by_cases hbreak : c = '\n'
    · rw [if_pos hbreak, if_pos hbreak]
      rfl
    · rw [if_neg hbreak, if_neg hbreak]
      split_ifs <;> rfl

/-- A character that has a column is counted, unless it is an error. -/
theorem here_step (hc : c ≠ '\r') (he : (l.step c).error = none) :
    (l.step c).lexer.here = l.here.past c := by
  have hcounted : ∀ l' : Lexer, c ≠ '\n' → l'.line = l.line → l'.column = l.column + 1 →
      l'.here = l.here.past c := by
    intro l' hne hline hcolumn
    rw [Position.past_of_ne hne]
    unfold here Position.next
    rw [hline, hcolumn]
  unfold step at he ⊢
  rw [if_neg hc] at he ⊢
  dsimp only at he ⊢
  cases hm : l.mode with
  | lineStart =>
    simp only [hm, stepLineStart] at he ⊢
    split_ifs with htab hspace hbreak hcomment hdeeper
    · exact hcounted _ (by simp [htab]) rfl rfl
    · exact hcounted _ (by simp [hspace]) rfl rfl
    · rw [hbreak]
      rfl
    · exact hcounted _ hbreak rfl rfl
    · exact here_stepBetween { l with
        mode := .between, depth := _, previousDepth := _, lineHasTokens := true } c
    · exact here_stepBetween { l with mode := .between, depth := _, previousDepth := _ } c
  | comment =>
    dsimp only
    split_ifs with hbreak
    · rw [hbreak]
      rfl
    · exact hcounted _ hbreak rfl rfl
  | between =>
    dsimp only
    rw [← hm]
    exact here_stepBetween l c
  | keyword =>
    simp only [hm, stepKeyword] at he ⊢
    split_ifs with hletter hend
    · have hne : c ≠ '\n' := by
        rintro rfl
        cases hletter
      exact hcounted _ hne rfl rfl
    · exact here_stepBetween { l with mode := .between, buffer := "", lineHasTokens := true } c
    · rw [if_neg hletter, if_neg hend] at he
      cases he
  | text =>
    dsimp only [stepText]
    split_ifs with hquote hescape hbreak hspace
    · exact hcounted _ (by simp [hquote]) rfl rfl
    · exact hcounted _ (by simp [hescape]) rfl rfl
    · rw [hbreak]
      rfl
    · rw [hbreak]
      rfl
    · exact hcounted _ hbreak rfl rfl
  | escape =>
    simp only [hm, stepEscape] at he ⊢
    cases hu : unescape? c with
    | none =>
      rw [hu] at he
      cases he
    | some d =>
      have hne : c ≠ '\n' := by
        rintro rfl
        cases hu
      exact hcounted _ hne rfl rfl

/-- Reading a part takes the lexer to the position behind it. -/
theorem Passes.here (h : Passes l cs ts m) (hcs : '\r' ∉ cs) : m.here = l.here.pastAll cs := by
  induction h with
  | nil => rfl
  | @cons l m n c cs ts us hs _ ih =>
    rw [List.mem_cons, not_or] at hcs
    have hstep : (l.step c).lexer.here = l.here.past c := by
      apply here_step (Ne.symm hcs.1)
      rw [hs]
    rw [hs] at hstep
    rw [ih hcs.2, Position.pastAll_cons, hstep]

/-- Carriage returns are passed over. -/
theorem stream_visible (l : Lexer) (cs : List Char) :
    Scanner.stream ⟨l, []⟩ (visible cs) = Scanner.stream ⟨l, []⟩ cs := by
  induction cs generalizing l with
  | nil => rfl
  | cons c cs ih =>
    by_cases hc : c = '\r'
    · subst hc
      rw [visible_cons_return, ih]
      have hskip : Passes l ['\r'] [] l := .skip rfl (.nil l)
      exact (hskip.stream cs).symm
    · have hrest : Scanner.stream ⟨(l.step c).lexer, []⟩ (visible cs)
          = Scanner.stream ⟨(l.step c).lexer, []⟩ cs := ih _
      rw [visible_cons hc, Scanner.stream, Scanner.stream]
      unfold Scanner.feed Scanner.afterStep
      cases (l.step c).error with
      | some e => rfl
      | none => exact congrArg (TokenStream.after (l.step c).tokens) hrest

end Lexer

/-! ## Blank lines and comments -/

/-- A line that gives no token: blanks or a comment, up to its line feed. -/
inductive InvisibleLine : List Char → Prop
  | blank {margin : List Char} (h : ∀ c ∈ margin, c = ' ' ∨ c = '\t') :
      InvisibleLine (margin ++ ['\n'])
  | comment {body : List Char} (h : '\n' ∉ body) : InvisibleLine ('#' :: body ++ ['\n'])

/-- Whole lines without tokens: blank lines and comment lines. -/
inductive Quiet : List Char → Prop
  | nil : Quiet []
  | blank {margin cs : List Char} (hm : ∀ c ∈ margin, c = ' ' ∨ c = '\t') (h : Quiet cs) :
      Quiet (margin ++ '\n' :: cs)
  | comment {body cs : List Char} (hbody : '\n' ∉ body ∧ '\r' ∉ body) (h : Quiet cs) :
      Quiet ('#' :: body ++ '\n' :: cs)

namespace Lexer

/-- The lexer is at the start of a line. -/
structure Fresh (l : Lexer) : Prop where
  mode : l.mode = .lineStart
  column : l.column = 0
  tabs : l.tabs = 0
  spaces : l.spaces = 0
  lineHasTokens : l.lineHasTokens = false

theorem fresh_start : Fresh {} := ⟨rfl, rfl, rfl, rfl, rfl⟩

theorem fresh_endLine (l : Lexer) : l.endLine.Fresh := ⟨rfl, rfl, rfl, rfl, rfl⟩

variable {l m n : Lexer} {c : Char} {cs ds : List Char} {ts us : List Token}

/-- At the start of a line nothing is left to give out. -/
theorem read_nil (hl : l.Fresh) : l.read [] = .ok [] := by
  simp [Lexer.read, finish, hl.mode, closeLine, hl.lineHasTokens]

/-- Blanks in front of a line are counted. -/
theorem passes_margin (hm : l.mode = .lineStart) (hcs : ∀ c ∈ cs, c = ' ' ∨ c = '\t') :
    ∃ column tabs spaces, Passes l cs [] { l with column, tabs, spaces }
      ∧ ('\t' ∉ cs → tabs = l.tabs ∧ spaces = l.spaces + cs.length) := by
  induction cs generalizing l with
  | nil => exact ⟨_, _, _, .nil l, fun _ => ⟨rfl, rfl⟩⟩
  | cons c cs ih =>
    have hrest : ∀ c ∈ cs, c = ' ' ∨ c = '\t' := fun d hd => hcs d (List.mem_cons_of_mem c hd)
    rcases hcs c List.mem_cons_self with rfl | rfl
    · have hstep : l.step ' '
          = ⟨{ l with column := l.column + 1, spaces := l.spaces + 1 }, [], none⟩ := by
        simp [Lexer.step, stepLineStart, hm]
      obtain ⟨column, tabs, spaces, hpass, hcount⟩ :=
        ih (l := { l with column := l.column + 1, spaces := l.spaces + 1 }) hm hrest
      refine ⟨column, tabs, spaces, .skip hstep hpass, fun htab => ?_⟩
      rw [List.mem_cons, not_or] at htab
      obtain ⟨htabs, hspaces⟩ := hcount htab.2
      refine ⟨htabs, hspaces.trans ?_⟩
      rw [List.length_cons]
      dsimp only
      omega
    · have hstep : l.step '\t'
          = ⟨{ l with column := l.column + 1, tabs := l.tabs + 1 }, [], none⟩ := by
        simp [Lexer.step, stepLineStart, hm]
      obtain ⟨column, tabs, spaces, hpass, -⟩ :=
        ih (l := { l with column := l.column + 1, tabs := l.tabs + 1 }) hm hrest
      exact ⟨column, tabs, spaces, .skip hstep hpass, fun htab => absurd List.mem_cons_self htab⟩

/-- The body of a comment is passed over. -/
theorem passes_comment (hm : l.mode = .comment) (hcs : '\n' ∉ cs) :
    ∃ column, Passes l cs [] { l with column } := by
  induction cs generalizing l with
  | nil => exact ⟨_, .nil l⟩
  | cons c cs ih =>
    rw [List.mem_cons, not_or] at hcs
    by_cases hreturn : c = '\r'
    · subst hreturn
      obtain ⟨column, hpass⟩ := ih hm hcs.2
      exact ⟨column, .skip rfl hpass⟩
    · have hstep : l.step c = ⟨{ l with column := l.column + 1 }, [], none⟩ := by
        simp [Lexer.step, hm, Ne.symm hcs.1, hreturn]
      obtain ⟨column, hpass⟩ := ih (l := { l with column := l.column + 1 }) hm hcs.2
      exact ⟨column, .skip hstep hpass⟩

/-- From the start of a line to the start of the next one, nothing changes but the line. -/
theorem Fresh.endLine_eq (hl : l.Fresh) (mode : Mode) (column tabs spaces : Nat) :
    endLine { l with mode, column, tabs, spaces } = { l with line := l.line + 1 } := by
  unfold Lexer.endLine
  rw [Lexer.mk.injEq]
  exact ⟨hl.mode.symm, rfl, rfl, hl.column.symm, hl.tabs.symm, hl.spaces.symm, rfl, rfl,
    hl.lineHasTokens.symm, rfl⟩

/-- At the start of a line, a line without tokens does nothing but to move the lexer down. -/
theorem passes_invisible (hcs : InvisibleLine cs) (hl : l.Fresh) :
    Passes l cs [] { l with line := l.line + 1 } := by
  cases hcs with
  | blank hmargin =>
    obtain ⟨column, tabs, spaces, hpass, -⟩ := passes_margin hl.mode hmargin
    have hbreak : step { l with column, tabs, spaces } '\n'
        = ⟨endLine { l with column := column + 1, tabs, spaces }, [], none⟩ := by
      simp [Lexer.step, stepLineStart, hl.mode]
    rw [hl.endLine_eq l.mode] at hbreak
    exact hpass.append (.skip hbreak (.nil _))
  | comment hbody =>
    have hhash : l.step '#' = ⟨{ l with column := 1, mode := .comment }, [], none⟩ := by
      simp [Lexer.step, stepLineStart, hl.mode, hl.column]
    obtain ⟨column, hpass⟩ :=
      passes_comment (l := { l with column := 1, mode := .comment }) rfl hbody
    have hbreak : step { l with column, mode := .comment } '\n'
        = ⟨endLine { l with column := column + 1, mode := .comment }, [], none⟩ := by
      simp [Lexer.step]
    rw [hl.endLine_eq .comment (column + 1) l.tabs l.spaces] at hbreak
    exact .skip hhash (hpass.append (.skip hbreak (.nil _)))

/-- Lines without tokens lead to the start of another line and leave the depth as it is. -/
theorem passes_quiet (hq : Quiet cs) (hl : l.Fresh) :
    ∃ m, Passes l cs [] m ∧ m.Fresh ∧ m.previousDepth = l.previousDepth := by
  induction hq generalizing l with
  | nil => exact ⟨l, .nil l, hl, rfl⟩
  | @blank margin cs hmargin _ ih =>
    obtain ⟨m, hrest, hm, hprevious⟩ := ih (l := { l with line := l.line + 1 })
      ⟨hl.mode, hl.column, hl.tabs, hl.spaces, hl.lineHasTokens⟩
    have hpass := (passes_invisible (.blank hmargin) hl).append hrest
    rw [List.append_assoc] at hpass
    exact ⟨m, hpass, hm, hprevious⟩
  | @comment body cs hbody _ ih =>
    obtain ⟨m, hrest, hm, hprevious⟩ := ih (l := { l with line := l.line + 1 })
      ⟨hl.mode, hl.column, hl.tabs, hl.spaces, hl.lineHasTokens⟩
    have hpass := (passes_invisible (.comment hbody.1) hl).append hrest
    rw [List.append_assoc] at hpass
    exact ⟨m, hpass, hm, hprevious⟩

/-! ## Words and texts -/

/-- Letters go on with a word. -/
theorem passes_letters {letters : List Char} (hletters : ∀ c ∈ letters, isWordLetter c = true)
    (hm : l.mode = .keyword) :
    ∃ column, Passes l letters []
      { l with column, buffer := l.buffer ++ String.ofList letters } := by
  induction letters generalizing l with
  | nil => exact ⟨l.column, by simpa using Passes.nil l⟩
  | cons c letters ih =>
    have hc : isWordLetter c = true := hletters c List.mem_cons_self
    have hreturn : c ≠ '\r' := by
      rintro rfl
      cases hc
    have hstep : l.step c
        = ⟨{ l with column := l.column + 1, buffer := l.buffer.push c }, [], none⟩ := by
      simp [Lexer.step, stepKeyword, hm, hc, hreturn]
    obtain ⟨column, hpass⟩ :=
      ih (l := { l with column := l.column + 1, buffer := l.buffer.push c })
        (fun d hd => hletters d (List.mem_cons_of_mem c hd)) hm
    have hbuffer : l.buffer ++ String.ofList (c :: letters)
        = l.buffer.push c ++ String.ofList letters := by
      apply String.toList_injective
      simp
    rw [hbuffer]
    exact ⟨column, .skip hstep hpass⟩

/-- The characters of a text make up its value. -/
theorem passes_unquoted {before value : String} {raw : List Char} (h : Unquoted before raw value)
    (hraw : '\r' ∉ raw) (hm : l.mode = .text) (hb : l.buffer = before) :
    ∃ line column, Passes l raw [] { l with line, column, mode := .text, buffer := value } := by
  induction h generalizing l with
  | nil value =>
    subst hb
    refine ⟨l.line, l.column, ?_⟩
    rw [← hm]
    exact .nil l
  | @char before value c cs hquote hescape hbreak _ ih =>
    rw [List.mem_cons, not_or] at hraw
    subst hb
    have hstep : l.step c
        = ⟨{ l with column := l.column + 1, buffer := l.buffer.push c }, [], none⟩ := by
      simp [Lexer.step, stepText, hm, hquote, hescape, hbreak, Ne.symm hraw.1]
    obtain ⟨line, column, hpass⟩ := ih (l := { l with
      column := l.column + 1, buffer := l.buffer.push c }) hraw.2 hm rfl
    exact ⟨line, column, .skip hstep hpass⟩
  | @escape before value c d cs hd _ ih =>
    rw [List.mem_cons, List.mem_cons, not_or, not_or] at hraw
    subst hb
    have hback : l.step '\\' = ⟨{ l with column := l.column + 1, mode := .escape }, [], none⟩ := by
      simp [Lexer.step, stepText, hm]
    have hstep : step { l with column := l.column + 1, mode := .escape } c
        = ⟨{ l with
            column := l.column + 2, buffer := l.buffer.push d, mode := .text }, [], none⟩ := by
      simp [Lexer.step, stepEscape, hd, Ne.symm hraw.2.1]
    obtain ⟨line, column, hpass⟩ := ih (l := { l with
      column := l.column + 2, buffer := l.buffer.push d, mode := .text }) hraw.2.2 rfl rfl
    exact ⟨line, column, .skip hback (.skip hstep hpass)⟩
  | @lineBreak before value cs _ ih =>
    rw [List.mem_cons, not_or] at hraw
    subst hb
    obtain ⟨line, column, hpass⟩ := ih (l := { l with
      line := l.line + 1, column := 0
      buffer := if l.buffer.toList.getLast? = some ' ' then l.buffer else l.buffer.push ' ' })
      hraw.2 hm rfl
    refine ⟨line, column, .skip ?_ hpass⟩
    simp [Lexer.step, stepText, hm]

end Lexer

end Manuscript
