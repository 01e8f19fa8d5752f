import Manuscript.Proofs.Token.Ascending
import Manuscript.Proofs.Token.LineGroups
import Manuscript.Proofs.Token.Shape

/-!
# Where tokens stand

The position of a token says where the source spells it, and the position of an error where the
source goes wrong. Both count the lines and columns of the characters that are no carriage return.

The tokens are laid out over the characters of the source: what lies between them is a blank, a line
break or a comment, and the tokens take up the rest in their order. Every position is then told by
the characters in front of it.

* `Unquoted`: what the characters of a text make of its value.
* `Laid`: tokens laid out over characters.
* `BreaksOff`: what an error says about the characters at which the layout breaks off.
* `covers_step`: a character extends the layout by the tokens that it completes.
* `tokenize_faithful`: the tokens of a source, or its first error, stand where they say.
-/

namespace Manuscript

open Lexer (isWordLetter unescape?)

/-- The characters of a source that have a column. -/
def visible (cs : List Char) : List Char := cs.filter (· ≠ '\r')

theorem visible_cons_return (cs : List Char) : visible ('\r' :: cs) = visible cs := rfl

theorem visible_cons {c : Char} (h : c ≠ '\r') (cs : List Char) :
    visible (c :: cs) = c :: visible cs := by
  unfold visible
  rw [List.filter_cons_of_pos (by simpa using h)]

namespace Position

/-- The position behind a character. -/
def past (p : Position) (c : Char) : Position := if c = '\n' then ⟨p.line + 1, 1⟩ else p.next

/-- The position behind characters. -/
def pastAll (p : Position) (cs : List Char) : Position := cs.foldl past p

variable {p : Position} {c : Char}

theorem past_of_ne (h : c ≠ '\n') : p.past c = p.next := if_neg h

@[simp] theorem pastAll_nil (p : Position) : p.pastAll [] = p := rfl

@[simp] theorem pastAll_cons (p : Position) (c : Char) (cs : List Char) :
    p.pastAll (c :: cs) = (p.past c).pastAll cs := rfl

@[simp] theorem pastAll_append (p : Position) (cs ds : List Char) :
    p.pastAll (cs ++ ds) = (p.pastAll cs).pastAll ds := List.foldl_append

end Position

/-! ## Spelling -/

/-- Behind a part of the value of a text, characters that make up a whole value: a character stands
for itself, an escape for one, and a line break for a space unless a space stands before it. -/
inductive Unquoted : String → List Char → String → Prop
  | nil (value : String) : Unquoted value [] value
  | char {before value : String} {c : Char} {cs : List Char} (hquote : c ≠ '"')
      (hescape : c ≠ '\\') (hbreak : c ≠ '\n') (h : Unquoted (before.push c) cs value) :
      Unquoted before (c :: cs) value
  | escape {before value : String} {c d : Char} {cs : List Char} (hd : unescape? c = some d)
      (h : Unquoted (before.push d) cs value) : Unquoted before ('\\' :: c :: cs) value
  | lineBreak {before value : String} {cs : List Char}
      (h : Unquoted (if before.toList.getLast? = some ' ' then before else before.push ' ') cs
        value) :
      Unquoted before ('\n' :: cs) value

theorem Unquoted.append {u v w : String} {cs ds : List Char} (h : Unquoted u cs v)
    (h' : Unquoted v ds w) : Unquoted u (cs ++ ds) w := by
  induction h with
  | nil => exact h'
  | char hquote hescape hbreak _ ih => exact .char hquote hescape hbreak (ih h')
  | escape hd _ ih => exact .escape hd (ih h')
  | lineBreak _ ih => exact .lineBreak (ih h')

/-- The characters that a token is spelled with, in front of others. An increase of indentation is
not spelled. -/
inductive Spells (t : Token) : List Char → List Char → Prop
  | text {raw rest : List Char} (hk : t.kind = .text) (hv : Unquoted "" raw t.value) :
      Spells t ('"' :: raw ++ ['"']) rest
  | keyword {rest : List Char} (hk : t.kind = .keyword) (hv : IsWord t.value)
      (hrest : ∀ c ∈ rest.head?, isWordLetter c = false) : Spells t t.value.toList rest
  | separator {rest : List Char} (hk : t.kind = .separator) : Spells t [','] rest
  | lineEnd {rest : List Char} (hk : t.kind = .lineEnd) : Spells t ['\n'] rest

/-! ## Layout -/

/-- Tokens laid out from a position on over characters, as far as to where `stop` holds of the
position and the characters left. -/
inductive Laid (stop : Position → List Char → Prop) :
    Position → List Char → List Token → Prop
  | stop {p : Position} {cs : List Char} (h : stop p cs) : Laid stop p cs []
  /-- The line end of a last line without a line break. -/
  | lastEnd {p : Position} {t : Token} (h : stop p []) (hk : t.kind = .lineEnd)
      (hp : t.position = p) : Laid stop p [] [t]
  | blank {p : Position} {c : Char} {cs : List Char} {ts : List Token} (hc : c = ' ' ∨ c = '\t')
      (h : Laid stop (p.past c) cs ts) : Laid stop p (c :: cs) ts
  | lineBreak {p : Position} {cs : List Char} {ts : List Token}
      (h : Laid stop (p.past '\n') cs ts) : Laid stop p ('\n' :: cs) ts
  | comment {p : Position} {body cs : List Char} {ts : List Token} (hp : p.column = 1)
      (hbody : '\n' ∉ body) (hcs : ∀ c ∈ cs.head?, c = '\n')
      (h : Laid stop (p.pastAll ('#' :: body)) cs ts) : Laid stop p ('#' :: body ++ cs) ts
  /-- An increase of indentation stands in the first column of the line of the next token. -/
  | mark {p : Position} {cs : List Char} {t : Token} {ts : List Token} (hk : t.kind = .indent)
      (hp : t.position = ⟨p.line, 1⟩) (hnext : ∀ u ∈ ts.head?, u.position.line = p.line)
      (h : Laid stop p cs ts) : Laid stop p cs (t :: ts)
  | token {p : Position} {w cs : List Char} {t : Token} {ts : List Token} (hw : Spells t w cs)
      (hp : t.position = p) (h : Laid stop (p.pastAll w) cs ts) : Laid stop p (w ++ cs) (t :: ts)

/-- Characters stand at a position, counted from another one. -/
def StandsAt (p : Position) (cs : List Char) (q : Position) (w : List Char) : Prop :=
  ∃ front rest, cs = front ++ w ++ rest ∧ p.pastAll front = q

/-- A token stands where its position says: a text at its opening quote, a word where it is spelled,
a separator at its comma, a line end at its line break or behind the last character, and an increase
of indentation in the first column. -/
def Token.Located (p : Position) (cs : List Char) (t : Token) : Prop :=
  match t.kind with
  | .text => ∃ raw, Unquoted "" raw t.value ∧ StandsAt p cs t.position ('"' :: raw ++ ['"'])
  | .keyword => StandsAt p cs t.position t.value.toList
  | .separator => StandsAt p cs t.position [',']
  | .lineEnd => StandsAt p cs t.position ['\n'] ∨ t.position = p.pastAll cs
  | .indent => t.position.column = 1

section

variable {stop : Position → List Char → Prop} {p q : Position} {cs ds w : List Char} {c : Char}
  {t : Token} {ts : List Token}

theorem StandsAt.start (p : Position) (w rest : List Char) : StandsAt p (w ++ rest) p w :=
  ⟨[], rest, rfl, rfl⟩

theorem StandsAt.behind (h : StandsAt (p.pastAll ds) cs q w) : StandsAt p (ds ++ cs) q w := by
  obtain ⟨front, rest, rfl, rfl⟩ := h
  exact ⟨ds ++ front, rest, by simp, Position.pastAll_append p ds front⟩

/-- What is located behind characters is located with them in front. -/
theorem Token.Located.behind (ds : List Char) (h : t.Located (p.pastAll ds) cs) :
    t.Located p (ds ++ cs) := by
  unfold Token.Located at *
  cases hk : t.kind with
  | text =>
    rw [hk] at h
    obtain ⟨raw, hraw, hat⟩ := h
    exact ⟨raw, hraw, hat.behind⟩
  | keyword =>
    rw [hk] at h
    exact StandsAt.behind h
  | separator =>
    rw [hk] at h
    exact StandsAt.behind h
  | lineEnd =>
    rw [hk] at h
    rw [Position.pastAll_append]
    exact h.imp_left StandsAt.behind
  | indent =>
    rw [hk] at h
    exact h

/-- A token is located where it is spelled. -/
theorem Spells.located (h : Spells t w cs) (hp : t.position = p) : t.Located p (w ++ cs) := by
  unfold Token.Located
  cases h with
  | text hk hv =>
    rw [hk, hp]
    exact ⟨_, hv, .start _ _ _⟩
  | keyword hk =>
    rw [hk, hp]
    exact .start _ _ _
  | separator hk =>
    rw [hk, hp]
    exact .start _ _ _
  | lineEnd hk =>
    rw [hk, hp]
    exact .inl (.start _ _ _)

/-- Every token that is laid out stands where its position says. -/
theorem Laid.located (h : Laid stop p cs ts) : ∀ t ∈ ts, t.Located p cs := by
  induction h with
  | stop => exact nofun
  | lastEnd _ hk hp =>
    intro t ht
    rw [List.mem_singleton.mp ht]
    unfold Token.Located
    rw [hk]
    exact .inr hp
  | blank _ _ ih => exact fun t ht => (ih t ht).behind [_]
  | lineBreak _ ih => exact fun t ht => (ih t ht).behind ['\n']
  | comment _ _ _ _ ih => exact fun t ht => (ih t ht).behind _
  | mark hk hp _ _ ih =>
    intro t ht
    rcases List.mem_cons.mp ht with rfl | ht
    · unfold Token.Located
      rw [hk, hp]
    · exact ih t ht
  | token hw hp _ ih =>
    intro t ht
    rcases List.mem_cons.mp ht with rfl | ht
    · exact hw.located hp
    · exact (ih t ht).behind _

/-- Where the layout stops, the position counts the characters in front. -/
theorem Laid.stops (h : Laid stop p cs ts) :
    ∃ front rest, cs = front ++ rest ∧ stop (p.pastAll front) rest := by
  induction h with
  | @stop p cs h => exact ⟨[], cs, rfl, h⟩
  | lastEnd h => exact ⟨[], [], rfl, h⟩
  | @blank _ c _ _ _ _ ih =>
    obtain ⟨front, rest, rfl, hstop⟩ := ih
    exact ⟨c :: front, rest, rfl, hstop⟩
  | lineBreak _ ih =>
    obtain ⟨front, rest, rfl, hstop⟩ := ih
    exact ⟨'\n' :: front, rest, rfl, hstop⟩
  | @comment _ body _ _ _ _ _ _ ih =>
    obtain ⟨front, rest, rfl, hstop⟩ := ih
    refine ⟨'#' :: body ++ front, rest, by simp, ?_⟩
    rw [Position.pastAll_append]
    exact hstop
  | mark _ _ _ _ ih => exact ih
  | @token _ w _ _ _ _ _ _ ih =>
    obtain ⟨front, rest, rfl, hstop⟩ := ih
    refine ⟨w ++ front, rest, by simp, ?_⟩
    rw [Position.pastAll_append]
    exact hstop

/-- An increase of indentation stands in the first column of the line of the token behind it. -/
theorem Laid.marked (h : Laid stop p cs ts) {m : Token} {us : List Token} (hs : m :: us <:+ ts)
    (hm : m.kind = .indent) : ∀ u ∈ us.head?, m.position = ⟨u.position.line, 1⟩ := by
  induction h with
  | stop => exact absurd (List.suffix_nil.mp hs) (by simp)
  | lastEnd _ hk =>
    rcases List.suffix_cons_iff.mp hs with heq | hs
    · cases heq
      rw [hk] at hm
      cases hm
    · exact absurd (List.suffix_nil.mp hs) (by simp)
  | blank _ _ ih => exact ih hs
  | lineBreak _ ih => exact ih hs
  | comment _ _ _ _ ih => exact ih hs
  | mark _ hp hnext _ ih =>
    rcases List.suffix_cons_iff.mp hs with heq | hs
    · cases heq
      intro u hu
      rw [hp, hnext u hu]
    · exact ih hs
  | token hw _ _ ih =>
    rcases List.suffix_cons_iff.mp hs with heq | hs
    · cases heq
      cases hw <;> simp_all
    · exact ih hs

/-- A character that stands for itself begins the next token, or that of an increase of indentation
on its line. -/
theorem Laid.head_line (h : Laid stop p (c :: cs) ts)
    (hc : ¬ (c = ' ' ∨ c = '\t') ∧ c ≠ '#') (hbreak : c ≠ '\n') :
    ∀ u ∈ ts.head?, u.position.line = p.line := by
  generalize hds : c :: cs = ds at h
  cases h with
  | stop => exact nofun
  | lastEnd => cases hds
  | blank hblank =>
    cases hds
    exact absurd hblank hc.1
  | lineBreak =>
    cases hds
    exact absurd rfl hbreak
  | comment =>
    cases hds
    exact absurd rfl hc.2
  | mark _ hp =>
    rintro u ⟨⟩
    rw [hp]
  | token _ hp =>
    rintro u ⟨⟩
    rw [hp]

end

/-! ## Errors -/

/-- What an error says about the characters at a position, where the last token that was completed
ends: a character behind a part of a word that cannot stand there, a text with an escape that stands
for nothing, or a text that is not closed. -/
inductive BreaksOff (p : Position) : LexicalError → List Char → Prop
  | unexpectedCharacter {word rest : List Char} {c : Char}
      (hword : ∀ d ∈ word, isWordLetter d = true) (hletter : isWordLetter c = false)
      (hc : ¬ (c = ' ' ∨ c = '\t' ∨ c = '\n' ∨ c = ',' ∨ c = '"')) :
      BreaksOff p (.unexpectedCharacter c (p.pastAll word)) (word ++ c :: rest)
  | invalidEscape {raw rest : List Char} {value : String} {c : Char}
      (hraw : Unquoted "" raw value) (hc : unescape? c = none) :
      BreaksOff p (.invalidEscape c value (p.pastAll ('"' :: raw ++ ['\\'])))
        ('"' :: raw ++ '\\' :: c :: rest)
  | unterminatedText {raw : List Char} {value : String} (hraw : Unquoted "" raw value) :
      BreaksOff p (.unterminatedText value p) ('"' :: raw)
  /-- The source ends behind a backslash. -/
  | unfinishedEscape {raw : List Char} {value : String} (hraw : Unquoted "" raw value) :
      BreaksOff p (.unterminatedText value p) ('"' :: raw ++ ['\\'])

/-- An error stands where its position says: at the character that is not expected, at the character
behind the backslash, or at the opening quote of the text. -/
def LexicalError.Located (p : Position) (cs : List Char) : LexicalError → Prop
  | unexpectedCharacter c q => StandsAt p cs q [c]
  | invalidEscape c value q =>
      StandsAt p cs q [c] ∧ ∃ opening raw, Unquoted "" raw value
        ∧ StandsAt p cs opening ('"' :: raw ++ ['\\', c])
        ∧ q = opening.pastAll ('"' :: raw ++ ['\\'])
  | unterminatedText value q =>
      ∃ front raw, Unquoted "" raw value ∧ p.pastAll front = q
        ∧ (cs = front ++ '"' :: raw ∨ cs = front ++ '"' :: raw ++ ['\\'])

/-- The error at which a layout breaks off stands where its position says. -/
theorem Laid.located_error {p : Position} {cs : List Char} {e : LexicalError} {ts : List Token}
    (h : Laid (fun q rest => BreaksOff q e rest) p cs ts) : e.Located p cs := by
  obtain ⟨front, rest, rfl, hbreaks⟩ := h.stops
  cases hbreaks with
  | @unexpectedCharacter word rest c =>
    exact ⟨front ++ word, rest, by simp, Position.pastAll_append p front word⟩
  | @invalidEscape raw rest value c hraw =>
    refine ⟨⟨front ++ '"' :: raw ++ ['\\'], rest, by simp, ?_⟩, p.pastAll front, raw, hraw, ?_, rfl⟩
    · rw [List.append_assoc, Position.pastAll_append]
    · exact ⟨front, rest, by simp, rfl⟩
  | @unterminatedText raw value hraw => exact ⟨front, raw, hraw, rfl, .inl rfl⟩
  | @unfinishedEscape raw value hraw => exact ⟨front, raw, hraw, rfl, .inr (by simp)⟩

/-- What comes of characters from a position on: tokens that are laid out over all of them, or an
error at which the layout of some breaks off. -/
def Lays (p : Position) (cs : List Char) : Except LexicalError (List Token) → Prop
  | .ok ts => Laid (fun _ rest => rest = []) p cs ts
  | .error e => ∃ ts, Laid (fun q rest => BreaksOff q e rest) p cs ts

/-! ## The lexer -/

namespace Lexer

/-- The position of the next character. -/
def here (l : Lexer) : Position := ⟨l.line, l.column + 1⟩

/-- The characters, from a position on, that were read and belong to no token yet. -/
inductive Pending (l : Lexer) : Position → List Char → Prop
  | none (hm : l.mode = .lineStart ∨ l.mode = .between) : Pending l l.here []
  | comment {body : List Char} (hm : l.mode = .comment) (hbody : '\n' ∉ body)
      (hp : Position.pastAll ⟨l.line, 1⟩ ('#' :: body) = l.here) :
      Pending l ⟨l.line, 1⟩ ('#' :: body)
  | word (hm : l.mode = .keyword) (hv : IsWord l.buffer)
      (hp : l.start.pastAll l.buffer.toList = l.here) : Pending l l.start l.buffer.toList
  | text {raw : List Char} (hm : l.mode = .text) (hv : Unquoted "" raw l.buffer)
      (hp : l.start.pastAll ('"' :: raw) = l.here) : Pending l l.start ('"' :: raw)
  | escape {raw : List Char} (hm : l.mode = .escape) (hv : Unquoted "" raw l.buffer)
      (hp : l.start.pastAll ('"' :: raw ++ ['\\']) = l.here) :
      Pending l l.start ('"' :: raw ++ ['\\'])

/-- A step lays out its tokens over characters: over those that were pending and the one that was
read, as far as they are not pending afterwards. An error breaks a layout off at them all. -/
structure Step.Covers (p : Position) (w : List Char) (s : Step) : Prop where
  tokens : s.error = none → ∃ q v, s.lexer.Pending q v
    ∧ ∀ stop cs ts, Laid stop q (v ++ cs) ts → Laid stop p (w ++ cs) (s.tokens ++ ts)
  error : ∀ e, s.error = some e → ∀ cs, BreaksOff p e (w ++ cs)

variable {l : Lexer} {c : Char} {p : Position}

/-- Only a line break ends a line. -/
theorem past_eq_here (h : c ≠ '\n') : Position.past ⟨l.line, l.column⟩ c = l.here :=
  Position.past_of_ne h

/-- A separator, a quote, a line break and a blank may stand behind a word. -/
theorem error_stepBetween (h : c = ' ' ∨ c = '\t' ∨ c = '\n' ∨ c = ',' ∨ c = '"') :
    (l.stepBetween c p).error = none := by
  rcases h with rfl | rfl | rfl | rfl | rfl <;> rfl

theorem covers_stepBetween (hm : l.mode = .between) :
    (l.stepBetween c ⟨l.line, l.column⟩).Covers ⟨l.line, l.column⟩ [c] := by
  unfold stepBetween
  split_ifs with hblank hbreak hcomma hquote hletter
  · have hne : c ≠ '\n' := by
      rintro rfl
      simp at hblank
    refine ⟨fun _ => ⟨_, [], .none (.inr hm), ?_⟩, nofun⟩
    intro stop cs ts h
    apply Laid.blank hblank
    rw [past_eq_here hne]
    exact h
  · subst hbreak
    refine ⟨fun _ => ⟨_, [], .none (.inl rfl), ?_⟩, nofun⟩
    intro stop cs ts h
    exact .token (.lineEnd rfl) rfl h
  · subst hcomma
    refine ⟨fun _ => ⟨_, [], .none (.inr hm), ?_⟩, nofun⟩
    intro stop cs ts h
    exact .token (.separator rfl) rfl h
  · subst hquote
    exact ⟨fun _ => ⟨_, _, .text rfl (.nil "") rfl, fun stop cs ts h => h⟩, nofun⟩
  · have hsingle : (String.singleton c).toList = [c] := String.toList_singleton c
    refine ⟨fun _ => ⟨_, _, .word rfl (isWord_singleton hletter) ?_, ?_⟩, nofun⟩
    · dsimp only
      rw [hsingle]
      exact past_eq_here hbreak
    · intro stop cs ts h
      dsimp only at h
      rw [hsingle] at h
      exact h
  · refine ⟨nofun, ?_⟩
    rintro e ⟨⟩ cs
    exact @BreaksOff.unexpectedCharacter _ [] _ _ nofun (by simpa using hletter) (by tauto)

theorem covers_stepLineStart (hm : l.mode = .lineStart) :
    (l.stepLineStart c ⟨l.line, l.column⟩).Covers ⟨l.line, l.column⟩ [c] := by
  have hcounted (hc : c = ' ' ∨ c = '\t') (tabs spaces : Nat) :
      Step.Covers ⟨l.line, l.column⟩ [c]
        { lexer := { l with tabs := tabs, spaces := spaces } } := by
    have hne : c ≠ '\n' := by
      rintro rfl
      simp at hc
    refine ⟨fun _ => ⟨_, [], .none (.inl hm), ?_⟩, nofun⟩
    intro stop cs ts h
    apply Laid.blank hc
    rw [past_eq_here hne]
    exact h
  unfold stepLineStart
  dsimp only
  split_ifs with htab hspace hbreak hcomment hdeeper
  · exact hcounted (.inr htab) _ _
  · exact hcounted (.inl hspace) _ _
  · subst hbreak
    exact ⟨fun _ => ⟨_, [], .none (.inl rfl), fun stop cs ts h => .lineBreak h⟩, nofun⟩
  · obtain ⟨rfl, hcolumn⟩ := hcomment
    have hfirst : (⟨l.line, l.column⟩ : Position) = ⟨l.line, 1⟩ := by rw [hcolumn]
    rw [hfirst]
    have hpending : Pending { l with mode := .comment } ⟨l.line, 1⟩ ['#'] := by
      apply Pending.comment rfl (by simp)
      unfold here
      dsimp only
      rw [hcolumn]
      rfl
    exact ⟨fun _ => ⟨_, _, hpending, fun stop cs ts h => h⟩, nofun⟩
  · -- what follows the mark is laid out as without it, and begins at the character
    generalize hl : { l with
      mode := .between, depth := l.measuredDepth, previousDepth := l.measuredDepth
      lineHasTokens := true : Lexer } = l'
    have hcovers := covers_stepBetween (c := c) (l := l') (by rw [← hl])
    have hposition : (⟨l'.line, l'.column⟩ : Position) = ⟨l.line, l.column⟩ := by rw [← hl]
    rw [hposition] at hcovers
    refine ⟨?_, hcovers.error⟩
    intro he
    obtain ⟨q, v, hpending, htokens⟩ := hcovers.tokens he
    refine ⟨q, v, hpending, ?_⟩
    intro stop cs ts h
    have hhash : c ≠ '#' := by
      rintro rfl
      cases he
    have hlaid := htokens stop cs ts h
    exact .mark rfl rfl (hlaid.head_line ⟨by tauto, hhash⟩ hbreak) hlaid
  · exact covers_stepBetween (l := { l with
      mode := .between, depth := l.measuredDepth, previousDepth := l.measuredDepth }) rfl

theorem covers_stepKeyword (hm : l.mode = .keyword) (hv : IsWord l.buffer)
    (hp : l.start.pastAll l.buffer.toList = ⟨l.line, l.column⟩) :
    (l.stepKeyword c ⟨l.line, l.column⟩).Covers l.start (l.buffer.toList ++ [c]) := by
  unfold stepKeyword
  split_ifs with hletter hend
  · have hne : c ≠ '\n' := by
      rintro rfl
      cases hletter
    have hpush : (l.buffer.push c).toList = l.buffer.toList ++ [c] := String.toList_push c
    refine ⟨fun _ => ⟨_, _, .word hm (hv.push hletter) ?_, ?_⟩, nofun⟩
    · dsimp only
      rw [hpush, Position.pastAll_append, hp]
      exact past_eq_here hne
    · intro stop cs ts h
      dsimp only at h
      rw [hpush] at h
      exact h
  · have hcovers := covers_stepBetween (c := c) (l := l.closeWord) rfl
    have hnone : (l.closeWord.stepBetween c ⟨l.line, l.column⟩).error = none :=
      error_stepBetween hend
    refine ⟨?_, ?_⟩
    · intro he
      obtain ⟨q, v, hpending, htokens⟩ := hcovers.tokens he
      refine ⟨q, v, hpending, ?_⟩
      intro stop cs ts h
      have hspells : Spells l.word l.buffer.toList (c :: cs) := by
        apply Spells.keyword rfl hv
        rintro d ⟨⟩
        exact Bool.eq_false_iff.mpr hletter
      have hlaid := htokens stop cs ts h
      rw [List.append_assoc]
      apply Laid.token hspells rfl
      show Laid stop (l.start.pastAll l.buffer.toList) (c :: cs) _
      rw [hp]
      exact hlaid
    · intro e he
      unfold Step.after at he
      rw [hnone] at he
      cases he
  · refine ⟨nofun, ?_⟩
    rintro e ⟨⟩ cs
    rw [← hp, List.append_assoc]
    apply BreaksOff.unexpectedCharacter
    · exact fun d hd => isWordLetter_iff.mpr (hv.2 d hd)
    · exact Bool.eq_false_iff.mpr hletter
    · exact hend

theorem covers_stepText {raw : List Char} (hm : l.mode = .text) (hv : Unquoted "" raw l.buffer)
    (hp : l.start.pastAll ('"' :: raw) = ⟨l.line, l.column⟩) :
    (l.stepText c).Covers l.start ('"' :: raw ++ [c]) := by
  have hbehind : l.start.pastAll ('"' :: raw ++ [c]) = Position.past ⟨l.line, l.column⟩ c := by
    rw [Position.pastAll_append, hp]
    rfl
  unfold stepText
  split_ifs with hquote hescape hbreak hspace
  · subst hquote
    refine ⟨fun _ => ⟨_, [], .none (.inr rfl), ?_⟩, nofun⟩
    intro stop cs ts h
    refine Laid.token (t := l.token .text l.buffer l.start) (.text rfl hv) rfl ?_
    show Laid stop (l.start.pastAll ('"' :: raw ++ ['"'])) cs ts
    rw [hbehind]
    exact h
  · subst hescape
    exact ⟨fun _ => ⟨_, _, .escape rfl hv hbehind, fun stop cs ts h => h⟩, nofun⟩
  · subst hbreak
    have hvalue : Unquoted "" (raw ++ ['\n']) l.buffer := by
      apply hv.append
      apply Unquoted.lineBreak
      rw [if_pos hspace]
      exact .nil _
    exact ⟨fun _ => ⟨_, _, .text hm hvalue hbehind, fun stop cs ts h => h⟩, nofun⟩
  · subst hbreak
    have hvalue : Unquoted "" (raw ++ ['\n']) (l.buffer.push ' ') := by
      apply hv.append
      apply Unquoted.lineBreak
      rw [if_neg hspace]
      exact .nil _
    exact ⟨fun _ => ⟨_, _, .text hm hvalue hbehind, fun stop cs ts h => h⟩, nofun⟩
  · have hvalue : Unquoted "" (raw ++ [c]) (l.buffer.push c) :=
      hv.append (.char hquote hescape hbreak (.nil _))
    rw [past_eq_here hbreak] at hbehind
    exact ⟨fun _ => ⟨_, _, .text hm hvalue hbehind, fun stop cs ts h => h⟩, nofun⟩

theorem covers_stepEscape {raw : List Char} (hv : Unquoted "" raw l.buffer)
    (hp : l.start.pastAll ('"' :: raw ++ ['\\']) = ⟨l.line, l.column⟩) :
    (l.stepEscape c ⟨l.line, l.column⟩).Covers l.start ('"' :: raw ++ ['\\'] ++ [c]) := by
  unfold stepEscape
  cases hu : unescape? c with
  | none =>
    refine ⟨nofun, ?_⟩
    rintro e ⟨⟩ cs
    rw [← hp, List.append_assoc, List.append_assoc]
    exact .invalidEscape hv hu
  | some d =>
    have hne : c ≠ '\n' := by
      rintro rfl
      cases hu
    have hvalue : Unquoted "" (raw ++ ['\\', c]) (l.buffer.push d) :=
      hv.append (.escape hu (.nil _))
    have hbehind : l.start.pastAll ('"' :: (raw ++ ['\\', c])) = l.here := by
      rw [← past_eq_here hne, ← hp, ← List.cons_append, Position.pastAll_append,
        Position.pastAll_append]
      rfl
    refine ⟨fun _ => ⟨_, _, .text rfl hvalue hbehind, ?_⟩, nofun⟩
    intro stop cs ts h
    simpa using h

/-- One character lays out the tokens that it completes over the characters that were pending. -/
theorem covers_step {w : List Char} (h : l.Pending p w) :
    (l.step c).Covers p (w ++ visible [c]) := by
  unfold step
  by_cases hc : c = '\r'
  · subst hc
    rw [if_pos rfl, visible_cons_return]
    refine ⟨fun _ => ⟨p, w, h, ?_⟩, nofun⟩
    intro stop cs ts hlaid
    rwa [show visible [] = [] from rfl, List.append_nil]
  rw [if_neg hc, visible_cons hc, show visible [] = [] from rfl]
  dsimp only
  generalize hl : { l with column := l.column + 1 } = l'
  cases h with
  | none hm =>
    rcases hm with hm | hm
    · rw [hm]
      subst hl
      exact covers_stepLineStart (l := { l with column := l.column + 1 }) hm
    · rw [hm]
      subst hl
      exact covers_stepBetween (l := { l with column := l.column + 1 }) hm
  | @comment body hm hbody hp =>
    rw [hm]
    dsimp only
    split_ifs with hbreak
    · subst hbreak hl
      refine ⟨fun _ => ⟨_, [], .none (.inl rfl), ?_⟩, nofun⟩
      intro stop cs ts hlaid
      rw [List.append_assoc]
      apply Laid.comment rfl hbody
      · rintro d ⟨⟩
        rfl
      · rw [hp]
        exact .lineBreak hlaid
    · have hbody' : '\n' ∉ body ++ [c] := by
        rw [List.mem_append, List.mem_singleton]
        rintro (hmem | rfl)
        · exact hbody hmem
        · exact hbreak rfl
      subst hl
      have hbehind : Position.pastAll ⟨l.line, 1⟩ ('#' :: (body ++ [c]))
          = here { l with column := l.column + 1 } := by
        rw [← List.cons_append, Position.pastAll_append, hp]
        exact past_eq_here (l := { l with column := l.column + 1 }) hbreak
      exact ⟨fun _ => ⟨_, _, .comment hm hbody' hbehind, fun stop cs ts hlaid => hlaid⟩, nofun⟩
  | word hm hv hp =>
    rw [hm]
    subst hl
    exact covers_stepKeyword (l := { l with column := l.column + 1 }) hm hv hp
  | text hm hv hp =>
    rw [hm]
    subst hl
    exact covers_stepText (l := { l with column := l.column + 1 }) hm hv hp
  | escape hm hv hp =>
    rw [hm]
    subst hl
    exact covers_stepEscape (l := { l with column := l.column + 1 }) hv hp

/-- At the end of a source, a line end is laid out behind the last character. -/
theorem laid_closeLine (l : Lexer) :
    Laid (fun _ rest => rest = []) l.here [] l.closeLine.tokens := by
  unfold closeLine
  split_ifs
  · exact .lastEnd rfl rfl rfl
  · exact .stop rfl

theorem laid_finish {w : List Char} (h : l.Pending p w) (he : l.finish.error = none) :
    Laid (fun _ rest => rest = []) p w l.finish.tokens := by
  unfold finish at *
  cases h with
  | none hm =>
    rcases hm with hm | hm
    · rw [hm]
      exact laid_closeLine l
    · rw [hm]
      exact laid_closeLine l
  | @comment body hm hbody hp =>
    rw [hm, ← List.append_nil ('#' :: body)]
    apply Laid.comment rfl hbody (by simp)
    rw [hp]
    exact laid_closeLine l
  | word hm hv hp =>
    have hspells : Spells l.word l.buffer.toList [] := .keyword rfl hv nofun
    rw [hm, ← List.append_nil l.buffer.toList]
    apply Laid.token hspells rfl
    show Laid _ (l.start.pastAll l.buffer.toList) [] _
    rw [hp]
    exact laid_closeLine l.closeWord
  | text hm =>
    rw [hm] at he
    cases he
  | escape hm =>
    rw [hm] at he
    cases he

theorem breaksOff_finish {w : List Char} {e : LexicalError} (h : l.Pending p w)
    (he : l.finish.error = some e) : BreaksOff p e w := by
  have hclose : ∀ l : Lexer, l.closeLine.error = none := by
    intro l
    unfold closeLine
    split_ifs <;> rfl
  unfold finish at he
  cases h with
  | none hm => rcases hm with hm | hm <;> simp [hm, hclose] at he
  | comment hm => simp [hm, hclose] at he
  | word hm => simp [hm, Step.after, hclose] at he
  | text hm hv =>
    rw [hm] at he
    cases he
    exact .unterminatedText hv
  | escape hm hv =>
    rw [hm] at he
    cases he
    exact .unfinishedEscape hv

/-- Reading on lays tokens out over what is pending and the rest of the source. -/
theorem lays_read {w : List Char} (h : l.Pending p w) (cs : List Char) :
    Lays p (w ++ visible cs) (l.read cs) := by
  induction cs generalizing l p w with
  | nil =>
    rw [show visible [] = [] from rfl, List.append_nil]
    unfold read
    dsimp only
    split
    next e he => exact ⟨[], .stop (breaksOff_finish h he)⟩
    next he => exact laid_finish h he
  | cons c cs ih =>
    have hcovers := covers_step (c := c) h
    have hcons : visible (c :: cs) = visible [c] ++ visible cs := List.filter_append [c] cs
    rw [hcons, ← List.append_assoc]
    unfold read
    dsimp only
    split
    next e he => exact ⟨[], .stop (hcovers.error e he (visible cs))⟩
    next he =>
      obtain ⟨q, v, hpending, htokens⟩ := hcovers.tokens he
      have hrest := ih hpending
      cases hr : (l.step c).lexer.read cs with
      | error e =>
        rw [hr] at hrest
        obtain ⟨ts, hts⟩ := hrest
        exact ⟨_, htokens _ _ ts hts⟩
      | ok ts =>
        rw [hr] at hrest
        exact htokens _ _ ts hrest

end Lexer

/-! ## A whole source -/

/-- Tokens that stand in a source where they say: they are laid out over its characters, each is
located there, and none stands behind a later one. -/
structure Positioned (cs : List Char) (ts : List Token) : Prop where
  laid : Laid (fun _ rest => rest = []) ⟨1, 1⟩ cs ts
  located : ∀ t ∈ ts, t.Located ⟨1, 1⟩ cs
  /-- An increase of indentation stands in the first column of the line of the token behind it. -/
  marked : ∀ m us, m :: us <:+ ts → m.kind = .indent →
    ∃ u ∈ us.head?, m.position = ⟨u.position.line, 1⟩
  ascending : ts.Pairwise fun t u => t.position.Before u.position

/-- What comes of a source stands where it says: its tokens, or its first error, at which the layout
of the tokens in front breaks off. -/
def Faithful (cs : List Char) : Except LexicalError (List Token) → Prop
  | .ok ts => Positioned cs ts
  | .error e => e.Located ⟨1, 1⟩ cs ∧ ∃ ts, Laid (fun q rest => BreaksOff q e rest) ⟨1, 1⟩ cs ts

/-- The tokens of a source that can be read are where their positions say, and so is the error of a
source that cannot. -/
theorem tokenize_faithful (source : String) :
    Faithful (visible source.toList) (tokenize source) := by
  have hlays : Lays ⟨1, 1⟩ (visible source.toList) (tokenize source) :=
    Lexer.lays_read (l := {}) (.none (.inl rfl)) source.toList
  cases h : tokenize source with
  | error e =>
    rw [h] at hlays
    obtain ⟨ts, hlaid⟩ := hlays
    exact ⟨hlaid.located_error, ts, hlaid⟩
  | ok ts =>
    rw [h] at hlays
    obtain ⟨q, hascending⟩ := ascending_tokenize h
    refine ⟨hlays, hlays.located, ?_, hascending.pairwise⟩
    intro m us hs hm
    have hindent : m.isIndent = true := by
      unfold Token.isIndent
      rw [hm]
      rfl
    obtain ⟨-, u, hu, -⟩ := (fits_tokenize h).indented m us hs hindent
    exact ⟨u, hu, hlays.marked hs hm u hu⟩

/-- A text over two lines: the comma behind it has its column on the second line, where the carriage
return does not count. -/
example : tokenize "\"on\r\norder\" ," = .ok [⟨.text, "on order", ⟨1, 1⟩, 0⟩,
    ⟨.separator, ",", ⟨2, 8⟩, 0⟩, ⟨.lineEnd, "", ⟨2, 9⟩, 0⟩] := by decide +kernel

end Manuscript
