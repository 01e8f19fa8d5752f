import Mathlib.Data.List.Basic
import Manuscript.Token.Window

/-!
# Token streams

What a source still has to give does not depend on how far it was read. A `TokenStream` lists the
tokens up to the end of the source or up to its first error, and every window has one.

* `fill_ok` and `fill_error`: reading on leaves the stream of a window as it is, and reports an
  error only if the stream has no token in front of the error left to show.
* `peek_eq` and `next_eq`: what a window shows and hands out is told by its stream alone.
* `read_eq`: the tokens of a source that is read at once are those of its stream.
-/

namespace Manuscript

/-- The tokens that a source still has to give, and the error that cuts them off. -/
structure TokenStream where
  tokens : List Token
  error : Option LexicalError

namespace TokenStream

/-- The stream behind tokens that come first. -/
def after (ts : List Token) (s : TokenStream) : TokenStream := ⟨ts ++ s.tokens, s.error⟩

/-- The stream behind its first token. -/
def tail (s : TokenStream) : TokenStream := ⟨s.tokens.tail, s.error⟩

/-- The token `offset` places ahead, or the error that stands in its place. -/
def peek (s : TokenStream) (offset : Nat) : Except LexicalError (Option Token) :=
  match s.tokens[offset]?, s.error with
  | some t, _ => .ok (some t)
  | none, some e => .error e
  | none, none => .ok none

theorem after_after (ts us : List Token) (s : TokenStream) :
    (s.after us).after ts = s.after (ts ++ us) := by
  unfold after
  rw [List.append_assoc]

/-- A token that is among the first ones is shown, whatever stands behind them. -/
theorem peek_after {ts : List Token} (s : TokenStream) {n : Nat} (h : n < ts.length) :
    (s.after ts).peek n = .ok ts[n]? := by
  unfold peek after
  rw [List.getElem?_append_left h, List.getElem?_eq_getElem h]

/-- A stream without an error shows its tokens. -/
theorem peek_complete (ts : List Token) (n : Nat) : peek ⟨ts, none⟩ n = .ok ts[n]? := by
  unfold peek
  cases h : ts[n]? <;> rfl

/-- The error is shown in place of a token behind the last one. -/
theorem peek_of_error {s : TokenStream} {e : LexicalError} (he : s.error = some e) {n : Nat}
    (h : s.tokens.length ≤ n) : s.peek n = .error e := by
  unfold peek
  rw [List.getElem?_eq_none h, he]

/-- What is shown as an error is the error of the stream. -/
theorem error_of_peek {s : TokenStream} {n : Nat} {e : LexicalError} (h : s.peek n = .error e) :
    s.error = some e := by
  unfold peek at h
  cases ht : s.tokens[n]? <;> cases hs : s.error <;> simp_all

/-- Nothing is shown only where the source is at its end. -/
theorem complete_of_peek {s : TokenStream} {n : Nat} (h : s.peek n = .ok none) :
    s.error = none := by
  unfold peek at h
  cases ht : s.tokens[n]? <;> cases hs : s.error <;> simp_all

/-- The token shown next is the first of the stream. -/
theorem tokens_of_peek {s : TokenStream} {t : Token} (h : s.peek 0 = .ok (some t)) :
    s.tokens = t :: s.tail.tokens := by
  unfold peek at h
  unfold tail
  cases hs : s.tokens with
  | nil => cases he : s.error <;> simp [hs, he] at h
  | cons u us => simp_all

end TokenStream

/-! ## Streams of scanners and windows -/

namespace Scanner

/-- The stream of a scanner and the rest of its source. Tokens that wait when an error is found are
never taken. -/
def stream (s : Scanner) : List Char → TokenStream
  | [] =>
    match s.finish with
    | (_, some e) => ⟨[], some e⟩
    | (s, none) => ⟨s.ready, none⟩
  | c :: rest =>
    match s.feed c with
    | (_, some e) => ⟨[], some e⟩
    | (s, none) => (stream s.drained rest).after s.ready

end Scanner

/-- Reading a source at once gives the tokens of its stream, or its error. -/
theorem Lexer.read_eq (l : Lexer) (cs : List Char) :
    l.read cs = match Scanner.stream ⟨l, []⟩ cs with
      | ⟨_, some e⟩ => .error e
      | ⟨ts, none⟩ => .ok ts := by
  induction cs generalizing l with
  | nil =>
    unfold Lexer.read Scanner.stream Scanner.finish Scanner.afterStep
    cases h : l.finish.error <;> simp [h]
  | cons c rest ih =>
    unfold Lexer.read Scanner.stream Scanner.feed Scanner.afterStep
    cases h : (l.step c).error with
    | some e => simp [h]
    | none =>
      simp only [h, ih, Scanner.drained, TokenStream.after, List.nil_append]
      cases Scanner.stream ⟨(l.step c).lexer, []⟩ rest with
      | mk ts e => cases e <;> rfl

namespace TokenWindow

/-- The stream of a window. Its waiting tokens come first. -/
def stream (w : TokenWindow) : TokenStream :=
  (if w.exhausted then ⟨[], none⟩ else w.scanner.stream w.rest).after w.queue

/-- The stream of a window over tokens that are already there. -/
theorem stream_ofTokens (ts : List Token) : (ofTokens ts).stream = ⟨ts, none⟩ := by
  unfold stream ofTokens TokenStream.after
  simp

/-- The stream of a window at the start of a source. -/
theorem stream_ofSource (source : String) :
    (ofSource source).stream = Scanner.stream {} source.toList := rfl

/-! ## Reading on -/

/-- Reading from `cs` stops at an error only if there are too few tokens in front of it, and leaves
the stream as it is otherwise. -/
theorem fillFrom_stream (wanted : Nat) (scanner : Scanner) (queue : List Token) (cs : List Char) :
    match fillFrom wanted scanner queue cs with
    | (some e, _) =>
      (scanner.stream cs).error = some e
        ∧ queue.length + (scanner.stream cs).tokens.length < wanted
    | (none, w) =>
      w.stream = (scanner.stream cs).after queue
        ∧ (wanted ≤ w.queue.length ∨ w.exhausted = true) := by
  -- filling moves tokens from the scanner to the queue; the two together stay the same
  induction cs generalizing scanner queue with
  | nil =>
    unfold fillFrom
    by_cases hq : wanted ≤ queue.length
    · rw [if_pos hq]
      exact ⟨rfl, .inl hq⟩
    · rw [if_neg hq]
      rcases h : scanner.finish with ⟨s, _ | e⟩
      · refine ⟨?_, .inr rfl⟩
        simp [stream, Scanner.stream, h, TokenStream.after]
      · simp only [Scanner.stream, h, List.length_nil, Nat.add_zero, true_and]
        omega
  | cons c rest ih =>
    unfold fillFrom
    by_cases hq : wanted ≤ queue.length
    · rw [if_pos hq]
      exact ⟨rfl, .inl hq⟩
    · rw [if_neg hq]
      rcases h : scanner.feed c with ⟨s, _ | e⟩
      · have hs : scanner.stream (c :: rest) = (s.drained.stream rest).after s.ready := by
          simp [Scanner.stream, h]
        have hrest := ih s.drained (queue ++ s.ready)
        simp only [hs]
        rcases hf : fillFrom wanted s.drained (queue ++ s.ready) rest with ⟨_ | e, w⟩
        · rw [hf] at hrest
          rw [TokenStream.after_after]
          exact hrest
        · rw [hf] at hrest
          refine ⟨hrest.1, ?_⟩
          have hlen := hrest.2
          unfold TokenStream.after
          rw [List.length_append] at hlen ⊢
          omega
      · simp only [Scanner.stream, h, List.length_nil, Nat.add_zero, true_and]
        omega

/-- Reading on leaves the stream as it is, and goes on until enough tokens wait or the source is at
its end. -/
theorem fill_ok {w w' : TokenWindow} {n : Nat} (h : w.fill n = (none, w')) :
    w'.stream = w.stream ∧ (n ≤ w'.queue.length ∨ w'.exhausted = true) := by
  unfold fill at h
  by_cases hx : w.exhausted = true
  · rw [if_pos hx] at h
    cases h
    exact ⟨rfl, .inr hx⟩
  · rw [if_neg hx] at h
    have hf := fillFrom_stream n w.scanner w.queue w.rest
    rw [h] at hf
    refine ⟨?_, hf.2⟩
    rw [hf.1, stream, if_neg hx]

/-- Reading on reports the error of the stream, and only if too few tokens stand in front of it. -/
theorem fill_error {w w' : TokenWindow} {n : Nat} {e : LexicalError} (h : w.fill n = (some e, w')) :
    w.stream.error = some e ∧ w.stream.tokens.length < n := by
  unfold fill at h
  by_cases hx : w.exhausted = true
  · rw [if_pos hx] at h
    cases h
  · rw [if_neg hx] at h
    have hf := fillFrom_stream n w.scanner w.queue w.rest
    rw [h] at hf
    unfold stream TokenStream.after
    rw [if_neg hx, List.length_append]
    exact hf

/-- A waiting token is the one that the stream shows in its place. -/
theorem queue_getElem?_of_fill {w w' : TokenWindow} {n : Nat} (h : w.fill (n + 1) = (none, w')) :
    w.stream.peek n = .ok w'.queue[n]? := by
  obtain ⟨hs, hq | hx⟩ := fill_ok h
  · rw [← hs, stream, TokenStream.peek_after _ hq]
  · rw [← hs, stream, if_pos hx]
    unfold TokenStream.after
    rw [List.append_nil, TokenStream.peek_complete]

/-- What a window shows is told by its stream, which stays as it is. -/
theorem peek_eq (w : TokenWindow) (n : Nat) :
    ∃ w', w.peek n = (w.stream.peek n, w')
      ∧ ((∃ t, w.stream.peek n = .ok t) → w'.stream = w.stream) := by
  unfold peek
  rcases h : w.fill (n + 1) with ⟨_ | e, w'⟩
  · refine ⟨w', ?_, fun _ => (fill_ok h).1⟩
    rw [queue_getElem?_of_fill h]
  · obtain ⟨he, hn⟩ := fill_error h
    have hp := TokenStream.peek_of_error he (show w.stream.tokens.length ≤ n by omega)
    refine ⟨w', by rw [hp], ?_⟩
    rintro ⟨t, ht⟩
    rw [hp] at ht
    cases ht

/-- What a window hands out is the first token of its stream, which goes on behind it. -/
theorem next_eq (w : TokenWindow) :
    ∃ w', w.next = (w.stream.peek 0, w')
      ∧ ((∃ t, w.stream.peek 0 = .ok t) → w'.stream = w.stream.tail) := by
  unfold next
  rcases h : w.fill 1 with ⟨_ | e, w'⟩
  · have hp := queue_getElem?_of_fill h
    have hs := (fill_ok h).1
    cases hq : w'.queue with
    | nil =>
      refine ⟨w', by simp [hp, hq], fun _ => ?_⟩
      -- an empty queue means that the source is at its end
      have hx : w'.exhausted = true := by
        have hfilled := (fill_ok h).2
        rw [hq] at hfilled
        simpa using hfilled
      rw [← hs, stream, if_pos hx, hq]
      rfl
    | cons t rest =>
      refine ⟨{ w' with queue := rest }, by simp [hp, hq], fun _ => ?_⟩
      rw [← hs]
      simp [stream, hq, TokenStream.after, TokenStream.tail]
  · obtain ⟨he, hn⟩ := fill_error h
    have hp := TokenStream.peek_of_error he (show w.stream.tokens.length ≤ 0 by omega)
    refine ⟨w', by rw [hp], ?_⟩
    rintro ⟨t, ht⟩
    rw [hp] at ht
    cases ht

end TokenWindow

/-! ## How many tokens are left -/

namespace Lexer

/-- Between tokens, a character completes one token at most. -/
theorem stepBetween_length (l : Lexer) (c : Char) (p : Position) :
    (l.stepBetween c p).tokens.length ≤ 1 := by
  unfold stepBetween
  split_ifs <;> simp

/-- The tokens of a step behind one that was completed before it. -/
theorem Step.length_after (t : Token) (s : Step) (h : s.tokens.length ≤ 1) :
    (s.after [t]).tokens.length ≤ 2 := by
  unfold Step.after
  rw [List.length_append]
  simp only [List.length_cons, List.length_nil]
  omega

/-- A character completes two tokens at most. -/
theorem step_length (l : Lexer) (c : Char) : (l.step c).tokens.length ≤ 2 := by
  have between (l : Lexer) (p : Position) : (l.stepBetween c p).tokens.length ≤ 2 :=
    Nat.le_succ_of_le (l.stepBetween_length c p)
  unfold step
  by_cases hc : c = '\r'
  · rw [if_pos hc]
    simp
  · rw [if_neg hc]
    cases hm : l.mode with
    | lineStart =>
      simp only [stepLineStart]
      split_ifs
      all_goals first
        | exact Step.length_after _ _ (stepBetween_length _ _ _)
        | exact between _ _
        | simp
    | comment => simp
    | between => exact between _ _
    | keyword =>
      simp only [stepKeyword]
      split_ifs
      all_goals first
        | exact Step.length_after _ _ (stepBetween_length _ _ _)
        | simp
    | text =>
      simp only [stepText]
      split_ifs <;> simp
    | escape =>
      simp only [stepEscape]
      split <;> simp

/-- The end of a source completes two tokens at most. -/
theorem finish_length (l : Lexer) : l.finish.tokens.length ≤ 2 := by
  have close (l : Lexer) : l.closeLine.tokens.length ≤ 1 := by
    unfold closeLine
    split_ifs <;> simp
  unfold finish
  split
  · simp
  · simp
  · exact Step.length_after _ _ (close _)
  · exact Nat.le_succ_of_le (close l)

end Lexer

/-- Every character completes two tokens at most, and so does the end of the source. -/
theorem Scanner.stream_length (s : Scanner) (cs : List Char) :
    (s.stream cs).tokens.length ≤ s.ready.length + 2 * cs.length + 2 := by
  induction cs generalizing s with
  | nil =>
    unfold stream finish afterStep
    have hl := s.lexer.finish_length
    cases s.lexer.finish.error with
    | some e => simp
    | none =>
      simp only [List.length_append, List.length_nil]
      omega
  | cons c rest ih =>
    unfold stream feed afterStep
    have hl := s.lexer.step_length c
    cases (s.lexer.step c).error with
    | some e => simp
    | none =>
      have hr := ih ⟨(s.lexer.step c).lexer, []⟩
      simp only [drained, TokenStream.after, List.length_append, List.length_cons,
        List.length_nil] at hr ⊢
      omega

/-- A window has no more tokens left than its bound says. -/
theorem TokenWindow.stream_length (w : TokenWindow) : w.stream.tokens.length ≤ w.bound := by
  unfold stream bound TokenStream.after
  rw [List.length_append]
  split_ifs
  · simp only [List.length_nil]
    omega
  · have hrest := w.scanner.stream_length w.rest
    omega

end Manuscript
