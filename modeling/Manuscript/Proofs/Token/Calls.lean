import Manuscript.Proofs.Token.Stream

/-!
# Windows as queues

Whoever holds a window may look ahead, take tokens and ask how many wait, in any order. How far the
source was read by then shows in the number of waiting tokens only: tokens are handed out in the
order of the source, each once, and what is shown ahead is what is handed out later.

* `Follows.ask`: one call keeps what was handed out and what is left in line with the source.
* `follows_askAll`: so do any calls.
* `tokenize_serves`: what a window answers behind any calls.
-/

namespace Manuscript

variable {ts handed : List Token} {w w' : TokenWindow}

/-- What a window can be asked for. -/
inductive WindowCall where
  | peek (offset : Nat)
  | next
  | dequeue
  | lookahead (index : Nat)
  | length
deriving DecidableEq

namespace TokenWindow

/-- The token that a call hands out, if any, and the window behind the call. -/
def ask (w : TokenWindow) : WindowCall → List Token × TokenWindow
  | .peek offset => ([], (w.peek offset).2)
  | .next =>
    match w.next with
    | (.ok t, w) => (t.toList, w)
    | (.error _, w) => ([], w)
  | .dequeue =>
    match w.dequeue with
    | (.ok t, w) => ([t], w)
    | (.error _, w) => ([], w)
  | .lookahead _ | .length => ([], w)

/-- The tokens that some calls hand out, in order, and the window behind the calls. -/
def askAll (w : TokenWindow) : List WindowCall → List Token × TokenWindow
  | [] => ([], w)
  | call :: rest =>
    let (first, w) := w.ask call
    let (later, w) := w.askAll rest
    (first ++ later, w)

/-- As much of the source was read in one window as in the other. -/
structure SameReading (w w' : TokenWindow) : Prop where
  rest : w.rest = w'.rest
  scanner : w.scanner = w'.scanner
  exhausted : w.exhausted = w'.exhausted

/-! ## One call -/

/-- Reading on puts tokens behind those that wait. -/
theorem prefix_queue_fillFrom (wanted : Nat) (scanner : Scanner) (queue : List Token)
    (cs : List Char) : queue <+: (fillFrom wanted scanner queue cs).2.queue := by
  induction cs generalizing scanner queue with
  | nil =>
    unfold fillFrom
    split_ifs
    · exact List.prefix_rfl
    · split
      · exact List.prefix_rfl
      · exact List.prefix_append queue _
  | cons c cs ih =>
    unfold fillFrom
    split_ifs
    · exact List.prefix_rfl
    · split
      · exact List.prefix_rfl
      · exact (List.prefix_append queue _).trans (ih _ _)

/-- Looking ahead leaves the waiting tokens in front. -/
theorem prefix_queue_peek (w : TokenWindow) (n : Nat) : w.queue <+: (w.peek n).2.queue := by
  have hfill : w.queue <+: (w.fill (n + 1)).2.queue := by
    unfold fill
    split_ifs
    · exact List.prefix_rfl
    · exact prefix_queue_fillFrom _ _ _ _
  unfold peek
  rcases h : w.fill (n + 1) with ⟨_ | e, w'⟩ <;> rw [h] at hfill <;> exact hfill

/-- What was handed out and what a window has left are the tokens of a source without an error. -/
structure Follows (w : TokenWindow) (ts handed : List Token) : Prop where
  tokens : handed ++ w.stream.tokens = ts
  complete : w.stream.error = none

namespace Follows

/-- What is left starts behind what was handed out. -/
theorem peek_stream (h : w.Follows ts handed) (n : Nat) :
    w.stream.peek n = .ok ts[handed.length + n]? := by
  have hstream : w.stream = ⟨w.stream.tokens, none⟩ := by
    rw [← h.complete]
  rw [hstream, TokenStream.peek_complete, ← h.tokens,
    List.getElem?_append_right (Nat.le_add_right _ n), Nat.add_sub_cancel_left]

/-- The waiting tokens are the next ones of the source. -/
theorem waiting (h : w.Follows ts handed) : handed ++ w.queue <+: ts := by
  rw [← h.tokens, List.prefix_append_right_inj]
  exact List.prefix_append w.queue _

/-- Looking ahead shows a token of the source and hands out none. -/
theorem peek (h : w.Follows ts handed) (n : Nat) :
    ∃ w', w.peek n = (.ok ts[handed.length + n]?, w') ∧ w'.Follows ts handed := by
  obtain ⟨w', hpeek, hstream⟩ := w.peek_eq n
  rw [h.peek_stream n] at hpeek hstream
  have hsame := hstream ⟨_, rfl⟩
  refine ⟨w', hpeek, ?_, ?_⟩
  · rw [hsame]
    exact h.tokens
  · rw [hsame]
    exact h.complete

/-- The next token of the source is handed out. -/
theorem next (h : w.Follows ts handed) :
    ∃ w', w.next = (.ok ts[handed.length]?, w')
      ∧ w'.Follows ts (handed ++ ts[handed.length]?.toList) := by
  obtain ⟨w', hnext, hstream⟩ := w.next_eq
  rw [h.peek_stream 0, Nat.add_zero] at hnext hstream
  have htail := hstream ⟨_, rfl⟩
  have hfirst : ts[handed.length]? = w.stream.tokens.head? := by
    rw [← h.tokens, List.getElem?_append_right (Nat.le_refl _), Nat.sub_self,
      List.head?_eq_getElem?]
  have hsplit : w.stream.tokens.head?.toList ++ w.stream.tokens.tail = w.stream.tokens := by
    cases w.stream.tokens <;> rfl
  refine ⟨w', hnext, ?_, ?_⟩
  · rw [htail, List.append_assoc, hfirst, TokenStream.tail, hsplit]
    exact h.tokens
  · rw [htail]
    exact h.complete

/-- The oldest waiting token is handed out. -/
theorem dequeue {t : Token} (h : w.Follows ts handed) (hdequeue : w.dequeue = (.ok t, w')) :
    w.queue = t :: w'.queue ∧ w'.SameReading w ∧ w'.Follows ts (handed ++ [t]) := by
  unfold TokenWindow.dequeue at hdequeue
  cases hqueue : w.queue with
  | nil =>
    rw [hqueue] at hdequeue
    cases hdequeue
  | cons u rest =>
    rw [hqueue] at hdequeue
    cases hdequeue
    refine ⟨rfl, ⟨rfl, rfl, rfl⟩, ?_, h.complete⟩
    have htokens := h.tokens
    unfold stream TokenStream.after at htokens ⊢
    rw [hqueue] at htokens
    rw [List.append_assoc]
    exact htokens

/-- Every call hands out what comes next and leaves the rest. -/
theorem ask (h : w.Follows ts handed) (call : WindowCall) :
    (w.ask call).2.Follows ts (handed ++ (w.ask call).1) := by
  cases call with
  | peek n =>
    obtain ⟨w', hpeek, hfollows⟩ := h.peek n
    rw [TokenWindow.ask, hpeek, List.append_nil]
    exact hfollows
  | next =>
    obtain ⟨w', hnext, hfollows⟩ := h.next
    rw [TokenWindow.ask, hnext]
    exact hfollows
  | dequeue =>
    rw [TokenWindow.ask]
    rcases hdequeue : w.dequeue with ⟨e | t, w'⟩
    · -- only an empty queue is refused, and the window is left as it is
      unfold TokenWindow.dequeue at hdequeue
      split at hdequeue <;> cases hdequeue
      rw [List.append_nil]
      exact h
    · exact (h.dequeue hdequeue).2.2
  | lookahead n =>
    rw [TokenWindow.ask, List.append_nil]
    exact h
  | length =>
    rw [TokenWindow.ask, List.append_nil]
    exact h

end Follows

/-! ## Any calls -/

/-- Calls one after the other hand out what comes next and leave the rest. -/
theorem follows_askAll (h : w.Follows ts handed) (calls : List WindowCall) :
    (w.askAll calls).2.Follows ts (handed ++ (w.askAll calls).1) := by
  induction calls generalizing w handed with
  | nil =>
    rw [askAll, List.append_nil]
    exact h
  | cons call rest ih =>
    have hrest := ih (h.ask call)
    rw [List.append_assoc] at hrest
    exact hrest

/-- A window at the start of a source that can be read has all its tokens left. -/
theorem follows_ofSource {source : String} (h : tokenize source = .ok ts) :
    (ofSource source).Follows ts [] := by
  unfold tokenize at h
  rw [Lexer.read_eq] at h
  constructor
  · rw [stream_ofSource]
    split at h
    · cases h
    · cases h
      simp [*]
  · rw [stream_ofSource]
    split at h
    · cases h
    · simp [*]

/-- What a window answers when some tokens of a source were handed out. -/
structure Serves (w : TokenWindow) (ts handed : List Token) : Prop where
  /-- What was handed out and what waits are the first tokens of the source. -/
  waiting : handed ++ w.queue <+: ts
  /-- A token ahead is shown, none past the end, and all that waited still waits. -/
  peek : ∀ n, ∃ w', w.peek n = (.ok ts[handed.length + n]?, w') ∧ w.queue <+: w'.queue
  /-- The next token is handed out, none at the end. -/
  next : ∃ w', w.next = (.ok ts[handed.length]?, w')
    ∧ handed ++ ts[handed.length]?.toList ++ w'.queue <+: ts
  /-- A waiting token is the one that is handed out in its turn, whatever is asked for from here. -/
  lookahead : ∀ n t, w.lookahead n = .ok t → ts[handed.length + n]? = some t
    ∧ ∀ calls, n < (w.askAll calls).1.length → (w.askAll calls).1[n]? = some t
  lookahead_fails : ∀ n e, w.lookahead n = .error e
    ↔ w.length ≤ n ∧ e = .outOfRange n w.length
  /-- The oldest waiting token is handed out, and nothing is read for it. -/
  dequeue : ∀ t w', w.dequeue = (.ok t, w') → ts[handed.length]? = some t
    ∧ w.queue = t :: w'.queue ∧ w'.SameReading w
  dequeue_fails : ∀ e w', w.dequeue = (.error e, w') ↔ w.length = 0 ∧ e = .empty ∧ w' = w

/-- Looking at a waiting token fails exactly where none waits. -/
theorem lookahead_eq_error_iff (w : TokenWindow) (n : Nat) (e : QueueError) :
    w.lookahead n = .error e ↔ w.length ≤ n ∧ e = .outOfRange n w.length := by
  unfold TokenWindow.lookahead TokenWindow.length
  by_cases hn : w.queue.length ≤ n
  · rw [List.getElem?_eq_none hn]
    simp [hn, eq_comm]
  · rw [List.getElem?_eq_getElem (Nat.lt_of_not_le hn)]
    simp [hn]

/-- Taking a waiting token fails exactly where none waits, and leaves the window as it is. -/
theorem dequeue_eq_error_iff (w w' : TokenWindow) (e : QueueError) :
    w.dequeue = (.error e, w') ↔ w.length = 0 ∧ e = .empty ∧ w' = w := by
  unfold TokenWindow.dequeue TokenWindow.length
  cases w.queue with
  | nil => simp [eq_comm]
  | cons t rest => simp

/-- The tokens behind those that were handed out stand behind them in the source as well. -/
theorem getElem?_of_queued {later : List Token} {n : Nat} {t : Token}
    (h : handed ++ later <+: ts) (hn : later[n]? = some t) : ts[handed.length + n]? = some t := by
  have hbehind : (handed ++ later)[handed.length + n]? = some t := by
    rw [List.getElem?_append_right (Nat.le_add_right _ n), Nat.add_sub_cancel_left]
    exact hn
  obtain ⟨hlength, hat⟩ := List.getElem?_eq_some_iff.mp hbehind
  rw [List.prefix_iff_getElem?.mp h _ hlength, hat]

/-- A window that is in line with a source answers by its tokens. -/
theorem Follows.serves (h : w.Follows ts handed) : w.Serves ts handed where
  waiting := h.waiting
  peek n := by
    obtain ⟨w', hpeek, -⟩ := h.peek n
    have hqueue := w.prefix_queue_peek n
    rw [hpeek] at hqueue
    exact ⟨w', hpeek, hqueue⟩
  next := by
    obtain ⟨w', hnext, hfollows⟩ := h.next
    exact ⟨w', hnext, hfollows.waiting⟩
  lookahead n t hlook := by
    have hqueue : w.queue[n]? = some t := by
      unfold TokenWindow.lookahead at hlook
      split at hlook
      · cases hlook
        assumption
      · cases hlook
    have hshown := getElem?_of_queued h.waiting hqueue
    refine ⟨hshown, ?_⟩
    intro calls hn
    -- what is handed out from here stands in the same place of the source
    have hlater := (follows_askAll h calls).waiting
    rw [List.append_assoc] at hlater
    have hprefix : handed ++ (w.askAll calls).1 <+: ts :=
      ((List.prefix_append_right_inj handed).mpr (List.prefix_append _ _)).trans hlater
    rw [← hshown, getElem?_of_queued hprefix (List.getElem?_eq_getElem hn)]
    exact List.getElem?_eq_getElem hn
  lookahead_fails := w.lookahead_eq_error_iff
  dequeue t w' hdequeue := by
    obtain ⟨hqueue, hreading, -⟩ := h.dequeue hdequeue
    have hfirst : w.queue[0]? = some t := by
      rw [hqueue]
      rfl
    exact ⟨getElem?_of_queued h.waiting hfirst, hqueue, hreading⟩
  dequeue_fails e w' := w.dequeue_eq_error_iff w' e

/-- Behind any calls, the window of a source that can be read has handed out its first tokens and
answers by the others: each is shown ahead and handed out in its turn, however far the source was
read. -/
theorem tokenize_serves {source : String} (h : tokenize source = .ok ts)
    (calls : List WindowCall) :
    ((ofSource source).askAll calls).2.Serves ts ((ofSource source).askAll calls).1 :=
  (follows_askAll (follows_ofSource h) calls).serves

/-- The title is handed out behind a look at what follows it. -/
theorem tokenize_serves_title :
    tokenize "title \"T\"" = .ok [⟨.keyword, "title", ⟨1, 1⟩, 0⟩, ⟨.text, "T", ⟨1, 7⟩, 0⟩,
        ⟨.lineEnd, "", ⟨1, 10⟩, 0⟩]
      ∧ ((ofSource "title \"T\"").askAll [.peek 1, .dequeue, .lookahead 0, .length]).2.Serves
        [⟨.keyword, "title", ⟨1, 1⟩, 0⟩, ⟨.text, "T", ⟨1, 7⟩, 0⟩, ⟨.lineEnd, "", ⟨1, 10⟩, 0⟩]
        ((ofSource "title \"T\"").askAll [.peek 1, .dequeue, .lookahead 0, .length]).1 := by
  have htokens : tokenize "title \"T\"" = .ok [⟨.keyword, "title", ⟨1, 1⟩, 0⟩,
      ⟨.text, "T", ⟨1, 7⟩, 0⟩, ⟨.lineEnd, "", ⟨1, 10⟩, 0⟩] := by
    decide +kernel
  exact ⟨htokens, tokenize_serves htokens _⟩

end TokenWindow

end Manuscript
