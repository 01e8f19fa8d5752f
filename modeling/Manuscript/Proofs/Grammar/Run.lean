import Manuscript.Grammar.Production
import Manuscript.Proofs.Token.Stream

/-!
# Runs of productions

What a run of a production gives depends on the stream in front of its cursor and on nothing else.
All of this is shown once for the tree of requests, whatever the grammar says.

* `run_narrows`: a run takes tokens from the front of the stream, and a lexical error that stops it
  is the error of the stream.
* `run_agrees`: cursors in front of one stream give the same outcome.
* `run_bind`: productions run one after the other.
-/

namespace Manuscript.Production

namespace Cursor

/-- The stream in front of a cursor. -/
def stream (c : Cursor) : TokenStream := c.window.stream

/-- Two cursors stand in front of one stream and took the same token last. -/
structure Agrees (c d : Cursor) : Prop where
  stream : c.stream = d.stream
  atLineStart : c.atLineStart = d.atLineStart
  lastPosition : c.lastPosition = d.lastPosition

theorem Agrees.refl (c : Cursor) : c.Agrees c := ⟨rfl, rfl, rfl⟩

theorem Agrees.symm {c d : Cursor} (h : c.Agrees d) : d.Agrees c :=
  ⟨h.stream.symm, h.atLineStart.symm, h.lastPosition.symm⟩

theorem Agrees.trans {c d e : Cursor} (h : c.Agrees d) (h' : d.Agrees e) : c.Agrees e :=
  ⟨h.stream.trans h'.stream, h.atLineStart.trans h'.atLineStart,
    h.lastPosition.trans h'.lastPosition⟩

/-- No more tokens stand in front of a cursor than its window's bound says. -/
theorem stream_length (c : Cursor) : c.stream.tokens.length ≤ c.window.bound :=
  c.window.stream_length

end Cursor

/-! ## Steps of a run -/

/-- What comes behind an outcome, unless it was a stop. -/
def andThen {α β : Type} (r : Except Stop α × Cursor)
    (k : α → Cursor → Except Stop β × Cursor) : Except Stop β × Cursor :=
  match r with
  | (.error e, c) => (.error e, c)
  | (.ok a, c) => k a c

theorem andThen_ok {α β : Type} (a : α) (c : Cursor) (k : α → Cursor → Except Stop β × Cursor) :
    andThen (.ok a, c) k = k a c := rfl

theorem andThen_andThen {α β γ : Type} (r : Except Stop α × Cursor)
    (k : α → Cursor → Except Stop β × Cursor) (k' : β → Cursor → Except Stop γ × Cursor) :
    andThen (andThen r k) k' = andThen r fun a c => andThen (k a c) k' := by
  obtain ⟨_ | _, _⟩ := r <;> rfl

theorem run_peek {α : Type} (n : Nat) (next : Option Token → Production α) (c : Cursor) :
    (peek n next).run c = andThen (c.peek n) fun t => (next t).run := by
  unfold run
  rcases c.peek n with ⟨_ | _, _⟩ <;> rfl

theorem run_take {α : Type} (next : Production α) (c : Cursor) :
    (take next).run c = andThen c.take fun _ => next.run := by
  unfold run
  rcases c.take with ⟨_ | _, _⟩ <;> rfl

theorem run_loop {α σ : Type} (state : σ) (admits : σ → Token → Bool)
    (body : σ → Token → Production σ) (next : σ → Production α) (c : Cursor) :
    (loop state admits body next).run c =
      andThen (iterate admits (fun s t => (body s t).run) (c.window.bound + 1) state c)
        fun s => (next s).run := by
  unfold run
  rcases iterate admits (fun s t => (body s t).run) (c.window.bound + 1) state c with ⟨_ | _, _⟩
    <;> rfl

theorem iterate_succ {σ : Type} (admits : σ → Token → Bool)
    (body : σ → Token → Cursor → Except Stop σ × Cursor) (fuel : Nat) (s : σ) (c : Cursor) :
    iterate admits body (fuel + 1) s c = andThen (c.peek 0) fun t c =>
      match t with
      | none => (.ok s, c)
      | some t =>
        if admits s t then
          andThen c.take fun _ c => andThen (body s t c) (iterate admits body fuel)
        else (.ok s, c) := by
  unfold iterate
  rcases c.peek 0 with ⟨_ | _ | t, c⟩
  · rfl
  · rfl
  · simp only [andThen]
    split_ifs
    · rcases c.take with ⟨_ | _, c⟩
      · rfl
      · rcases body s t c with ⟨_ | _, c⟩ <;> rfl
    · rfl

/-- A production and then another run one after the other. -/
theorem run_bind {α β : Type} (p : Production α) (f : α → Production β) (c : Cursor) :
    (p >>= f).run c = andThen (p.run c) fun a => (f a).run := by
  show (p.bind f).run c = _
  induction p generalizing c with
  | done value => rfl
  | fail error => rfl
  | peek offset next ih =>
    unfold bind
    rw [run_peek, run_peek, andThen_andThen]
    exact congrArg _ (funext fun t => funext fun d => ih t f d)
  | take next ih =>
    unfold bind
    rw [run_take, run_take, andThen_andThen]
    exact congrArg _ (funext fun _ => funext fun d => ih f d)
  | lastPosition next ih => exact ih _ f c
  | atLineStart next ih => exact ih _ f c
  | loop state admits body next ihb ihn =>
    unfold bind
    rw [run_loop, run_loop, andThen_andThen]
    exact congrArg _ (funext fun s => funext fun d => ihn s f d)
  | attempt inner next ihi ihn =>
    unfold bind run
    rcases inner.run c with ⟨(e | e) | a, c⟩
    · exact ihn _ f c
    · rfl
    · exact ihn _ f c

/-! ## One request -/

/-- The outcome of asking for a token. -/
def answer : Except LexicalError (Option Token) → Except Stop (Option Token)
  | .ok t => .ok t
  | .error e => .error (.byLexer e)

/-- What a cursor shows is told by its stream, and the cursor agrees with the one before. -/
theorem Cursor.peek_eq (c : Cursor) (n : Nat) :
    ∃ d, c.peek n = (answer (c.stream.peek n), d)
      ∧ ((∃ t, c.stream.peek n = .ok t) → d.Agrees c) := by
  obtain ⟨w, hw, hs⟩ := c.window.peek_eq n
  refine ⟨{ c with window := w }, ?_, fun h => ⟨hs h, rfl, rfl⟩⟩
  unfold Cursor.peek
  rw [hw]
  show _ = (answer (c.window.stream.peek n), _)
  cases c.window.stream.peek n <;> rfl

/-- What was shown is what the stream shows. -/
theorem Cursor.of_peek {c d : Cursor} {n : Nat} {t : Option Token} (h : c.peek n = (.ok t, d)) :
    c.stream.peek n = .ok t ∧ d.Agrees c := by
  obtain ⟨d', hd', hagree⟩ := c.peek_eq n
  rw [hd'] at h
  obtain ⟨ha, rfl⟩ := Prod.mk.inj h
  cases hp : c.stream.peek n with
  | error e => simp [hp, answer] at ha
  | ok u =>
    rw [hp] at ha
    cases ha
    exact ⟨rfl, hagree ⟨_, hp⟩⟩

/-- What taking a token does is told by the stream: it fails with the error of the stream, does
nothing at the end, or leads behind the first token. -/
theorem Cursor.take_eq (c : Cursor) :
    ∃ d, c.take = ((answer (c.stream.peek 0)).map fun _ => (), d)
      ∧ (c.stream.peek 0 = .ok none → d.Agrees c)
      ∧ ∀ t, c.stream.peek 0 = .ok (some t) →
        d.stream = c.stream.tail ∧ d.atLineStart = t.isLineEnd ∧ d.lastPosition = t.position := by
  obtain ⟨w, hw, hs⟩ := c.window.next_eq
  have hp : c.stream.peek 0 = c.window.stream.peek 0 := rfl
  unfold Cursor.take
  rw [hw, hp]
  cases h : c.window.stream.peek 0 with
  | error e => exact ⟨{ c with window := w }, rfl, by simp, by simp⟩
  | ok t =>
    have hw' : w.stream = c.stream.tail := hs ⟨t, h⟩
    cases t with
    | none =>
      refine ⟨{ c with window := w }, rfl, fun _ => ⟨?_, rfl, rfl⟩, by simp⟩
      -- at the end there is no token to leave behind
      have hnil : c.stream.tokens = [] := by
        rw [← hp] at h
        unfold TokenStream.peek at h
        cases ht : c.stream.tokens with
        | nil => rfl
        | cons u us => simp [ht] at h
      show w.stream = c.stream
      rw [hw', TokenStream.tail, hnil]
      exact congrArg (TokenStream.mk · c.stream.error) hnil.symm
    | some t =>
      refine ⟨⟨w, t.isLineEnd, t.position⟩, rfl, by simp, ?_⟩
      rintro u ⟨⟩
      exact ⟨hw', rfl, rfl⟩

/-! ## What a run leaves of the stream -/

/-- The second cursor stands further on in the stream of the first. -/
def Cursor.Leads (c d : Cursor) : Prop :=
  d.stream.error = c.stream.error ∧ d.stream.tokens <:+ c.stream.tokens

theorem Cursor.Leads.refl (c : Cursor) : c.Leads c := ⟨rfl, List.suffix_refl _⟩

theorem Cursor.Leads.trans {c d e : Cursor} (h : c.Leads d) (h' : d.Leads e) : c.Leads e :=
  ⟨h'.1.trans h.1, h'.2.trans h.2⟩

theorem Cursor.Agrees.leads {c d : Cursor} (h : d.Agrees c) : c.Leads d := by
  unfold Leads
  rw [h.stream]
  exact ⟨rfl, List.suffix_refl _⟩

theorem Cursor.leads_of_tail {c d : Cursor} (h : d.stream = c.stream.tail) : c.Leads d := by
  unfold Leads
  rw [h]
  exact ⟨rfl, List.tail_suffix _⟩

/-- An outcome that took tokens from the front of the stream and nothing else, or that was stopped
by the error of the stream. -/
def Narrows {α : Type} (c : Cursor) (r : Except Stop α × Cursor) : Prop :=
  match r.1 with
  | .error (.byLexer e) => c.stream.error = some e
  | _ => c.Leads r.2

/-- What narrows the stream of a later cursor narrows that of an earlier one. -/
theorem Narrows.of_leads {α : Type} {c d : Cursor} {r : Except Stop α × Cursor} (hd : c.Leads d)
    (h : Narrows d r) : Narrows c r := by
  unfold Narrows at *
  split at h
  · rw [← hd.1, h]
  · exact hd.trans h

theorem Narrows.andThen {α β : Type} {c : Cursor} {r : Except Stop α × Cursor}
    {k : α → Cursor → Except Stop β × Cursor} (h : Narrows c r) (hk : ∀ a d, Narrows d (k a d)) :
    Narrows c (andThen r k) := by
  obtain ⟨(e | e) | a, d⟩ := r
  · exact h
  · exact h
  · exact .of_leads h (hk a d)

theorem Cursor.peek_narrows (c : Cursor) (n : Nat) : Narrows c (c.peek n) := by
  obtain ⟨d, hd, hagree⟩ := c.peek_eq n
  rw [hd]
  cases hp : c.stream.peek n with
  | error e => exact TokenStream.error_of_peek hp
  | ok t => exact (hagree ⟨t, hp⟩).leads

theorem Cursor.take_narrows (c : Cursor) : Narrows c c.take := by
  obtain ⟨d, hd, hnone, hsome⟩ := c.take_eq
  rw [hd]
  cases hp : c.stream.peek 0 with
  | error e => exact TokenStream.error_of_peek hp
  | ok t =>
    cases t with
    | none => exact (hnone hp).leads
    | some t => exact Cursor.leads_of_tail (hsome t hp).1

/-- A loop narrows the stream if its body does. -/
theorem iterate_narrows {σ : Type} (admits : σ → Token → Bool)
    (body : σ → Token → Cursor → Except Stop σ × Cursor)
    (hbody : ∀ s t c, Narrows c (body s t c)) (fuel : Nat) (s : σ) (c : Cursor) :
    Narrows c (iterate admits body fuel s c) := by
  -- fuel that is used up leaves the cursor where it is, so that no hypothesis on it is needed
  induction fuel generalizing s c with
  | zero => exact Cursor.Leads.refl c
  | succ fuel ih =>
    rw [iterate_succ]
    refine (c.peek_narrows 0).andThen fun t d => ?_
    cases t with
    | none => exact Cursor.Leads.refl d
    | some t =>
      show Narrows d (if _ then _ else _)
      split_ifs
      · exact d.take_narrows.andThen fun _ e => (hbody s t e).andThen ih
      · exact Cursor.Leads.refl d

/-- A run takes tokens from the front of the stream, and is stopped by no other lexical error than
that of the stream. -/
theorem run_narrows {α : Type} (p : Production α) (c : Cursor) : Narrows c (p.run c) := by
  induction p generalizing c with
  | done value => exact Cursor.Leads.refl c
  | fail error => exact Cursor.Leads.refl c
  | peek offset next ih =>
    rw [run_peek]
    exact (c.peek_narrows offset).andThen ih
  | take next ih =>
    rw [run_take]
    exact c.take_narrows.andThen fun _ => ih
  | lastPosition next ih => exact ih _ c
  | atLineStart next ih => exact ih _ c
  | loop state admits body next ihb ihn =>
    rw [run_loop]
    exact (iterate_narrows admits _ ihb _ state c).andThen ihn
  -- only a syntax error is caught; a lexical one is that of the stream
  | attempt inner next ihi ihn =>
    have hi := ihi c
    unfold run
    rcases hr : inner.run c with ⟨(e | e) | a, d⟩
    · rw [hr] at hi
      exact .of_leads hi (ihn (.error e) d)
    · rw [hr] at hi
      exact hi
    · rw [hr] at hi
      exact .of_leads hi (ihn (.ok a) d)

/-! ## What a run depends on -/

/-- Two outcomes are the same, and so is what is left behind them unless a lexical error stopped
them. -/
structure SameOutcome {α : Type} (r s : Except Stop α × Cursor) : Prop where
  result : r.1 = s.1
  cursor : (∀ e, r.1 ≠ .error (.byLexer e)) → r.2.Agrees s.2

theorem SameOutcome.of_agrees {α : Type} (r : Except Stop α) {c d : Cursor} (h : c.Agrees d) :
    SameOutcome (r, c) (r, d) := ⟨rfl, fun _ => h⟩

/-- After a lexical error nothing is left to compare. -/
theorem SameOutcome.byLexer {α : Type} (e : LexicalError) (c d : Cursor) :
    SameOutcome (α := α) (.error (.byLexer e), c) (.error (.byLexer e), d) :=
  ⟨rfl, fun h => (h e rfl).elim⟩

/-- The same goes on the same way, if it goes on behind agreeing cursors that can be reached. -/
theorem SameOutcome.andThen {α β : Type} {r s : Except Stop α × Cursor}
    {k l : α → Cursor → Except Stop β × Cursor} (h : SameOutcome r s)
    (hk : ∀ a c d, r = (.ok a, c) → c.Agrees d → SameOutcome (k a c) (l a d)) :
    SameOutcome (andThen r k) (andThen s l) := by
  obtain ⟨r, c⟩ := r
  obtain ⟨s, d⟩ := s
  obtain rfl : r = s := h.result
  cases r with
  | error e =>
    refine ⟨rfl, fun he => h.cursor fun e' heq => he e' ?_⟩
    cases heq
    rfl
  | ok a => exact hk a c d rfl (h.cursor (by simp))

/-- Agreeing cursors show the same. -/
theorem Cursor.Agrees.peek {c d : Cursor} (h : c.Agrees d) (n : Nat) :
    SameOutcome (c.peek n) (d.peek n) := by
  obtain ⟨c', hc, hc'⟩ := c.peek_eq n
  obtain ⟨d', hd, hd'⟩ := d.peek_eq n
  rw [hc, hd, h.stream]
  rw [h.stream] at hc'
  cases hp : d.stream.peek n with
  | error e => exact .byLexer e c' d'
  | ok t => exact .of_agrees _ ((hc' ⟨t, hp⟩).trans (h.trans (hd' ⟨t, hp⟩).symm))

/-- Agreeing cursors take the same. -/
theorem Cursor.Agrees.take {c d : Cursor} (h : c.Agrees d) : SameOutcome c.take d.take := by
  obtain ⟨c', hc, hcn, hcs⟩ := c.take_eq
  obtain ⟨d', hd, hdn, hds⟩ := d.take_eq
  rw [hc, hd, h.stream]
  rw [h.stream] at hcn hcs
  cases hp : d.stream.peek 0 with
  | error e => exact .byLexer e c' d'
  | ok t =>
    refine .of_agrees _ ?_
    cases t with
    | none => exact (hcn hp).trans (h.trans (hdn hp).symm)
    | some t =>
      obtain ⟨hs, hl, hq⟩ := hcs t hp
      obtain ⟨hs', hl', hq'⟩ := hds t hp
      exact ⟨hs.trans hs'.symm, hl.trans hl'.symm, hq.trans hq'.symm⟩

/-- The token shown next is the one that is taken, so that one token less is left. -/
theorem Cursor.length_of_take {c d : Cursor} {t : Token} (hp : c.stream.peek 0 = .ok (some t))
    (ht : c.take = (.ok (), d)) : d.stream.tokens.length + 1 = c.stream.tokens.length := by
  obtain ⟨d', hd, _, hs⟩ := c.take_eq
  obtain rfl : d = d' := congrArg Prod.snd (ht.symm.trans hd)
  rw [(hs t hp).1, TokenStream.tokens_of_peek hp]
  rfl

/-- Two loops with one body give the same in front of one stream, as long as both have fuel for
every token of it. -/
theorem iterate_agrees {σ : Type} (admits : σ → Token → Bool)
    (body : σ → Token → Cursor → Except Stop σ × Cursor)
    (hbody : ∀ s t c d, c.Agrees d → SameOutcome (body s t c) (body s t d))
    (hnarrow : ∀ s t c, Narrows c (body s t c)) {m n : Nat} {c d : Cursor} (h : c.Agrees d)
    (hm : c.stream.tokens.length < m) (hn : c.stream.tokens.length < n) (s : σ) :
    SameOutcome (iterate admits body m s c) (iterate admits body n s d) := by
  -- induction on one fuel; every round takes a token, so that the other is not used up before
  induction m generalizing n s c d with
  | zero => omega
  | succ m ih =>
    obtain ⟨n, rfl⟩ : ∃ k, n = k + 1 := ⟨n - 1, by omega⟩
    rw [iterate_succ, iterate_succ]
    refine (h.peek 0).andThen fun t c₁ d₁ hr hcd => ?_
    cases t with
    | none => exact .of_agrees _ hcd
    | some t =>
      obtain ⟨hp, hc₁⟩ := Cursor.of_peek hr
      show SameOutcome (if _ then _ else _) (if _ then _ else _)
      split_ifs
      · refine hcd.take.andThen fun _ c₂ d₂ ht hcd₂ => ?_
        have hlen := Cursor.length_of_take (hc₁.stream ▸ hp) ht
        refine (hbody s t c₂ d₂ hcd₂).andThen fun s' c₃ d₃ hb hcd₃ => ?_
        have hle : c₃.stream.tokens.length ≤ c₂.stream.tokens.length := by
          have hk := hnarrow s t c₂
          rw [hb] at hk
          exact hk.2.length_le
        rw [hc₁.stream] at hlen
        exact ih hcd₃ (by omega) (by omega) s'
      · exact .of_agrees _ hcd

/-- Cursors in front of one stream give the same outcome. -/
theorem run_agrees {α : Type} (p : Production α) {c d : Cursor} (h : c.Agrees d) :
    SameOutcome (p.run c) (p.run d) := by
  induction p generalizing c d with
  | done value => exact .of_agrees _ h
  | fail error => exact .of_agrees _ h
  | peek offset next ih =>
    rw [run_peek, run_peek]
    exact (h.peek offset).andThen fun t _ _ _ => ih t
  | take next ih =>
    rw [run_take, run_take]
    exact h.take.andThen fun _ _ _ _ => ih
  | lastPosition next ih =>
    unfold run
    rw [h.lastPosition]
    exact ih _ h
  | atLineStart next ih =>
    unfold run
    rw [h.atLineStart]
    exact ih _ h
  | loop state admits body next ihb ihn =>
    -- the fuel of each loop is the bound of its own window, and both are large enough
    have hc := c.stream_length
    have hd := d.stream_length
    rw [← h.stream] at hd
    rw [run_loop, run_loop]
    refine (iterate_agrees admits _ (fun s t _ _ => ihb s t)
      (fun s t => run_narrows (body s t)) h ?_ ?_ state).andThen fun s _ _ _ => ihn s
    · omega
    · omega
  | attempt inner next ihi ihn =>
    have hi := ihi h
    unfold run
    rcases hr : inner.run c with ⟨r, c'⟩
    rcases hr' : inner.run d with ⟨r', d'⟩
    rw [hr, hr'] at hi
    obtain rfl : r = r' := hi.result
    rcases r with (e | e) | a
    · exact ihn (.error e) (hi.cursor (by simp))
    · exact .byLexer e c' d'
    · exact ihn (.ok a) (hi.cursor (by simp))

end Manuscript.Production
