import Manuscript.Proofs.Grammar.Run

/-!
# Runs in front of a list of tokens

A window over tokens that are already there reads nothing, and neither does a run in front of it. So
runs can be followed token by token.

* `run_keeps`: what is known in front of tokens, and still known behind each, is known behind a run.
* `run_listed`: a run in front of a list of tokens ends in front of one, without a lexical error.
* `run_suffix`: what it leaves is the end of the list.
* `run_repeatWhile_cons`: a loop is unrolled once; nothing is left of its fuel.
* `of_run_repeatWhile`: what the body of a loop keeps, the loop keeps.
-/

namespace Manuscript.Production

namespace Cursor

/-- The cursor in front of a list of tokens. -/
def before (ts : List Token) (atLineStart : Bool) (lastPosition : Position) : Cursor :=
  ⟨.ofTokens ts, atLineStart, lastPosition⟩

@[simp] theorem stream_before (ts : List Token) (b : Bool) (p : Position) :
    (before ts b p).stream = ⟨ts, none⟩ := TokenWindow.stream_ofTokens ts

end Cursor

namespace Cursor

@[simp] theorem peek_before (ts : List Token) (b : Bool) (q : Position) (n : Nat) :
    (before ts b q).peek n = (.ok ts[n]?, before ts b q) := rfl

@[simp] theorem take_before_nil (b : Bool) (q : Position) :
    (before [] b q).take = (.ok (), before [] b q) := rfl

@[simp] theorem take_before_cons (t : Token) (ts : List Token) (b : Bool) (q : Position) :
    (before (t :: ts) b q).take = (.ok (), before ts t.isLineEnd t.position) := rfl

/-- Cursors in front of lists of tokens agree only if they are the same. -/
theorem Agrees.before_eq {ts us : List Token} {b b' : Bool} {q q' : Position}
    (h : (before ts b q).Agrees (before us b' q')) : before ts b q = before us b' q' := by
  obtain ⟨hs, rfl, rfl⟩ := h
  rw [stream_before, stream_before] at hs
  cases hs
  rfl

end Cursor

/-- An outcome in front of a list of tokens, without a lexical error. -/
def Listed {α : Type} (r : Except Stop α × Cursor) : Prop :=
  (∀ e, r.1 ≠ .error (.byLexer e)) ∧ ∃ ts b q, r.2 = Cursor.before ts b q

/-- So it is, and of the tokens in front of it and the position of the token taken last something
is known. -/
def Keeps {α : Type} (inv : List Token → Position → Prop) (r : Except Stop α × Cursor) : Prop :=
  (∀ e, r.1 ≠ .error (.byLexer e)) ∧ ∃ ts b q, r.2 = Cursor.before ts b q ∧ inv ts q

theorem Keeps.listed {α : Type} {inv : List Token → Position → Prop} {r : Except Stop α × Cursor}
    (h : Keeps inv r) : Listed r := by
  obtain ⟨hr, ts, b, q, hc, -⟩ := h
  exact ⟨hr, ts, b, q, hc⟩

theorem Listed.keeps {α : Type} {r : Except Stop α × Cursor} (h : Listed r) :
    Keeps (fun _ _ => True) r := by
  obtain ⟨hr, ts, b, q, hc⟩ := h
  exact ⟨hr, ts, b, q, hc, trivial⟩

section Keeps

variable {α β σ : Type} {inv : List Token → Position → Prop}

theorem Keeps.andThen {r : Except Stop α × Cursor} {k : α → Cursor → Except Stop β × Cursor}
    (h : Keeps inv r) (hk : ∀ a ts b q, inv ts q → Keeps inv (k a (.before ts b q))) :
    Keeps inv (andThen r k) := by
  obtain ⟨hr, ts, b, q, hc, hinv⟩ := h
  obtain ⟨(e | e) | a, c⟩ := r
  · exact ⟨by simp [Production.andThen], ts, b, q, hc, hinv⟩
  · exact (hr e rfl).elim
  · obtain rfl : c = Cursor.before ts b q := hc
    exact hk a ts b q hinv

-- what is known in front of tokens is still known behind each of them
variable (htake : ∀ t ts q, inv (t :: ts) q → inv ts t.position)

include htake

theorem Cursor.take_keeps {ts : List Token} {q : Position} (h : inv ts q) (b : Bool) :
    Keeps inv (before ts b q).take := by
  cases ts with
  | nil => exact ⟨by simp, _, _, _, rfl, h⟩
  | cons t ts => exact ⟨by simp, _, _, _, rfl, htake t ts q h⟩

theorem iterate_keeps (admits : σ → Token → Bool)
    (body : σ → Token → Cursor → Except Stop σ × Cursor)
    (hbody : ∀ s t ts b q, inv ts q → Keeps inv (body s t (.before ts b q))) (fuel : Nat) (s : σ)
    {ts : List Token} {q : Position} (h : inv ts q) (b : Bool) :
    Keeps inv (iterate admits body fuel s (.before ts b q)) := by
  induction fuel generalizing s ts b q with
  | zero => exact ⟨by simp [iterate], ts, b, q, rfl, h⟩
  | succ fuel ih =>
    rw [iterate_succ, Cursor.peek_before, andThen_ok]
    cases ts with
    | nil => exact ⟨by simp, [], b, q, rfl, h⟩
    | cons t ts =>
      show Keeps inv (if _ then _ else _)
      split_ifs
      · exact (Cursor.take_keeps htake h b).andThen fun _ ts b q h =>
          (hbody s t ts b q h).andThen fun s ts b q h => ih s h b
      · exact ⟨by simp, _, b, q, rfl, h⟩

/-- A run that starts in front of a list of tokens ends there, and what is known in front of tokens
is known behind a run if it is known behind each of them. -/
theorem run_keeps (p : Production α) {ts : List Token} {q : Position} (h : inv ts q) (b : Bool) :
    Keeps inv (p.run (.before ts b q)) := by
  induction p generalizing ts b q with
  | done value => exact ⟨by simp [run], ts, b, q, rfl, h⟩
  | fail error => exact ⟨by simp [run], ts, b, q, rfl, h⟩
  | peek offset next ih =>
    rw [run_peek, Cursor.peek_before]
    exact ih _ h b
  | take next ih =>
    rw [run_take]
    exact (Cursor.take_keeps htake h b).andThen fun _ ts b q h => ih h b
  | lastPosition next ih => exact ih _ h b
  | atLineStart next ih => exact ih _ h b
  | loop state admits body next ihb ihn =>
    rw [run_loop]
    refine (iterate_keeps htake admits _ ?_ _ state h b).andThen fun s ts b q h => ihn s h b
    exact fun s t ts b q h => ihb s t h b
  | attempt inner next ihi ihn =>
    obtain ⟨hi, us, b', q', hc, hinv⟩ := ihi h b
    unfold run
    rcases hr : inner.run (.before ts b q) with ⟨(e | e) | a, d⟩
    · rw [hr] at hc
      obtain rfl : d = Cursor.before us b' q' := hc
      exact ihn (.error e) hinv b'
    · exact (hi e (by rw [hr])).elim
    · rw [hr] at hc
      obtain rfl : d = Cursor.before us b' q' := hc
      exact ihn (.ok a) hinv b'

end Keeps

theorem iterate_listed {σ : Type} (admits : σ → Token → Bool)
    (body : σ → Token → Cursor → Except Stop σ × Cursor)
    (hbody : ∀ s t ts b q, Listed (body s t (.before ts b q))) (fuel : Nat) (s : σ)
    (ts : List Token) (b : Bool) (q : Position) :
    Listed (iterate admits body fuel s (.before ts b q)) := by
  have hkeeps : Keeps (fun _ _ => True) (iterate admits body fuel s (.before ts b q)) :=
    iterate_keeps (fun _ _ _ _ => trivial) admits body
      (fun s t ts b q _ => (hbody s t ts b q).keeps) fuel s trivial b
  exact hkeeps.listed

/-- A run that starts in front of a list of tokens ends there. -/
theorem run_listed {α : Type} (p : Production α) (ts : List Token) (b : Bool) (q : Position) :
    Listed (p.run (.before ts b q)) := by
  have hkeeps : Keeps (fun _ _ => True) (p.run (.before ts b q)) :=
    run_keeps (fun _ _ _ _ => trivial) p trivial b
  exact hkeeps.listed

/-- A run in front of a list of tokens leaves the end of the list. -/
theorem run_suffix {α : Type} {p : Production α} {ts us : List Token} {b b' : Bool}
    {q q' : Position} {r : Except Stop α} (h : p.run (.before ts b q) = (r, .before us b' q')) :
    us <:+ ts := by
  have hn := run_narrows p (.before ts b q)
  have hl := (run_listed p ts b q).1
  rw [h] at hn hl
  rcases r with (e | e) | a
  · simpa using hn.2
  · exact (hl e rfl).elim
  · simpa using hn.2

/-- Of two productions in a row that fail, either the first one does or the second one behind it. -/
theorem of_run_bind_error {α β : Type} {p : Production α} {f : α → Production β} {e : SyntaxError}
    {ts us : List Token} {b b' : Bool} {q q' : Position}
    (h : (p >>= f).run (.before ts b q) = (.error (.byGrammar e), .before us b' q')) :
    p.run (.before ts b q) = (.error (.byGrammar e), .before us b' q')
      ∨ ∃ a vs b₁ q₁, p.run (.before ts b q) = (.ok a, .before vs b₁ q₁)
        ∧ (f a).run (.before vs b₁ q₁) = (.error (.byGrammar e), .before us b' q') := by
  rw [run_bind] at h
  obtain ⟨-, vs, b₁, q₁, hc⟩ := run_listed p ts b q
  rcases hr : p.run (.before ts b q) with ⟨_ | a, c⟩
  · rw [hr] at h
    cases h
    exact .inl rfl
  · rw [hr] at hc h
    obtain rfl : c = Cursor.before vs b₁ q₁ := hc
    exact .inr ⟨a, vs, b₁, q₁, rfl, h⟩

/-- In front of a list of tokens, agreeing outcomes are the same. -/
theorem Listed.eq_of_same {α : Type} {r s : Except Stop α × Cursor} (hr : Listed r)
    (hs : Listed s) (h : SameOutcome r s) : r = s := by
  obtain ⟨he, ts, b, q, hc⟩ := hr
  obtain ⟨_, us, b', q', hd⟩ := hs
  have hcd := h.cursor he
  refine Prod.ext h.result ?_
  rw [hc, hd] at hcd ⊢
  exact hcd.before_eq

/-- At the end of a list a loop is over. -/
theorem run_repeatWhile_nil {σ : Type} (s : σ) (admits : σ → Token → Bool)
    (body : σ → Token → Production σ) (b : Bool) (q : Position) :
    (repeatWhile s admits body).run (.before [] b q) = (.ok s, .before [] b q) := rfl

/-- In front of a token a loop is over, or it takes the token and goes on behind its body. -/
theorem run_repeatWhile_cons {σ : Type} (s : σ) (admits : σ → Token → Bool)
    (body : σ → Token → Production σ) (t : Token) (ts : List Token) (b : Bool) (q : Position) :
    (repeatWhile s admits body).run (.before (t :: ts) b q) =
      if admits s t then
        andThen ((body s t).run (.before ts t.isLineEnd t.position)) fun s =>
          (repeatWhile s admits body).run
      else (.ok s, .before (t :: ts) b q) := by
  have unroll (s : σ) (c : Cursor) : (repeatWhile s admits body).run c =
      iterate admits (fun s t => (body s t).run) (c.window.bound + 1) s c := by
    unfold repeatWhile
    rw [run_loop]
    rcases iterate admits (fun s t => (body s t).run) (c.window.bound + 1) s c with ⟨_ | _, _⟩
      <;> rfl
  rw [unroll, iterate_succ, Cursor.peek_before, andThen_ok]
  show (if _ then _ else _) = _
  split_ifs with ha
  · rw [Cursor.take_before_cons, andThen_ok]
    -- the loop behind the body has other fuel, but both have enough of it
    obtain ⟨hl, us, b', q', hc⟩ := run_listed (body s t) ts t.isLineEnd t.position
    rcases hr : (body s t).run (.before ts t.isLineEnd t.position) with ⟨_ | s', d⟩
    · rfl
    · rw [hr] at hc
      obtain rfl : d = Cursor.before us b' q' := hc
      rw [andThen_ok, andThen_ok, unroll]
      have hlen := (run_suffix hr).length_le
      refine Listed.eq_of_same (iterate_listed _ _ (fun s t => run_listed (body s t)) _ _ _ _ _)
        (iterate_listed _ _ (fun s t => run_listed (body s t)) _ _ _ _ _) ?_
      refine iterate_agrees _ _ (fun s t _ _ => run_agrees (body s t))
        (fun s t => run_narrows (body s t)) (.refl _) ?_ ?_ s'
      · rw [Cursor.stream_before]
        show us.length < (t :: ts).length + 0 + 2 * 0 + 2
        rw [List.length_cons]
        omega
      · rw [Cursor.stream_before]
        show us.length < us.length + 0 + 2 * 0 + 2 + 1
        omega
  · rfl

/-- What holds in front of a loop and is kept by its body holds behind the loop, where the tokens
are at their end or the next one is not admitted. -/
theorem of_run_repeatWhile {σ : Type} {admits : σ → Token → Bool} {body : σ → Token → Production σ}
    {motive : σ → List Token → Prop}
    (hbody : ∀ s t ts s' us b q, motive s (t :: ts) → admits s t = true →
      (body s t).run (.before ts t.isLineEnd t.position) = (.ok s', .before us b q) → motive s' us)
    {s s' : σ} {ts us : List Token} {b b' : Bool} {q q' : Position} (hs : motive s ts)
    (h : (repeatWhile s admits body).run (.before ts b q) = (.ok s', .before us b' q')) :
    motive s' us ∧ ∀ t ∈ us.head?, admits s' t = false := by
  -- the body may take any number of tokens, so the induction is on how many are left
  induction hn : ts.length using Nat.strongRecOn generalizing s ts b q with
  | _ n ih =>
    cases ts with
    | nil =>
      rw [run_repeatWhile_nil] at h
      cases h
      exact ⟨hs, by simp⟩
    | cons t ts =>
      rw [run_repeatWhile_cons] at h
      split_ifs at h with ha
      · obtain ⟨-, vs, b₁, q₁, hc⟩ := run_listed (body s t) ts t.isLineEnd t.position
        rcases hr : (body s t).run (.before ts t.isLineEnd t.position) with ⟨_ | s₁, d⟩
        · rw [hr] at h
          cases h
        · rw [hr] at hc h
          obtain rfl : d = Cursor.before vs b₁ q₁ := hc
          have hlen : vs.length < n := by
            have hleft : vs.length ≤ ts.length := (run_suffix hr).length_le
            rw [List.length_cons] at hn
            omega
          exact ih vs.length hlen (hbody s t ts s₁ vs b₁ q₁ hs ha hr) h rfl
      · cases h
        exact ⟨hs, by simpa using ha⟩

/-- A loop that fails does so in its body, behind one of the tokens that it took. -/
theorem of_run_repeatWhile_error {σ : Type} {admits : σ → Token → Bool}
    {body : σ → Token → Production σ} {s : σ} {e : Stop} {ts us : List Token} {b b' : Bool}
    {q q' : Position}
    (h : (repeatWhile s admits body).run (.before ts b q) = (.error e, .before us b' q')) :
    ∃ s' t vs, t :: vs <:+ ts
      ∧ (body s' t).run (.before vs t.isLineEnd t.position) = (.error e, .before us b' q') := by
  -- the body may take any number of tokens, so the induction is on how many are left
  induction hn : ts.length using Nat.strongRecOn generalizing s ts b q with
  | _ n ih =>
    cases ts with
    | nil =>
      rw [run_repeatWhile_nil] at h
      cases h
    | cons t ts =>
      rw [run_repeatWhile_cons] at h
      split_ifs at h
      · obtain ⟨-, vs, b₁, q₁, hc⟩ := run_listed (body s t) ts t.isLineEnd t.position
        rcases hr : (body s t).run (.before ts t.isLineEnd t.position) with ⟨_ | s₁, d⟩
        · rw [hr] at h
          exact ⟨s, t, ts, List.suffix_rfl, hr.trans h⟩
        · rw [hr] at hc h
          obtain rfl : d = Cursor.before vs b₁ q₁ := hc
          have hsuffix := run_suffix hr
          have hlen : vs.length < n := by
            have hleft : vs.length ≤ ts.length := hsuffix.length_le
            rw [List.length_cons] at hn
            omega
          obtain ⟨s', u, ws, hbehind, hbody⟩ := ih vs.length hlen h rfl
          exact ⟨s', u, ws, (hbehind.trans hsuffix).trans (List.suffix_cons t ts), hbody⟩
      · cases h

end Manuscript.Production
