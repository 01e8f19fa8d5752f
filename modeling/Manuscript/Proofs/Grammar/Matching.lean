import Manuscript.Proofs.Grammar.Lookahead
import Manuscript.Proofs.Grammar.Lines

/-!
# Readings and productions

When a reading with lookahead gives what the productions give that are run behind the tokens that it
is handed. A reading that is stuck gives nothing of the kind.

* `Same`: a reading and a run have one outcome. Behind an error the reading may stand in front of
  one token more, as long as no section may begin there.
* `Takes`: a reading that is handed a token does what a production does behind it.
* `same_loop`: the loop of a reading does what the loop of a production does, if each round does.
-/

namespace Manuscript.Grammar.Ahead

open Production

variable {α β σ τ : Type} {start : Position} {t : Token} {ts : List Token} {b : Bool}
  {q : Position}

/-! ## One outcome -/

/-- The first cursor stands where the second one does, or in front of a token that the second one
stands behind and that no section may begin with. -/
inductive Overtaken (start : Position) : Cursor → Cursor → Prop where
  | same (c : Cursor) : Overtaken start c c
  | behind {t : Token} {ts : List Token} {b : Bool} {q : Position} (h : stops start b t = false) :
      Overtaken start (.before (t :: ts) b q) (.before ts t.isLineEnd t.position)

/-- What a reading gives is what a run gives. -/
inductive Same (start : Position) :
    EStateM.Result Halt Cursor α → Except Stop α × Cursor → Prop where
  | ok (a : α) (c : Cursor) : Same start (.ok a c) (.ok a, c)
  | error (e : Stop) {c d : Cursor} (h : Overtaken start c d) :
      Same start (.error (.stopped e) c) (.error e, d)

/-- What a run gives is what the reading gives. -/
theorem Same.eq_of_ok {r : EStateM.Result Halt Cursor α} {a : α} {c : Cursor}
    (h : Same start r (.ok a, c)) : r = .ok a c := by
  cases h with
  | ok => rfl

theorem lift_of_ok {p : Production α} {c d : Cursor} {a : α} (h : p.run c = (.ok a, d)) :
    lift p c = .ok a d := by
  unfold lift
  rw [h]

theorem lift_of_error {p : Production α} {c d : Cursor} {e : Stop} (h : p.run c = (.error e, d)) :
    lift p c = .error (.stopped e) d := by
  unfold lift
  rw [h]

theorem bind_of_ok {r : Reading α} {f : α → Reading β} {c d : Cursor} {a : α}
    (h : r c = .ok a d) : (r >>= f) c = f a d := by
  show EStateM.bind r f c = f a d
  unfold EStateM.bind
  rw [h]

theorem bind_of_error {r : Reading α} {f : α → Reading β} {c d : Cursor} {e : Halt}
    (h : r c = .error e d) : (r >>= f) c = .error e d := by
  show EStateM.bind r f c = .error e d
  unfold EStateM.bind
  rw [h]

/-- Looking at the next token takes nothing. -/
theorem shown_before : shown (.before ts b q) = .ok ts[0]? (.before ts b q) := rfl

theorem advance_before : advance (.before (t :: ts) b q) =
    .ok () (.before ts t.isLineEnd t.position) := lift_of_ok (run_skip_cons t)

/-- A production that is lifted gives what it gives. -/
theorem Same.lift (p : Production α) (c : Cursor) : Same start (lift p c) (p.run c) := by
  unfold Ahead.lift
  rcases p.run c with ⟨e | a, d⟩
  · exact .error e (.same d)
  · exact .ok a d

/-- One outcome, and one behind it. -/
theorem Same.bind {r : Reading α} {p : Production α} {f : α → Reading β} {g : α → Production β}
    {c d : Cursor} (h : Same start (r c) (p.run d))
    (hf : ∀ a e, p.run d = (.ok a, e) → Same start (f a e) ((g a).run e)) :
    Same start ((r >>= f) c) ((p >>= g).run d) := by
  rw [run_bind]
  show Same start (EStateM.bind r f c) _
  unfold EStateM.bind
  generalize r c = x at h
  generalize hp : p.run d = y at h hf
  cases h with
  | ok a e => exact hf a e rfl
  | error e ho => exact .error e ho

/-! ## Readings that match a production -/

/-- In front of any tokens, a reading gives what a production gives. -/
def Matches (start : Position) (r : Reading α) (p : Production α) : Prop :=
  ∀ ts b q, Same start (r (.before ts b q)) (p.run (.before ts b q))

/-- A reading that is handed a token gives what a production gives behind the token, if no section
may begin with it. -/
def Takes (start : Position) (t : Token) (r : Reading α) (p : Production α) : Prop :=
  ∀ ts b q, stops start b t = false →
    Same start (r (.before (t :: ts) b q)) (p.run (.before ts t.isLineEnd t.position))

theorem Matches.lift (p : Production α) : Matches start (lift p) p := fun _ _ _ => .lift p _

theorem Matches.pure (a : α) : Matches start (pure a) (pure a) := fun _ _ _ => .ok a _

theorem Matches.failed (e : SyntaxError) :
    Matches start (failed e : Reading α) (fail e) := .lift (fail e)

/-- The rest of a match, in front of the tokens that the first part leaves. -/
theorem Same.bind_matches {r : Reading α} {p : Production α} {f : α → Reading β}
    {g : α → Production β} {c : Cursor} (h : Same start (r c) (p.run (.before ts b q)))
    (hf : ∀ a, Matches start (f a) (g a)) :
    Same start ((r >>= f) c) ((p >>= g).run (.before ts b q)) := by
  apply h.bind
  intro a e hrun
  obtain ⟨-, us, b', q', hc⟩ := run_listed p ts b q
  rw [hrun] at hc
  obtain rfl : e = .before us b' q' := hc
  exact hf a us b' q'

theorem Matches.bind {r : Reading α} {p : Production α} {f : α → Reading β}
    {g : α → Production β} (h : Matches start r p) (hf : ∀ a, Matches start (f a) (g a)) :
    Matches start (r >>= f) (p >>= g) := fun ts b q => (h ts b q).bind_matches hf

theorem Matches.ite {c : Prop} [Decidable c] {r r' : Reading α} {p p' : Production α}
    (h : Matches start r p) (h' : Matches start r' p') :
    Matches start (if c then r else r') (if c then p else p') := by
  split
  · exact h
  · exact h'

theorem Takes.bind {r : Reading α} {p : Production α} {f : α → Reading β}
    {g : α → Production β} (h : Takes start t r p) (hf : ∀ a, Matches start (f a) (g a)) :
    Takes start t (r >>= f) (p >>= g) := fun ts b q hs => (h ts b q hs).bind_matches hf

/-- What refuses the token that it is handed reports that token. -/
theorem Takes.refused (expected : String) :
    Takes start t (refused expected : Reading α) (fail (.unexpected expected t)) :=
  fun _ _ _ hs => .error _ (.behind hs)

/-- The token that was handed out is taken. -/
theorem Takes.advance {f : Unit → Reading α} {p : Production α} (h : Matches start (f ()) p) :
    Takes start t (advance >>= f) p := by
  intro ts b q _
  rw [bind_of_ok advance_before]
  exact h ts t.isLineEnd t.position

/-- What looks at the token that it is handed goes on with it. -/
theorem Takes.lift_peek {f : Option Token → Production α} {p : Production α}
    (h : Takes start t (Ahead.lift (f (some t))) p) :
    Takes start t (Ahead.lift (peekAt 0 >>= f)) p := by
  intro ts b q hs
  have hpeek : Ahead.lift (peekAt 0 >>= f) (.before (t :: ts) b q) =
      Ahead.lift (f (some t)) (.before (t :: ts) b q) := by
    unfold Ahead.lift
    rw [run_bind, run_peekAt, andThen_ok]
    rfl
  rw [hpeek]
  exact h ts b q hs

/-- What takes the token that it is handed goes on behind it. -/
theorem Takes.lift_skip (p : Production α) :
    Takes start t (Ahead.lift (skip >>= fun _ => p)) p := by
  intro ts b q _
  have hskip : Ahead.lift (skip >>= fun _ => p) (.before (t :: ts) b q) =
      Ahead.lift p (.before ts t.isLineEnd t.position) := by
    unfold Ahead.lift
    rw [run_bind, run_skip_cons, andThen_ok]
  rw [hskip]
  exact .lift p _

/-! ## Loops -/

/-- What comes of one round of a reading, told by a loop of a production: `out` is the state of the
reading at a state of that loop, and `inv` is known of the state in front of each round. -/
inductive Round (start : Position) (out : τ → σ) (inv : τ → Bool → List Token → Prop)
    (admits : τ → Token → Bool) (body : τ → Token → Production τ) (s : τ) :
    List Token → Bool → Position → EStateM.Result Halt Cursor (ForInStep σ) → Prop where
  /-- The loop is over, and nothing is taken. -/
  | ends {ts : List Token} {b : Bool} {q : Position} (h : ∀ t ∈ ts.head?, admits s t = false) :
      Round start out inv admits body s ts b q (.ok (.done (out s)) (.before ts b q))
  /-- The loop is over with what was taken. -/
  | last {t : Token} {ts us : List Token} {b b' : Bool} {q q' : Position} {s' : τ}
      (ha : admits s t = true)
      (hrun : (body s t).run (.before ts t.isLineEnd t.position) = (.ok s', .before us b' q'))
      (h : ∀ t, admits s' t = false) :
      Round start out inv admits body s (t :: ts) b q (.ok (.done (out s')) (.before us b' q'))
  /-- The loop goes on behind what was taken. -/
  | next {t : Token} {ts us : List Token} {b b' : Bool} {q q' : Position} {s' : τ}
      (ha : admits s t = true)
      (hrun : (body s t).run (.before ts t.isLineEnd t.position) = (.ok s', .before us b' q'))
      (h : inv s' b' us) :
      Round start out inv admits body s (t :: ts) b q (.ok (.yield (out s')) (.before us b' q'))
  /-- The loop is stopped by an error. -/
  | halt {t : Token} {ts : List Token} {b : Bool} {q : Position} {e : Stop} {c d : Cursor}
      (ha : admits s t = true)
      (hrun : (body s t).run (.before ts t.isLineEnd t.position) = (.error e, d))
      (h : Overtaken start c d) :
      Round start out inv admits body s (t :: ts) b q (.error (.stopped e) c)

/-- A round that hands a token to a reading goes on behind what the reading took. -/
theorem Round.of_same {admits : σ → Token → Bool} {body : σ → Token → Production σ} {s : σ}
    {r : Reading σ} (ha : admits s t = true)
    (h : Same start (r (.before (t :: ts) b q))
      ((body s t).run (.before ts t.isLineEnd t.position))) :
    Round start id (fun _ _ _ => True) admits body s (t :: ts) b q
      ((do return .yield (← r) : Reading (ForInStep σ)) (.before (t :: ts) b q)) := by
  show Round _ _ _ _ _ _ _ _ _ (EStateM.bind r _ _)
  unfold EStateM.bind
  generalize r (.before (t :: ts) b q) = x at h
  generalize hp : (body s t).run (.before ts t.isLineEnd t.position) = y at h
  cases h with
  | ok s' c =>
    obtain ⟨-, us, b', q', hc⟩ := run_listed (body s t) ts t.isLineEnd t.position
    rw [hp] at hc
    obtain rfl : c = .before us b' q' := hc
    exact .next ha hp trivial
  | error e ho => exact .halt ha hp ho

/-- If each round of a reading does what a round of the loop of a production does, the whole loop
does, and no round leaves it stuck. -/
theorem same_loop (out : τ → σ) (inv : τ → Bool → List Token → Prop) {admits : τ → Token → Bool}
    {body : τ → Token → Production τ} {round : σ → Reading (ForInStep σ)}
    (hround : ∀ s ts b q, inv s b ts →
      Round start out inv admits body s ts b q (round (out s) (.before ts b q)))
    (s : τ) (ts : List Token) (b : Bool) (q : Position) (hs : inv s b ts) :
    Same start (loop (out s) round (.before ts b q))
      ((do return out (← repeatWhile s admits body) : Production σ).run (.before ts b q)) := by
  -- a round may take any number of tokens, so the induction is on how many are left
  induction hn : ts.length using Nat.strongRecOn generalizing s ts b q with
  | _ n ih =>
    have h := hround s ts b q hs
    rw [run_bind]
    unfold loop rounds
    generalize round (out s) (.before ts b q) = r at h
    cases h with
    | ends hend =>
      have hrun : (repeatWhile s admits body).run (.before ts b q) = (.ok s, .before ts b q) := by
        cases ts with
        | nil => rw [run_repeatWhile_nil]
        | cons t ts => rw [run_repeatWhile_cons, if_neg (by simp [hend t rfl])]
      rw [hrun, andThen_ok]
      exact .ok _ _
    | @last t ts us b b' q q' s' ha hrun hlast =>
      have hend : (repeatWhile s' admits body).run (.before us b' q') =
          (.ok s', .before us b' q') := by
        cases us with
        | nil => rw [run_repeatWhile_nil]
        | cons t us => rw [run_repeatWhile_cons, if_neg (by simp [hlast t])]
      rw [run_repeatWhile_cons, if_pos ha, hrun, andThen_ok, hend, andThen_ok]
      exact .ok _ _
    | @next t ts us b b' q q' s' ha hrun hs' =>
      have hlength : us.length < (t :: ts).length := by
        have hle := (run_suffix hrun).length_le
        rw [List.length_cons]
        omega
      have htaken : (Cursor.before us b' q').window.queue.length <
          (Cursor.before (t :: ts) b q).window.queue.length := hlength
      rw [run_repeatWhile_cons, if_pos ha, hrun, andThen_ok]
      dsimp only
      rw [if_pos htaken, ← run_bind]
      exact ih us.length (hn ▸ hlength) s' us b' q' hs' rfl
    | halt ha hrun ho =>
      rw [run_repeatWhile_cons, if_pos ha, hrun]
      exact .error _ ho

end Manuscript.Grammar.Ahead
