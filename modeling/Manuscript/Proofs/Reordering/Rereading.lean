import Manuscript.Proofs.Canonical.Read
import Manuscript.Proofs.Grammar.Confined

/-!
# Reading the same tokens again

A production that read some tokens reads them again elsewhere: at other positions, and in front of
other tokens. `Rereads` states this of a production that stays inside a line, and `RereadsLine` of
one that reads to the end of a line. Both are about two productions, because what comes behind a
value that was read depends on it, and the second value is only the same up to positions.

* `Rereads.bind`, `Rereads.ahead`, `Rereads.repeatWhile`: the rules for the parts of a production.
* `RereadsLine.bind`: the last part of a line is read behind the others.
* `rereads_literal`, `rereadsLine_literalsLine`: texts and lists of texts.
-/

namespace Manuscript

open Canonical

namespace Grammar

open Production

/-- Three productions in a row. -/
theorem bind_assoc {α β γ : Type} (p : Production α) (f : α → Production β) (g : β → Production γ) :
    (p >>= f) >>= g = p >>= fun a => f a >>= g := by
  induction p with
  | done a => rfl
  | fail e => rfl
  | peek offset next ih => exact congrArg (peek offset) (funext fun t => ih t f)
  | take next ih => exact congrArg take (ih f)
  | lastPosition next ih => exact congrArg lastPosition (funext fun q => ih q f)
  | atLineStart next ih => exact congrArg atLineStart (funext fun b => ih b f)
  | loop s admits body next _ ih => exact congrArg (loop s admits body) (funext fun a => ih a f)
  | attempt inner next _ ih => exact congrArg (attempt inner) (funext fun r => ih r f)

/-! ## The rest of a line -/

/-- The tokens of the rest of a line: the last one ends it, and no other does. -/
inductive LineRest : List Token → Prop
  | stop {t : Token} (h : t.isLineEnd = true) : LineRest [t]
  | cons {t : Token} {ts : List Token} (h : t.isLineEnd = false) (hts : LineRest ts) :
      LineRest (t :: ts)

section LineRest

variable {t : Token} {ts : List Token}

theorem LineRest.ne_nil (h : LineRest ts) : ts ≠ [] := by
  cases h with
  | stop | cons => exact List.cons_ne_nil _ _

theorem LineRest.tail (h : LineRest (t :: ts)) (ht : t.isLineEnd = false) : LineRest ts := by
  cases h with
  | stop hstop =>
    rw [ht] at hstop
    cases hstop
  | cons _ hts => exact hts

theorem LineRest.eq_stop (h : LineRest (t :: ts)) (ht : t.isLineEnd = true) : ts = [] := by
  cases h with
  | stop => rfl
  | cons hgo =>
    rw [ht] at hgo
    cases hgo

end LineRest

/-- The tokens begin like others, up to the position of the first. -/
def BeginsLike (es ts : List Token) : Prop :=
  ts.head?.map Token.unplaced = es.head?.map Token.unplaced

/-- What stands behind some tokens begins like the rest of the line that they are part of. -/
theorem beginsLike_append {done left ts rest : List Token}
    (hts : ts.map Token.unplaced = done.map Token.unplaced) (hrest : BeginsLike left rest) :
    BeginsLike (done ++ left) (ts ++ rest) := by
  cases done with
  | nil =>
    obtain rfl := List.map_eq_nil_iff.mp hts
    exact hrest
  | cons e done =>
    obtain ⟨t, us, rfl, ht, -⟩ := List.map_eq_cons_iff.mp hts
    exact congrArg some ht

/-! ## Reading inside a line -/

variable {α β σ : Type}

/-- What a loop did with a token that it took, and what it did behind that. -/
theorem of_run_repeatWhile_cons {admits : σ → Token → Bool} {body : σ → Token → Production σ}
    {s a : σ} {t : Token} {ts us : List Token} {b b' : Bool} {q q' : Position}
    (ha : admits s t = true)
    (h : (repeatWhile s admits body).run (.before (t :: ts) b q) = (.ok a, .before us b' q')) :
    ∃ s₁ vs b₁ q₁, (body s t).run (.before ts t.isLineEnd t.position) = (.ok s₁, .before vs b₁ q₁)
      ∧ (repeatWhile s₁ admits body).run (.before vs b₁ q₁) = (.ok a, .before us b' q') := by
  rw [run_repeatWhile_cons, if_pos ha] at h
  obtain ⟨-, vs, b₁, q₁, hc⟩ := run_listed (body s t) ts t.isLineEnd t.position
  rcases hbody : (body s t).run (.before ts t.isLineEnd t.position) with ⟨_ | s₁, c⟩
  · rw [hbody] at h
    cases h
  · rw [hbody] at hc h
    obtain rfl : c = Cursor.before vs b₁ q₁ := hc
    rw [andThen_ok] at h
    exact ⟨s₁, vs, b₁, q₁, rfl, h⟩

/-- What the first production reads of a line, the second reads again, in front of anything that
begins like the rest of the line. -/
def Rereads (p p' : Production α) (same : α → α → Prop) : Prop :=
  ∀ ts rest b q a us b' q', LineRest ts →
    p.run (.before (ts ++ rest) b q) = (.ok a, .before us b' q') →
      ∃ done left, ts = done ++ left ∧ LineRest left ∧ us = left ++ rest
        ∧ Reads p' (done.map Token.unplaced) (BeginsLike left) (same a)

variable {p p' : Production α} {same : α → α → Prop} {same' : β → β → Prop}

theorem Rereads.done {a a' : α} (h : same a a') : Rereads (done a) (done a') same := by
  intro ts rest b q x us b' q' hts hr
  cases hr
  exact ⟨[], ts, rfl, hts, rfl, .done h⟩

theorem Rereads.pure {a a' : α} (h : same a a') :
    Rereads (Pure.pure a) (Pure.pure a') same := Rereads.done h

theorem Rereads.fail {e : SyntaxError} : Rereads (fail e) p' same := by
  intro ts rest b q a us b' q' _ hr
  cases hr

theorem Rereads.refuse {expected : String} : Rereads (refuse expected) p' same := by
  intro ts rest b q a us b' q' _ hr
  exact (not_ok_of_refuse hr).elim

theorem Rereads.bind {k k' : α → Production β} (hp : Rereads p p' same)
    (hk : ∀ a a', same a a' → Rereads (k a) (k' a') same') :
    Rereads (p >>= k) (p' >>= k') same' := by
  intro ts rest b q y us b' q' hts hr
  obtain ⟨x, vs, b₁, q₁, hx, hy⟩ := of_run_bind_before hr
  obtain ⟨done, mid, rfl, hmid, rfl, hreads⟩ := hp ts rest b q x vs b₁ q₁ hts hx
  -- the second production has a value, so that it is known what comes behind it
  obtain ⟨x', _, _, _, hsame⟩ := hreads done mid b q rfl rfl
  obtain ⟨more, left, rfl, hleft, rfl, -⟩ := hk x x' hsame mid rest b₁ q₁ y us b' q' hmid hy
  refine ⟨done ++ more, left, (List.append_assoc ..).symm, hleft, rfl, ?_⟩
  rw [List.map_append]
  refine hreads.bind (fun _ _ => beginsLike_append) fun a' ha' => ?_
  obtain ⟨more', left', heq, -, hus, hreads'⟩ := hk x a' ha' _ rest b₁ q₁ y _ b' q' hmid hy
  obtain rfl : left = left' := List.append_cancel_right hus
  obtain rfl : more = more' := List.append_cancel_right heq
  exact hreads'

/-- The value is made into another one. -/
theorem Rereads.map {f f' : α → β} (hp : Rereads p p' same)
    (h : ∀ a a', same a a' → same' (f a) (f' a')) :
    Rereads (p >>= fun a => Pure.pure (f a)) (p' >>= fun a => Pure.pure (f' a)) same' :=
  hp.bind fun a a' ha => .pure (h a a' ha)

/-- A look at the next token, which is then taken or left. No end of a line is taken. -/
theorem Rereads.ahead {f f' : Option Token → Production α} (admits : Token → Bool)
    (htake : ∀ t t', t'.unplaced = t.unplaced → admits t = true → t.isLineEnd = false ∧
      ∃ k k', f (some t) = (skip >>= fun _ => k) ∧ f' (some t') = (skip >>= fun _ => k')
        ∧ Rereads k k' same)
    (hleave : ∀ t t', t'.unplaced = t.unplaced → admits t = false →
      Rereads (f (some t)) (f' (some t')) same) :
    Rereads (peekAt 0 >>= f) (peekAt 0 >>= f') same := by
  intro ts rest b q a us b' q' hts hr
  obtain ⟨t, ts, rfl⟩ := List.exists_cons_of_ne_nil hts.ne_nil
  rw [run_bind, run_peekAt, andThen_ok] at hr
  by_cases ht : admits t = true
  · obtain ⟨hmid, k, _, hk, -, -⟩ := htake t t rfl ht
    have hrest := hts.tail hmid
    have hrun : k.run (.before (ts ++ rest) t.isLineEnd t.position)
        = (.ok a, .before us b' q') := by
      rw [List.cons_append, List.getElem?_cons_zero, hk, run_bind, run_skip_cons, andThen_ok] at hr
      exact hr
    have hall : ∀ t' : Token, t'.unplaced = t.unplaced → ∃ k', f' (some t') = (skip >>= fun _ => k')
        ∧ ∃ done left, ts = done ++ left ∧ LineRest left ∧ us = left ++ rest
          ∧ Reads k' (done.map Token.unplaced) (BeginsLike left) (same a) := by
      intro t' ht'
      obtain ⟨-, k₁, k', hk₁, hk', hrereads⟩ := htake t t' ht' ht
      have hrun' : k₁.run (.before (ts ++ rest) t.isLineEnd t.position)
          = (.ok a, .before us b' q') := by
        rw [List.cons_append, List.getElem?_cons_zero, hk₁, run_bind, run_skip_cons,
          andThen_ok] at hr
        exact hr
      exact ⟨k', hk', hrereads ts rest _ _ a us b' q' hrest hrun'⟩
    obtain ⟨_, -, done, left, rfl, hleft, rfl, -⟩ := hall t rfl
    refine ⟨t :: done, left, rfl, hleft, rfl, ?_⟩
    refine Reads.ahead fun t' ht' => ?_
    obtain ⟨k', hk', done', left', heq, -, hus, hreads⟩ := hall t' ht'
    obtain rfl : left = left' := List.append_cancel_right hus
    obtain rfl : done = done' := List.append_cancel_right heq
    exact ⟨k', hk', hreads⟩
  · have hleft (t' : Token) (ht' : t'.unplaced = t.unplaced) :=
      hleave t t' ht' (by simpa using ht) (t :: ts) rest b q a us b' q' hts hr
    obtain ⟨done, left, heq, hrest, rfl, -⟩ := hleft t rfl
    refine ⟨done, left, heq, hrest, rfl, ?_⟩
    intro vs rest' c r hvs hnext
    -- the same token stands in front, whether it is left or not
    have hhead : BeginsLike (t :: ts) (vs ++ rest') := by
      rw [heq]
      exact beginsLike_append hvs hnext
    obtain ⟨t', hhead', ht'⟩ := Option.map_eq_some_iff.mp hhead
    obtain ⟨done', left', heq', -, hus, hreads⟩ := hleft t' ht'
    obtain rfl : left = left' := List.append_cancel_right hus
    obtain rfl : done = done' := List.append_cancel_right (heq.symm.trans heq')
    obtain ⟨a', c', r', ha', hsame⟩ := hreads vs rest' c r hvs hnext
    refine ⟨a', c', r', ?_, hsame⟩
    rw [run_bind, run_peekAt, andThen_ok, ← List.head?_eq_getElem?, hhead']
    exact ha'

/-- A loop reads again what its body reads again. It takes no end of a line. -/
theorem Rereads.repeatWhile {same : σ → σ → Prop} {admits : σ → Token → Bool}
    {body : σ → Token → Production σ}
    (hadmits : ∀ s s' t t', same s s' → t'.unplaced = t.unplaced → admits s' t' = admits s t)
    (hmid : ∀ s t, admits s t = true → t.isLineEnd = false)
    (hbody : ∀ s s' t t', same s s' → t'.unplaced = t.unplaced → admits s t = true →
      Rereads (body s t) (body s' t') same)
    {s s' : σ} (hs : same s s') :
    Rereads (repeatWhile s admits body) (repeatWhile s' admits body) same := by
  intro ts rest b q a us b' q' hts hr
  -- the body may take any number of tokens, so the induction is on how many are left
  induction hn : ts.length using Nat.strongRecOn generalizing s s' ts b q with
  | _ n ih =>
    obtain ⟨t, ts, rfl⟩ := List.exists_cons_of_ne_nil hts.ne_nil
    rw [List.cons_append] at hr
    by_cases ha : admits s t = true
    · obtain ⟨s₁, vs, b₁, q₁, hbodyrun, hr⟩ := of_run_repeatWhile_cons ha hr
      have hrest := hts.tail (hmid s t ha)
      have hfirst (t' : Token) (ht' : t'.unplaced = t.unplaced) :=
        hbody s s' t t' hs ht' ha ts rest _ _ s₁ vs b₁ q₁ hrest hbodyrun
      obtain ⟨done, mid, rfl, hmidrest, rfl, hreads⟩ := hfirst t rfl
      have hlength : mid.length < n := by
        rw [← hn, List.length_cons, List.length_append]
        omega
      have hnext (s₂ : σ) (hs₂ : same s₁ s₂) :=
        ih mid.length hlength hs₂ mid b₁ q₁ hmidrest hr rfl
      obtain ⟨s₂, _, _, _, hs₂⟩ := hreads done mid t.isLineEnd t.position rfl rfl
      obtain ⟨more, left, rfl, hleft, rfl, -⟩ := hnext s₂ hs₂
      refine ⟨t :: (done ++ more), left, by simp, hleft, rfl, ?_⟩
      rw [List.map_cons, List.map_append]
      refine Reads.loop_cons (f := BeginsLike (more ++ left)) (g := same s₁) ?_ ?_ ?_ ?_
      · intro t' ht'
        rw [hadmits s s' t t' hs ht', ha]
      · intro t' ht'
        obtain ⟨done', mid', heq, -, hus, hreads'⟩ := hfirst t' ht'
        obtain rfl : more ++ left = mid' := List.append_cancel_right hus
        obtain rfl : done = done' := List.append_cancel_right heq
        exact hreads'
      · exact fun _ _ => beginsLike_append
      · intro s₃ hs₃
        obtain ⟨more', left', heq, -, hus, hreads'⟩ := hnext s₃ hs₃
        obtain rfl : left = left' := List.append_cancel_right hus
        obtain rfl : more = more' := List.append_cancel_right heq
        exact hreads'
    · rw [run_repeatWhile_cons, if_neg ha] at hr
      cases hr
      refine ⟨[], t :: ts, rfl, hts, rfl, .loop_nil (fun rest' hrest' t' ht' => ?_) hs⟩
      have hhead : t'.unplaced = t.unplaced := by
        unfold BeginsLike at hrest'
        rw [Option.mem_def] at ht'
        rw [ht'] at hrest'
        exact Option.some.inj hrest'
      rw [hadmits _ s' t t' hs hhead]
      simpa using ha

/-! ## Reading to the end of a line -/

/-- The first production reads lines to their end, and the second reads them again, whatever stands
behind them. -/
def RereadsLine (p p' : Production α) (same : α → α → Prop) : Prop :=
  ∀ ts rest b q a us b' q', LineRest ts →
    p.run (.before (ts ++ rest) b q) = (.ok a, .before us b' q') →
      us = rest ∧ Reads p' (ts.map Token.unplaced) Anything (same a)

/-- The last part of a line is read behind the others. -/
theorem RereadsLine.bind {k k' : α → Production β} (hp : Rereads p p' same)
    (hk : ∀ a a', same a a' → RereadsLine (k a) (k' a') same') :
    RereadsLine (p >>= k) (p' >>= k') same' := by
  intro ts rest b q y us b' q' hts hr
  obtain ⟨x, vs, b₁, q₁, hx, hy⟩ := of_run_bind_before hr
  obtain ⟨done, left, rfl, hleft, rfl, hreads⟩ := hp ts rest b q x vs b₁ q₁ hts hx
  obtain ⟨x', _, _, _, hsame⟩ := hreads done left b q rfl rfl
  have hrest : us = rest := (hk x x' hsame left rest b₁ q₁ y us b' q' hleft hy).1
  refine ⟨hrest, ?_⟩
  rw [List.map_append]
  refine hreads.bind (fun us rest' hus _ => ?_) fun a' ha' =>
    (hk x a' ha' left rest b₁ q₁ y us b' q' hleft hy).2
  -- what is left of the line begins like itself
  cases left with
  | nil => exact absurd rfl hleft.ne_nil
  | cons e left =>
    obtain ⟨u, vs, rfl, hu, -⟩ := List.map_eq_cons_iff.mp hus
    exact congrArg some hu

theorem RereadsLine.fail {e : SyntaxError} : RereadsLine (fail e) p' same := by
  intro ts rest b q a us b' q' _ hr
  cases hr

/-- The production asks for no token: it gives a value or fails. -/
def Idle (p : Production α) : Prop := ∀ a c d, p.run c = (.ok a, d) → p = .done a

theorem idle_pure (a : α) : Idle (Pure.pure a) := by
  intro x c d hr
  cases hr
  rfl

theorem idle_fail (e : SyntaxError) : Idle (fail e : Production α) := by
  intro x c d hr
  cases hr

theorem Idle.cursor_eq {a : α} {c e : Cursor} (h : Idle p) (hr : p.run c = (.ok a, e)) : e = c := by
  have hp := h a c e hr
  subst hp
  cases hr
  rfl

/-- What is made of a line takes nothing more. -/
theorem RereadsLine.settle {k k' : α → Production β} (hp : RereadsLine p p' same)
    (hidle : ∀ a, Idle (k a))
    (hk : ∀ a a' y, same a a' → k a = .done y → ∃ y', k' a' = .done y' ∧ same' y y') :
    RereadsLine (p >>= k) (p' >>= k') same' := by
  intro ts rest b q y us b' q' hts hr
  obtain ⟨x, vs, b₁, q₁, hx, hy⟩ := of_run_bind_before hr
  obtain ⟨rfl, hreads⟩ := hp ts rest b q x vs b₁ q₁ hts hx
  cases (hidle x).cursor_eq hy
  refine ⟨rfl, ?_⟩
  rw [← List.append_nil (ts.map Token.unplaced)]
  refine hreads.andThen fun a' ha' => ?_
  obtain ⟨y', hy', hsame'⟩ := hk x a' y ha' (hidle x y _ _ hy)
  rw [hy']
  exact .done hsame'

theorem RereadsLine.map {f f' : α → β} (hp : RereadsLine p p' same)
    (h : ∀ a a', same a a' → same' (f a) (f' a')) :
    RereadsLine (p >>= fun a => Pure.pure (f a)) (p' >>= fun a => Pure.pure (f' a)) same' := by
  refine hp.settle (fun a => idle_pure (f a)) fun a a' y ha hy => ?_
  cases hy
  exact ⟨f' a', rfl, h a a' ha⟩

theorem rereadsLine_lineEnd : RereadsLine lineEnd lineEnd fun _ _ => True := by
  intro ts rest b q a us b' q' hts hr
  obtain ⟨t, ts, rfl⟩ := List.exists_cons_of_ne_nil hts.ne_nil
  rcases of_run_lineEnd hr with ⟨hnil, -⟩ | ⟨u, vs, heq, hu, hc⟩
  · cases hnil
  · cases heq
    obtain rfl := hts.eq_stop hu
    cases hc
    refine ⟨rfl, ?_⟩
    intro vs rest' c r hvs _
    obtain ⟨v, ws, rfl, hv, hws⟩ := List.map_eq_cons_iff.mp hvs
    obtain rfl := List.map_eq_nil_iff.mp hws
    have hline : v.isLineEnd = true := by
      obtain ⟨hk, -, -⟩ := of_unplaced_eq hv
      unfold Token.isLineEnd
      rw [hk]
      exact hu
    exact ⟨(), _, _, run_lineEnd hline, trivial⟩

/-! ## Texts -/

/-- Tokens that are the same up to positions are of one kind and say the same. -/
theorem eq_of_unplaced {t t' : Token} (h : t'.unplaced = t.unplaced) :
    t'.kind = t.kind ∧ t'.value = t.value ∧ t'.indent = t.indent :=
  ⟨(of_unplaced_eq h).1, (of_unplaced_eq h).2.1, (of_unplaced_eq h).2.2⟩

theorem isText_eq {t t' : Token} (h : t'.unplaced = t.unplaced) : t'.isText = t.isText := by
  unfold Token.isText
  rw [(eq_of_unplaced h).1]

theorem isSeparator_eq {t t' : Token} (h : t'.unplaced = t.unplaced) :
    t'.isSeparator = t.isSeparator := by
  unfold Token.isSeparator
  rw [(eq_of_unplaced h).1]

theorem isLineEnd_eq {t t' : Token} (h : t'.unplaced = t.unplaced) :
    t'.isLineEnd = t.isLineEnd := by
  unfold Token.isLineEnd
  rw [(eq_of_unplaced h).1]

theorem keyword_eq {t t' : Token} (h : t'.unplaced = t.unplaced) : t'.keyword? = t.keyword? := by
  unfold Token.keyword? Token.isKeyword
  rw [(eq_of_unplaced h).1, (eq_of_unplaced h).2.1]

theorem literal_eq {t t' : Token} (h : t'.unplaced = t.unplaced) :
    t'.literal.unplaced = t.literal.unplaced := by
  unfold Token.literal Literal.unplaced
  rw [(eq_of_unplaced h).2.1]

/-- Literals are the same up to positions. -/
def SameText (l l' : Literal) : Prop := l'.unplaced = l.unplaced

/-- Lists of literals are the same up to positions. -/
def SameList (ls ls' : List Literal) : Prop :=
  ls'.map Literal.unplaced = ls.map Literal.unplaced

/-- Lists of literals on a line are the same up to positions, and there is a literal. -/
structure SameTexts (ls ls' : List Literal) : Prop where
  texts : SameList ls ls'
  ne_nil : ls ≠ []

theorem SameList.concat {ls ls' : List Literal} {l l' : Literal} (h : SameList ls ls')
    (hl : SameText l l') : SameTexts (ls ++ [l]) (ls' ++ [l']) := by
  unfold SameList SameText at *
  refine ⟨?_, by simp⟩
  unfold SameList
  simp [h, hl]

theorem rereads_literal (expected : String) :
    Rereads (literal expected) (literal expected) SameText := by
  unfold literal
  refine .ahead Token.isText (fun t t' ht htext => ?_) fun t t' ht htext => ?_
  · refine ⟨Token.not_isLineEnd (by decide) htext, _, _, if_pos htext, ?_, .done (literal_eq ht)⟩
    exact if_pos ((isText_eq ht).trans htext)
  · dsimp only
    rw [htext, if_neg Bool.false_ne_true]
    exact .refuse

theorem rereads_moreLiterals (expected : String) {items items' : List Literal}
    (h : SameTexts items items') :
    Rereads (moreLiterals expected items) (moreLiterals expected items') SameTexts := by
  unfold moreLiterals
  refine .repeatWhile (fun _ _ t t' _ ht => isSeparator_eq ht)
    (fun _ t ht => Token.not_isLineEnd (by decide) ht) (fun ls ls' t t' hls _ _ => ?_) h
  exact (rereads_literal expected).map fun l l' hl => hls.texts.concat hl

theorem rereads_literals (expected : String) :
    Rereads (literals expected) (literals expected) SameTexts := by
  unfold literals
  refine (rereads_literal expected).bind fun l l' hl => ?_
  have hnone : SameList [] [] := rfl
  exact rereads_moreLiterals expected (hnone.concat hl)

theorem rereadsLine_literalLine (expected : String) :
    RereadsLine (literalLine expected) (literalLine expected) SameText := by
  unfold literalLine
  refine .bind (rereads_literal expected) fun l l' hl => ?_
  exact rereadsLine_lineEnd.map fun _ _ _ => hl

theorem rereadsLine_literalsLine (expected : String) :
    RereadsLine (literalsLine expected) (literalsLine expected) SameTexts := by
  unfold literalsLine
  refine .bind (rereads_literals expected) fun ls ls' hls => ?_
  exact rereadsLine_lineEnd.map fun _ _ _ => hls

end Grammar

end Manuscript
