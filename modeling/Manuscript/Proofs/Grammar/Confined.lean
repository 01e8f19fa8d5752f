import Manuscript.Proofs.Grammar.Lines
import Manuscript.Proofs.Token.Ascending
import Manuscript.Proofs.Token.Shape

/-!
# Productions that keep to their lines

A section that is read never takes the keyword that the next one begins with: it stops in front of
it, whether it succeeds or fails. `Confined` states this for a production, together with where its
error stands: not in front of a position that is known, and not behind the next token.

What a production may rely on and what it makes sure of is said of the cursor: whether the token
taken last ended a line, and which tokens stand in front of it.

* `lineStarts`, `keywordLines`: the lines of some tokens, and those that start with a keyword at
  depth 0.
* `Confined.bind`, `Confined.repeatWhile` and `Confined.block`: the rules for the parts of a
  production.
* `confined_fieldBlock`: a block of fields keeps to its lines.
-/

namespace Manuscript

/-! ## Lines -/

/-- The token is a keyword at depth 0. -/
def Token.isTopLevel (t : Token) : Bool := t.isKeyword && t.indent == 0

/-- A token of another kind is no keyword at depth 0. -/
theorem Token.not_isTopLevel {t : Token} {kind : TokenKind} (hk : kind ≠ .keyword)
    (h : (t.kind == kind) = true) : t.isTopLevel = false := by
  unfold Token.isTopLevel Token.isKeyword
  rw [eq_of_beq h]
  simp [hk]

/-- The first tokens of lines; `b` says that the first token of all starts one. -/
def lineStarts : Bool → List Token → List Token
  | _, [] => []
  | true, t :: ts => t :: lineStarts t.isLineEnd ts
  | false, t :: ts => lineStarts t.isLineEnd ts

/-- The first tokens of the lines that start with a keyword at depth 0. -/
def keywordLines (b : Bool) (ts : List Token) : List Token :=
  (lineStarts b ts).filter Token.isTopLevel

@[simp] theorem keywordLines_nil (b : Bool) : keywordLines b [] = [] := rfl

/-- A token that starts no such line is passed by. -/
theorem keywordLines_cons {b : Bool} {t : Token} (ts : List Token)
    (h : (b && t.isTopLevel) = false) : keywordLines b (t :: ts) = keywordLines t.isLineEnd ts := by
  cases b with
  | false => rfl
  | true => exact List.filter_cons_of_neg (by simpa using h)

theorem lineStarts_sublist (b : Bool) (ts : List Token) : (lineStarts b ts).Sublist ts := by
  induction ts generalizing b with
  | nil => exact .slnil
  | cons t ts ih =>
    cases b with
    | true => exact (ih _).cons_cons t
    | false => exact (ih _).cons t

theorem mem_of_mem_keywordLines {b : Bool} {ts : List Token} {t : Token}
    (h : t ∈ keywordLines b ts) : t ∈ ts :=
  (lineStarts_sublist b ts).subset (List.mem_of_mem_filter h)

/-- Tokens were passed by without one that starts a line as a keyword at depth 0. -/
structure Passed (b : Bool) (ts : List Token) (b' : Bool) (us : List Token) : Prop where
  lines : keywordLines b' us = keywordLines b ts
  starts : lineStarts b' us <:+ lineStarts b ts

namespace Passed

variable {b b' b'' : Bool} {ts us vs : List Token}

theorem refl (b : Bool) (ts : List Token) : Passed b ts b ts := ⟨rfl, List.suffix_rfl⟩

theorem trans (h : Passed b ts b' us) (h' : Passed b' us b'' vs) : Passed b ts b'' vs :=
  ⟨h'.lines.trans h.lines, h'.starts.trans h.starts⟩

/-- Passing by the first token. -/
theorem cons {t : Token} (h : (b && t.isTopLevel) = false) (ts : List Token) :
    Passed b (t :: ts) t.isLineEnd ts where
  lines := (keywordLines_cons ts h).symm
  starts := by
    cases b with
    | true => exact List.suffix_cons _ _
    | false => exact List.suffix_rfl

/-- Behind a line that is over another one starts. -/
theorem of_over (h : Passed b ts b' us) (hover : b' = true ∨ us = []) : Passed b ts true us := by
  rcases hover with rfl | rfl
  · exact h
  · exact ⟨h.lines, List.nil_suffix⟩

end Passed

/-! ## Cursors in a source -/

/-- The tokens in front of a cursor are those of a source that ends at `z`: they are indented as
they should be, and ascend behind the token that was taken last. -/
structure Aligned (z q : Position) (ts : List Token) : Prop where
  indented : Indented ts
  ascending : Ascending q.next ts z

namespace Aligned

variable {z q : Position} {t : Token} {ts : List Token}

theorem tail (h : Aligned z q (t :: ts)) : Aligned z t.position ts :=
  ⟨h.indented.suffix (List.suffix_cons t ts), h.ascending.2⟩

/-- The token that was taken last stands in front of the others. -/
theorem before (h : Aligned z q ts) (ht : t ∈ ts) : q.Before t.position :=
  Position.next_atOrBefore_iff.mp (h.ascending.atOrBefore t ht)

/-- The end may be brought forward to the last token. -/
theorem to_last (h : Aligned z q ts) {last : Token} (hlast : last ∈ ts.getLast?) :
    Aligned last.position.next q ts := ⟨h.indented, h.ascending.to_last hlast⟩

/-- The token that was taken last stands in front of the end. -/
theorem before_end (h : Aligned z q ts) : q.Before z :=
  Position.next_atOrBefore_iff.mp h.ascending.atOrBefore_end

end Aligned

/-- A position is not behind the token that was taken last, or it is that of the next token. -/
def Near (p q : Position) (ts : List Token) : Prop :=
  p.AtOrBefore q ∨ ∃ t ∈ ts.head?, p = t.position

/-- No token in front of the cursor stands in front of what is near. -/
theorem Near.atOrBefore {p z q : Position} {ts : List Token} (h : Near p q ts) (hq : Aligned z q ts)
    {t : Token} (ht : t ∈ ts) : p.AtOrBefore t.position := by
  rcases h with h | ⟨u, hu, rfl⟩
  · exact (h.trans_before (hq.before ht)).atOrBefore
  · cases ts with
    | nil => cases ht
    | cons v vs =>
      cases hu
      rcases List.mem_cons.mp ht with rfl | ht
      · exact .refl _
      · exact (hq.tail.before ht).atOrBefore

/-- What is near stands in front of the end. -/
theorem Near.before_end {p z q : Position} {ts : List Token} (h : Near p q ts)
    (hq : Aligned z q ts) : p.Before z := by
  rcases h with h | ⟨u, hu, rfl⟩
  · exact h.trans_before hq.before_end
  · cases ts with
    | nil => cases hu
    | cons v vs =>
      cases hu
      exact hq.tail.before_end

namespace Grammar

open Production

/-- What holds of a cursor: whether the token taken last ended a line, and the tokens in front. -/
abbrev Place := Bool → List Token → Prop

/-- Any place. -/
def anywhere : Place := fun _ _ => True

/-- The token that was taken last did not end a line. -/
def inLine : Place := fun b _ => b = false

/-- The token that was taken last ended a line, or there are no more tokens. -/
def lineOver : Place := fun b ts => b = true ∨ ts = []

/-- What a run leaves behind. An error of it does not stand in front of `lo`. -/
structure Kept {α : Type} (z lo : Position) (post : α → Place) (b : Bool) (ts : List Token)
    (q : Position) (r : Except Stop α) (b' : Bool) (us : List Token) (q' : Position) : Prop where
  passed : Passed b ts b' us
  aligned : Aligned z q' us
  last : q.AtOrBefore q'
  value : ∀ a, r = .ok a → post a b' us
  error : ∀ e, r = .error (.byGrammar e) → lo.AtOrBefore e.position ∧ Near e.position q' us

/-- What a run that gives a value leaves behind. -/
theorem Kept.ok {α : Type} {z lo q q' : Position} {post : α → Place} {b b' : Bool}
    {ts us : List Token} {a : α} (hpassed : Passed b ts b' us) (hal : Aligned z q' us)
    (hlast : q.AtOrBefore q') (h : post a b' us) : Kept z lo post b ts q (.ok a) b' us q' where
  passed := hpassed
  aligned := hal
  last := hlast
  value := by
    intro a ha
    cases ha
    exact h
  error := by
    intro e he
    cases he

/-- What a run that fails leaves behind. -/
theorem Kept.failed {α : Type} {z lo q q' : Position} {post : α → Place} {b b' : Bool}
    {ts us : List Token} {e : SyntaxError} (hpassed : Passed b ts b' us) (hal : Aligned z q' us)
    (hlast : q.AtOrBefore q') (hlo : lo.AtOrBefore e.position) (hnear : Near e.position q' us) :
    Kept z lo post b ts q (.error (.byGrammar e)) b' us q' where
  passed := hpassed
  aligned := hal
  last := hlast
  value := by
    intro a ha
    cases ha
  error := by
    intro e he
    cases he
    exact ⟨hlo, hnear⟩

/-- A production keeps to its lines. It knows the token at `hi`, which was taken already, and `lo`
is where the section begins that it is part of. -/
def Confined {α : Type} (lo hi : Position) (pre : Place) (p : Production α) (post : α → Place) :
    Prop :=
  ∀ z ts b q r us b' q', lo.AtOrBefore hi → hi.AtOrBefore q → Aligned z q ts → pre b ts →
    p.run (.before ts b q) = (r, .before us b' q') → Kept z lo post b ts q r b' us q'

variable {α β σ : Type} {lo hi : Position} {pre pre' : Place} {post post' : α → Place}

/-! ## Rules -/

theorem Confined.mono {p : Production α} (h : Confined lo hi pre p post)
    (hpre : ∀ b ts, pre' b ts → pre b ts) (hpost : ∀ a b ts, post a b ts → post' a b ts) :
    Confined lo hi pre' p post' := by
  intro z ts b q r us b' q' hlo hhi hal hp hr
  have hkept := h z ts b q r us b' q' hlo hhi hal (hpre b ts hp) hr
  exact { hkept with value := fun a ha => hpost a _ _ (hkept.value a ha) }

/-- What is asked for nowhere holds at every place. -/
theorem Confined.elsewhere {p : Production α} (h : Confined lo hi anywhere p post) :
    Confined lo hi pre p post := h.mono (fun _ _ _ => trivial) fun _ _ _ hp => hp

theorem Confined.done {a : α} (h : ∀ b ts, pre b ts → post a b ts) :
    Confined lo hi pre (done a) post := by
  intro z ts b q r us b' q' _ _ hal hp hr
  cases hr
  exact .ok (.refl b ts) hal (.refl q) (h b ts hp)

theorem Confined.pure {a : α} (h : ∀ b ts, pre b ts → post a b ts) :
    Confined lo hi pre (Pure.pure a) post := Confined.done h

/-- An error at the token that is known best. -/
theorem Confined.fail {e : SyntaxError} (h : e.position = hi) :
    Confined lo hi pre (fail e) post := by
  intro z ts b q r us b' q' hlo hhi hal _ hr
  cases hr
  rw [← h] at hlo hhi
  exact .failed (.refl b ts) hal (.refl q) hlo (.inl hhi)

/-- An error at the next token, or at the end of the source. -/
theorem Confined.refuse {expected : String} : Confined lo hi pre (refuse expected) post := by
  intro z ts b q r us b' q' hlo hhi hal _ hr
  unfold Production.refuse at hr
  rw [run_peek, Cursor.peek_before, andThen_ok] at hr
  cases ts with
  | nil =>
    cases hr
    exact .failed (.refl b []) hal (.refl q) (hlo.trans hhi) (.inl (.refl q))
  | cons t ts =>
    cases hr
    have hbehind : q.Before t.position := hal.before List.mem_cons_self
    exact .failed (.refl b (t :: ts)) hal (.refl q) ((hlo.trans hhi).trans hbehind.atOrBefore)
      (.inr ⟨t, rfl, rfl⟩)

theorem Confined.bind {p : Production α} {f : α → Production β} {mid : α → Place}
    {post : β → Place} (hp : Confined lo hi pre p mid)
    (hf : ∀ a, Confined lo hi (mid a) (f a) post) : Confined lo hi pre (p >>= f) post := by
  intro z ts b q r us b' q' hlo hhi hal hpre hr
  rw [run_bind] at hr
  obtain ⟨hl, vs, b₁, q₁, hc⟩ := run_listed p ts b q
  rcases hrun : p.run (.before ts b q) with ⟨x, c⟩
  rw [hrun] at hc hr hl
  obtain rfl : c = Cursor.before vs b₁ q₁ := hc
  have hkept := hp z ts b q x vs b₁ q₁ hlo hhi hal hpre hrun
  rcases x with (e | e) | a
  · cases hr
    obtain ⟨hlow, hnear⟩ := hkept.error e rfl
    exact .failed hkept.passed hkept.aligned hkept.last hlow hnear
  · exact (hl e rfl).elim
  · have hrest := hf a z vs b₁ q₁ r us b' q' hlo (hhi.trans hkept.last) hkept.aligned
      (hkept.value a rfl) hr
    exact { hrest with
      passed := hkept.passed.trans hrest.passed
      last := hkept.last.trans hrest.last }

/-- What is made of the value does not matter for the place. -/
theorem Confined.map {p : Production α} {place : Place} (h : Confined lo hi pre p fun _ => place)
    (f : α → β) : Confined lo hi pre (p >>= fun a => Pure.pure (f a)) fun _ => place :=
  h.bind fun _ => .pure fun _ _ hp => hp

/-- Whether the token taken last ended a line is known. -/
theorem Confined.lineStart {f : Bool → Production α}
    (h : ∀ s, Confined lo hi (fun b ts => pre b ts ∧ s = b) (f s) post) :
    Confined lo hi pre (atLineStart f) post := by
  intro z ts b q r us b' q' hlo hhi hal hpre hr
  exact h b z ts b q r us b' q' hlo hhi hal ⟨hpre, rfl⟩ hr

/-- The tokens in front of the cursor stand behind the start of the section. -/
theorem Confined.behind {p : Production α}
    (h : Confined lo hi (fun b ts => pre b ts ∧ ∀ t ∈ ts, lo.Before t.position) p post) :
    Confined lo hi pre p post := by
  intro z ts b q r us b' q' hlo hhi hal hpre hr
  have hbehind : ∀ t ∈ ts, lo.Before t.position := fun t ht =>
    (hlo.trans hhi).trans_before (hal.before ht)
  exact h z ts b q r us b' q' hlo hhi hal ⟨hpre, hbehind⟩ hr

/-- What stands behind a refusal is never reached. -/
theorem Confined.refuse_bind {expected : String} {f : β → Production α} :
    Confined lo hi pre (Production.refuse expected >>= f) post := by
  have hnever : Confined lo hi pre (Production.refuse expected : Production β)
      fun _ _ _ => False := .refuse
  refine hnever.bind fun _ => ?_
  intro z ts b q r us b' q' _ _ _ hpre
  exact hpre.elim

/-- More can be said of the value if it can be said of every run that gives one. -/
theorem Confined.of_ok {p : Production α} (h : Confined lo hi pre p post)
    (hok : ∀ z ts b q a us b' q', Aligned z q ts → pre b ts →
      p.run (.before ts b q) = (.ok a, .before us b' q') → post' a b' us) :
    Confined lo hi pre p post' := by
  intro z ts b q r us b' q' hlo hhi hal hpre hr
  have hkept := h z ts b q r us b' q' hlo hhi hal hpre hr
  refine { hkept with value := ?_ }
  rintro a rfl
  exact hok z ts b q a us b' q' hal hpre hr

/-- Taking a token that starts no line as a keyword at depth 0 makes it known. -/
theorem Confined.take {t : Token} {ts us : List Token} {b b' : Bool} {z q q' : Position}
    {p : Production α} {r : Except Stop α} (h : Confined lo t.position pre p post)
    (hlo : lo.AtOrBefore hi) (hhi : hi.AtOrBefore q) (hal : Aligned z q (t :: ts))
    (htop : (b && t.isTopLevel) = false) (hpre : pre t.isLineEnd ts)
    (hr : p.run (.before ts t.isLineEnd t.position) = (r, .before us b' q')) :
    Kept z lo post b (t :: ts) q r b' us q' := by
  have hbehind : q.Before t.position := hal.before List.mem_cons_self
  have hknown : lo.AtOrBefore t.position := (hlo.trans hhi).trans hbehind.atOrBefore
  have hkept := h z ts _ _ r us b' q' hknown (.refl _) hal.tail hpre hr
  exact { hkept with
    passed := (Passed.cons htop ts).trans hkept.passed
    last := hbehind.atOrBefore.trans hkept.last }

/-- A look at the next token. -/
theorem Confined.ahead {f : Option Token → Production α}
    (hnone : Confined lo hi (fun b ts => pre b ts ∧ ts = []) (f none) post)
    (hsome : ∀ t, Confined lo hi (fun b ts => pre b ts ∧ ts.head? = some t) (f (some t)) post) :
    Confined lo hi pre (peekAt 0 >>= f) post := by
  intro z ts b q r us b' q' hlo hhi hal hpre hr
  rw [run_bind, run_peekAt, andThen_ok] at hr
  cases ts with
  | nil => exact hnone z [] b q r us b' q' hlo hhi hal ⟨hpre, rfl⟩ hr
  | cons t ts => exact hsome t z (t :: ts) b q r us b' q' hlo hhi hal ⟨hpre, rfl⟩ hr

/-- The next token is taken, and what comes behind it knows it. -/
theorem Confined.skip {t : Token} {f : Unit → Production α}
    (htop : ∀ b ts, pre b ts → (b && t.isTopLevel) = false)
    (h : Confined lo t.position (fun b _ => b = t.isLineEnd) (f ()) post) :
    Confined lo hi (fun b ts => pre b ts ∧ ts.head? = some t) (skip >>= f) post := by
  intro z ts b q r us b' q' hlo hhi hal hpre hr
  obtain ⟨hp, hhead⟩ := hpre
  cases ts with
  | nil => cases hhead
  | cons u ts =>
    cases hhead
    rw [run_bind, run_skip_cons, andThen_ok] at hr
    exact h.take hlo hhi hal (htop b _ hp) rfl hr

/-- The next token is taken, and nothing comes behind it. -/
theorem Confined.skip_last {t : Token}
    (htop : ∀ b ts, pre b ts → (b && t.isTopLevel) = false) :
    Confined lo hi (fun b ts => pre b ts ∧ ts.head? = some t) Production.skip
      fun _ b _ => b = t.isLineEnd :=
  Confined.skip (f := Pure.pure) htop (.pure fun _ _ h => h)

/-- A loop keeps to its lines if its body does and no token that it takes starts a line as a keyword
at depth 0. -/
theorem Confined.repeatWhile {s : σ} {admits : σ → Token → Bool} {body : σ → Token → Production σ}
    (inv : σ → Place)
    (htop : ∀ s b t ts, inv s b (t :: ts) → admits s t = true → (b && t.isTopLevel) = false)
    (hbody : ∀ s b t ts, inv s b (t :: ts) → admits s t = true →
      Confined lo t.position (fun b _ => b = t.isLineEnd) (body s t) inv) :
    Confined lo hi (inv s) (repeatWhile s admits body)
      fun s b ts => inv s b ts ∧ ∀ t ∈ ts.head?, admits s t = false := by
  intro z ts b q r us b' q' hlo hhi hal hinv hr
  -- the body may take any number of tokens, so the induction is on how many are left
  induction hn : ts.length using Nat.strongRecOn generalizing s ts b q with
  | _ n ih =>
    cases ts with
    | nil =>
      rw [run_repeatWhile_nil] at hr
      cases hr
      exact .ok (.refl _ []) hal (.refl _) ⟨hinv, by simp⟩
    | cons t ts =>
      rw [run_repeatWhile_cons] at hr
      by_cases hadmits : admits s t = true
      · rw [if_pos hadmits] at hr
        obtain ⟨hl, vs, b₁, q₁, hc⟩ := run_listed (body s t) ts t.isLineEnd t.position
        rcases hrun : (body s t).run (.before ts t.isLineEnd t.position) with ⟨x, c⟩
        rw [hrun] at hc hr hl
        obtain rfl : c = Cursor.before vs b₁ q₁ := hc
        have hkept := (hbody s b t ts hinv hadmits).take hlo hhi hal (htop s b t ts hinv hadmits)
          rfl hrun
        rcases x with (e | e) | s'
        · cases hr
          obtain ⟨hlow, hnear⟩ := hkept.error e rfl
          exact .failed hkept.passed hkept.aligned hkept.last hlow hnear
        · exact (hl e rfl).elim
        · have hlength : vs.length < n := by
            have hsuffix := (run_suffix hrun).length_le
            rw [List.length_cons] at hn
            omega
          have hrest := ih vs.length hlength vs b₁ q₁ (hhi.trans hkept.last) hkept.aligned
            (hkept.value s' rfl) hr rfl
          exact { hrest with
            passed := hkept.passed.trans hrest.passed
            last := hkept.last.trans hrest.last }
      · rw [if_neg hadmits] at hr
        cases hr
        exact .ok (.refl _ _) hal (.refl _) ⟨hinv, by simpa using hadmits⟩

/-! ## Texts and lines -/

theorem confined_literal (expected : String) :
    Confined lo hi anywhere (literal expected) fun _ => inLine := by
  unfold literal
  refine .ahead .refuse fun t => ?_
  dsimp only
  by_cases ht : t.isText = true
  · rw [if_pos ht]
    refine .skip (fun b _ _ => ?_) (.pure fun b _ hb => ?_)
    · rw [Token.not_isTopLevel (by decide) ht, Bool.and_false]
    · exact hb.trans (Token.not_isLineEnd (by decide) ht)
  · rw [if_neg ht]
    exact .refuse

theorem confined_lineEnd : Confined lo hi anywhere lineEnd fun _ => lineOver := by
  unfold lineEnd
  refine .ahead (.pure fun b ts h => .inr h.2) fun t => ?_
  dsimp only
  by_cases ht : t.isLineEnd = true
  · rw [if_pos ht]
    refine (Confined.skip_last fun b _ _ => ?_).mono (fun _ _ h => h) fun _ b _ hb => ?_
    · rw [Token.not_isTopLevel (by decide) ht, Bool.and_false]
    · exact .inl (hb.trans ht)
  · rw [if_neg ht]
    exact .refuse

/-- Looking whether a block follows takes nothing. -/
theorem confined_opensBlock : Confined lo hi pre opensBlock fun _ => pre := by
  intro z ts b q r us b' q' _ _ hal hpre hr
  rw [run_opensBlock] at hr
  cases hr
  exact .ok (.refl b ts) hal (.refl q) hpre

theorem confined_literalLine (expected : String) :
    Confined lo hi anywhere (literalLine expected) fun _ => lineOver := by
  unfold literalLine
  refine (confined_literal expected).bind fun l => ?_
  exact confined_lineEnd.elsewhere.map _

theorem confined_moreLiterals (expected : String) (items : List Literal) :
    Confined lo hi anywhere (moreLiterals expected items) fun _ => anywhere := by
  unfold moreLiterals
  refine Confined.mono (.repeatWhile (fun _ => anywhere) ?_ ?_) (fun _ _ h => h)
    fun _ _ _ _ => trivial
  · intro _ b t _ _ ht
    rw [Token.not_isTopLevel (by decide) ht, Bool.and_false]
  · intro items _ t _ _ _
    exact (confined_literal expected).elsewhere.bind fun l => .pure fun _ _ _ => trivial

theorem confined_literals (expected : String) :
    Confined lo hi anywhere (literals expected) fun _ => anywhere := by
  unfold literals
  exact (confined_literal expected).bind fun l => (confined_moreLiterals expected [l]).elsewhere

theorem confined_literalsLine (expected : String) :
    Confined lo hi anywhere (literalsLine expected) fun _ => lineOver := by
  unfold literalsLine
  exact (confined_literals expected).bind fun ls => confined_lineEnd.map _

/-! ## Blocks -/

/-- A block opens in front of a token of its depth. -/
theorem confined_openBlock (opener : Token) :
    Confined lo hi anywhere (openBlock opener) fun depth _ ts =>
      depth = opener.indent + 1 ∧ ∃ t ∈ ts.head?, t.indent = opener.indent + 1 := by
  have hconfined : Confined lo hi anywhere (openBlock opener) fun _ => anywhere := by
    unfold openBlock
    dsimp only
    refine .ahead .refuse_bind fun t => ?_
    dsimp only
    by_cases ht : t.isLineEnd = true
    · rw [if_pos ht]
      refine .skip (fun b _ _ => ?_) ?_
      · rw [Token.not_isTopLevel (by decide) ht, Bool.and_false]
      · refine .ahead .refuse_bind fun m => ?_
        dsimp only
        by_cases hm : (m.isIndent && m.value == toString (opener.indent + 1)) = true
        · rw [if_pos hm]
          refine .skip (fun b _ _ => ?_) (.pure fun _ _ _ => trivial)
          rw [Token.not_isTopLevel (by decide) (Bool.and_eq_true_iff.mp hm).1, Bool.and_false]
        · rw [if_neg hm]
          exact .refuse_bind
    · rw [if_neg ht]
      exact .refuse_bind
  refine hconfined.of_ok fun z ts b q depth us b' q' hal _ hr => ?_
  obtain ⟨t, m, vs, rfl, -, hm, hvalue, rfl, hc⟩ := of_run_openBlock hr
  cases hc
  -- the increase of indentation says its depth, and a token of that depth stands behind it
  obtain ⟨hdepth, u, hu, hindent⟩ := hal.indented m us (List.suffix_cons t (m :: us)) hm
  have heq : m.indent = opener.indent + 1 := eq_of_toString_eq (hdepth.symm.trans hvalue)
  exact ⟨rfl, u, hu, hindent.trans heq⟩

/-- A block keeps to its lines if each of them does, and its last line is over behind it. -/
theorem Confined.block {opener : Token} {s : σ} {member : σ → Token → Production σ}
    (h : ∀ s t, Confined lo t.position (fun b _ => b = t.isLineEnd) (member s t)
      fun _ => lineOver) :
    Confined lo hi anywhere (block opener s member) fun _ => lineOver := by
  unfold Grammar.block
  refine (confined_openBlock opener).bind fun depth => ?_
  -- in front of the first line, a token of the depth of the block stands there
  let inv : σ → Place := fun _ b ts =>
    depth = opener.indent + 1 ∧ (lineOver b ts ∨ ∃ t ∈ ts.head?, depth ≤ t.indent)
  refine Confined.mono (.repeatWhile inv ?_ ?_) ?_ ?_
  · rintro s b t ts ⟨hdepth, -⟩ ht
    rcases Bool.or_eq_true_iff.mp ht with hindent | hdeep
    · rw [Token.not_isTopLevel (by decide) hindent, Bool.and_false]
    · have hpositive : t.indent ≠ 0 := by
        rw [decide_eq_true_eq] at hdeep
        omega
      unfold Token.isTopLevel
      simp [hpositive]
  · rintro s b t ts ⟨hdepth, -⟩ -
    by_cases hindent : t.isIndent = true
    · rw [if_pos hindent]
      exact .fail rfl
    · rw [if_neg hindent]
      exact (h s t).mono (fun _ _ hb => hb) fun _ _ _ hover => ⟨hdepth, .inl hover⟩
  · rintro b ts ⟨hdepth, t, ht, hindent⟩
    exact ⟨hdepth, .inr ⟨t, ht, by omega⟩⟩
  · rintro _ b ts ⟨⟨-, hover | ⟨t, ht, hdeep⟩⟩, hend⟩
    · exact hover
    · have hout := hend t ht
      rw [Bool.or_eq_false_iff, decide_eq_false_iff_not] at hout
      exact absurd hdeep hout.2

/-! ## Fields -/

theorem confined_memberKeyword {member : Token} (h : member.position = hi) (expected : String)
    (accepts : Keyword → Bool) :
    Confined lo hi pre (memberKeyword member expected accepts) fun _ => pre := by
  unfold memberKeyword
  cases member.keyword? with
  | none => exact .fail h
  | some k =>
    dsimp only
    by_cases ha : accepts k = true
    · rw [if_pos ha]
      exact .done fun _ _ hp => hp
    · rw [if_neg ha]
      exact .fail h

theorem confined_addField {member : Token} (h : member.position = hi) (fields : Fields)
    (k : Keyword) (value : Literal) :
    Confined lo hi pre (addField fields member k value) fun _ => pre := by
  unfold addField
  by_cases hd : fields.declares k = true
  · rw [if_pos hd]
    exact .fail h
  · rw [if_neg hd]
    exact .done fun _ _ hp => hp

/-- A line of fields keeps to itself. -/
theorem confined_fieldLine {member : Token} (h : member.position = hi) (expected : String)
    (accepts : Keyword → Bool) (fields : Fields) :
    Confined lo hi pre (do
      let k ← memberKeyword member expected accepts
      addField fields member k (← fieldValue k)) fun _ => lineOver := by
  refine (confined_memberKeyword h expected accepts).bind fun k => ?_
  exact (confined_literalLine _).elsewhere.bind fun l => confined_addField h fields k l

/-- A block of fields keeps to its lines. -/
theorem confined_fieldBlock (opener : Token) (expected : String) (keywords : List Keyword) :
    Confined lo hi anywhere (fieldBlock opener expected keywords) fun _ => lineOver :=
  .block fun fields _ => confined_fieldLine rfl expected keywords.contains fields

end Grammar

end Manuscript
