import Manuscript.Grammar.Parse
import Manuscript.Proofs.Grammar.ListRun

/-!
# What an error blames

A syntax error blames a token: the next one, one that was seen further ahead, or one that was taken
before, such as the keyword of the section. Only where the source ended too early it blames none,
and stands where the token taken last does.

* `Production.Grounded`: a production fails with no other errors, whatever it is told.
* `Grounded.bind`, `Grounded.ahead`, `Grounded.repeatWhile` and `Grounded.block`: the rules for the
  parts of a production.
* `Grounded.blames`: the error of a run blames a token that stood in front of it or was known, or
  there are no more tokens.
* `grounded_sectionFrom`: sections fail with such errors.
-/

namespace Manuscript

namespace SyntaxError

/-- The token that an error blames, if it blames one. -/
def token? : SyntaxError → Option Token
  | unexpected _ t | repeated t | repeatedSection _ t | lateVersion t | imageValues t => some t
  | endOfInput _ _ => none

/-- An error stands at the token that it blames, and describes it as found. -/
theorem of_token? {e : SyntaxError} {t : Token} (h : e.token? = some t) :
    e.position = t.position ∧ (e.found? = some (nameOf t) ∨ e.found? = some t.describe) := by
  cases e with
  | endOfInput expected p => cases h
  | unexpected expected t =>
    cases h
    exact ⟨rfl, .inl rfl⟩
  | _ =>
    cases h
    exact ⟨rfl, .inr rfl⟩

/-- An error that blames no token has found none. -/
theorem found?_of_token?_eq_none {e : SyntaxError} (h : e.token? = none) : e.found? = none := by
  cases e with
  | endOfInput expected p => rfl
  | _ => cases h

end SyntaxError

namespace Production

/-! ## Grounded productions -/

/-- What a production knows of the tokens: those that it saw, whether it met their end, and the
position of the token taken last, as long as it asked for it since. -/
structure Sight where
  seen : List Token
  ended : Bool := false
  last : Option Position := none

namespace Sight

/-- The error blames a token that was seen, or the end that was met. -/
def Backs (k : Sight) (e : SyntaxError) : Prop :=
  match e.token? with
  | some t => t ∈ k.seen
  | none => k.ended = true ∧ k.last = some e.position

/-- One sight knows no more than another. -/
structure Within (k l : Sight) : Prop where
  seen : k.seen ⊆ l.seen
  ended : k.ended = true → l.ended = true
  last : ∀ p, k.last = some p → l.last = some p

/-- What is still known after tokens may have been taken. -/
def kept (k : Sight) : Sight := { seen := k.seen }

/-- One more token was seen. -/
def sees (k : Sight) (t : Token) : Sight := { k with seen := t :: k.seen }

variable {k l : Sight}

theorem within_kept (k : Sight) : k.kept.Within k := ⟨List.Subset.refl _, nofun, nofun⟩

theorem within_sees (k : Sight) (t : Token) : k.Within (k.sees t) :=
  ⟨List.subset_cons_self t _, id, fun _ => id⟩

theorem Within.sees (h : k.Within l) (t : Token) : (k.sees t).Within (l.sees t) :=
  ⟨List.cons_subset_cons t h.seen, h.ended, h.last⟩

theorem Within.kept (h : k.Within l) : k.kept.Within l.kept := ⟨h.seen, nofun, nofun⟩

/-- Behind a token that was taken, another one was taken last. -/
theorem Within.forget (h : k.Within l) : { k with last := none }.Within { l with last := none } :=
  ⟨h.seen, h.ended, nofun⟩

theorem Within.backs (h : k.Within l) {e : SyntaxError} (hk : k.Backs e) : l.Backs e := by
  unfold Backs at *
  cases he : e.token? with
  | none =>
    rw [he] at hk
    exact ⟨h.ended hk.1, h.last _ hk.2⟩
  | some t =>
    rw [he] at hk
    exact h.seen hk

end Sight

/-- Every error that the production may end with is backed by what it knows then. -/
def Grounded {α : Type} : Production α → Sight → Prop
  | done _, _ => True
  | fail e, k => k.Backs e
  | peek offset next, k =>
    (∀ t, (next (some t)).Grounded (k.sees t))
      ∧ (next none).Grounded { k with ended := k.ended || offset == 0 }
  | take next, k => next.Grounded { k with last := none }
  | lastPosition next, k => ∀ p, (next p).Grounded { k with last := some p }
  | atLineStart next, k => ∀ b, (next b).Grounded k
  | loop _ _ body next, k =>
    (∀ s t, (body s t).Grounded (k.kept.sees t)) ∧ ∀ s, (next s).Grounded { k with last := none }
  | attempt _ next, k => ∀ r, (next r).Grounded { k with last := none }

variable {α β σ : Type} {k l : Sight}

/-! ## Rules -/

/-- What is grounded stays so when more is known. -/
theorem Grounded.mono {p : Production α} (h : p.Grounded k) (hkl : k.Within l) : p.Grounded l := by
  induction p generalizing k l with
  | done value => trivial
  | fail error => exact hkl.backs h
  | peek offset next ih =>
    refine ⟨fun t => ih (some t) (h.1 t) (hkl.sees t), ih none h.2 ?_⟩
    refine ⟨hkl.seen, ?_, hkl.last⟩
    intro hended
    rcases Bool.or_eq_true_iff.mp hended with hended | hzero
    · exact Bool.or_eq_true_iff.mpr (.inl (hkl.ended hended))
    · exact Bool.or_eq_true_iff.mpr (.inr hzero)
  | take next ih => exact ih h hkl.forget
  | lastPosition next ih => exact fun p => ih p (h p) ⟨hkl.seen, hkl.ended, fun _ => id⟩
  | atLineStart next ih => exact fun b => ih b (h b) hkl
  | loop state admits body next ihb ihn =>
    exact ⟨fun s t => ihb s t (h.1 s t) (hkl.kept.sees t), fun s => ihn s (h.2 s) hkl.forget⟩
  | attempt inner next ihi ihn => exact fun r => ihn r (h r) hkl.forget

/-- What comes behind a production can rely on what was seen in front of it. -/
theorem Grounded.bind {p : Production α} {f : α → Production β} (hp : p.Grounded k)
    (hf : ∀ a, (f a).Grounded k.kept) : (p >>= f).Grounded k := by
  show (p.bind f).Grounded k
  induction p generalizing k with
  | done value => exact (hf value).mono k.within_kept
  | fail error => exact hp
  | peek offset next ih =>
    refine ⟨fun t => ih (some t) (hp.1 t) fun a => ?_, ih none hp.2 hf⟩
    exact (hf a).mono (k.within_sees t).kept
  | take next ih => exact ih hp hf
  | lastPosition next ih => exact fun p => ih p (hp p) hf
  | atLineStart next ih => exact fun b => ih b (hp b) hf
  | loop state admits body next ihb ihn => exact ⟨hp.1, fun s => ihn s (hp.2 s) hf⟩
  | attempt inner next ihi ihn => exact fun r => ihn r (hp r) hf

theorem Grounded.pure {a : α} : (Pure.pure a : Production α).Grounded k := trivial

/-- What is made of the value does not fail. -/
theorem Grounded.map {p : Production α} (h : p.Grounded k) (f : α → β) :
    (p >>= fun a => Pure.pure (f a)).Grounded k := h.bind fun _ => .pure

/-- An error may blame a token that was seen. -/
theorem Grounded.fail {e : SyntaxError} {t : Token} (he : e.token? = some t) (ht : t ∈ k.seen) :
    (fail e : Production α).Grounded k := by
  show k.Backs e
  unfold Sight.Backs
  rw [he]
  exact ht

/-- A refusal blames the next token or the end. -/
theorem Grounded.refuse {expected : String} : (refuse expected : Production α).Grounded k :=
  ⟨fun _ => .fail rfl List.mem_cons_self, fun _ => ⟨Bool.or_true _, rfl⟩⟩

/-- What stands behind a refusal is never reached. -/
theorem Grounded.refuse_bind {expected : String} {f : β → Production α} :
    (Production.refuse expected >>= f).Grounded k :=
  ⟨fun _ => .fail rfl List.mem_cons_self, fun _ => ⟨Bool.or_true _, rfl⟩⟩

/-- The next token is seen before it is decided what to do. -/
theorem Grounded.ahead {f : Option Token → Production α} (hnone : (f none).Grounded k)
    (hsome : ∀ t, (f (some t)).Grounded (k.sees t)) : (peekAt 0 >>= f).Grounded k := by
  refine ⟨hsome, hnone.mono ⟨List.Subset.refl _, ?_, fun _ => id⟩⟩
  exact fun hended => Bool.or_eq_true_iff.mpr (.inl hended)

/-- Behind a token that is taken, what was seen is still known. -/
theorem Grounded.skip {f : Unit → Production α} (h : (f ()).Grounded k.kept) :
    (skip >>= f).Grounded k := h.mono ⟨List.Subset.refl _, nofun, nofun⟩

/-- The body of a loop knows the token that was taken for it. -/
theorem Grounded.repeatWhile {s : σ} {admits : σ → Token → Bool} {body : σ → Token → Production σ}
    (h : ∀ s t, (body s t).Grounded (k.kept.sees t)) : (repeatWhile s admits body).Grounded k :=
  ⟨h, fun _ => trivial⟩

/-! ## Runs -/

/-- The error blames one of the tokens; or it blames none, no tokens are left, and it stands at the
position of the token taken last. -/
def Blames (e : SyntaxError) (ts us : List Token) (q : Position) : Prop :=
  (∃ t ∈ ts, e.token? = some t) ∨ e.token? = none ∧ us = [] ∧ e.position = q

theorem Blames.mono {e : SyntaxError} {ts ts' us : List Token} {q : Position}
    (h : Blames e ts us q) (hts : ts ⊆ ts') : Blames e ts' us q := by
  rcases h with ⟨t, ht, he⟩ | hend
  · exact .inl ⟨t, hts ht, he⟩
  · exact .inr hend

/-- Where the tokens were at their end, they are behind a run. -/
theorem eq_nil_of_suffix {c : Prop} {ts vs : List Token} (hended : c → ts = []) (h : vs <:+ ts)
    (hc : c) : vs = [] := by
  rw [hended hc] at h
  exact List.suffix_nil.mp h

theorem append_subset_append_right {ts us vs : List Token} (h : us ⊆ ts) : vs ++ us ⊆ vs ++ ts :=
  List.append_subset.mpr
    ⟨List.subset_append_left _ _, List.Subset.trans h (List.subset_append_right _ _)⟩

/-- The error of a run blames a token that was seen or stood in front of the run, or the end. -/
theorem Grounded.blames {p : Production α} (hp : p.Grounded k) {ts us : List Token} {b b' : Bool}
    {q q' : Position} {e : SyntaxError} (hended : k.ended = true → ts = [])
    (hlast : ∀ x, k.last = some x → x = q)
    (hr : p.run (.before ts b q) = (.error (.byGrammar e), .before us b' q')) :
    Blames e (k.seen ++ ts) us q' := by
  induction p generalizing k ts b q with
  | done value => cases hr
  | fail error =>
    cases hr
    have hbacks : k.Backs e := hp
    unfold Sight.Backs at hbacks
    cases he : e.token? with
    | none =>
      rw [he] at hbacks
      exact .inr ⟨he, hended hbacks.1, hlast _ hbacks.2⟩
    | some t =>
      rw [he] at hbacks
      exact .inl ⟨t, List.mem_append_left _ hbacks, he⟩
  | peek offset next ih =>
    rw [run_peek, Cursor.peek_before, andThen_ok] at hr
    cases hahead : ts[offset]? with
    | none =>
      rw [hahead] at hr
      -- that no token is there tells of the end only where the next one was asked for
      refine ih none hp.2 ?_ hlast hr
      intro hnone
      rcases Bool.or_eq_true_iff.mp hnone with hnone | hzero
      · exact hended hnone
      · rw [beq_iff_eq.mp hzero, List.getElem?_eq_none_iff] at hahead
        exact List.length_eq_zero_iff.mp (by omega)
    | some t =>
      rw [hahead] at hr
      have hmem : t ∈ ts := List.mem_of_getElem? hahead
      refine (ih (some t) (hp.1 t) hended hlast hr).mono ?_
      exact List.cons_subset.mpr ⟨List.mem_append_right _ hmem, List.Subset.refl _⟩
  | take next ih =>
    rw [run_take] at hr
    cases ts with
    | nil => exact ih hp (fun _ => rfl) nofun hr
    | cons t ts =>
      -- the end was not met, so nothing has to be known of it behind the token
      have hmore : k.ended = true → ts = [] := fun h => nomatch hended h
      refine (ih hp hmore nofun hr).mono ?_
      exact append_subset_append_right (List.subset_cons_self t ts)
  | lastPosition next ih =>
    refine ih q (hp q) hended ?_ hr
    rintro x ⟨⟩
    rfl
  | atLineStart next ih => exact ih b (hp b) hended hlast hr
  | loop state admits body next ihb ihn =>
    rcases of_run_bind_error (p := Production.repeatWhile state admits body) hr with
      hfail | ⟨s, vs, b₁, q₁, hloop, hnext⟩
    · obtain ⟨s, t, ws, hsuffix, hbody⟩ := of_run_repeatWhile_error hfail
      refine (ihb s t (hp.1 s t) nofun nofun hbody).mono ?_
      have ht : t ∈ ts := hsuffix.subset List.mem_cons_self
      have hws : ws ⊆ ts := List.Subset.trans (List.subset_cons_self t ws) hsuffix.subset
      exact List.cons_subset.mpr ⟨List.mem_append_right _ ht, append_subset_append_right hws⟩
    · exact (ihn s (hp.2 s) (eq_nil_of_suffix hended (run_suffix hloop)) nofun hnext).mono
        (append_subset_append_right (run_suffix hloop).subset)
  | attempt inner next ihi ihn =>
    obtain ⟨hl, vs, b₁, q₁, hc⟩ := run_listed inner ts b q
    unfold run at hr
    rcases hrun : inner.run (.before ts b q) with ⟨(d | d) | a, c⟩
    · rw [hrun] at hr hc
      obtain rfl : c = Cursor.before vs b₁ q₁ := hc
      exact (ihn (.error d) (hp _) (eq_nil_of_suffix hended (run_suffix hrun)) nofun hr).mono
        (append_subset_append_right (run_suffix hrun).subset)
    · exact (hl d (by rw [hrun])).elim
    · rw [hrun] at hr hc
      obtain rfl : c = Cursor.before vs b₁ q₁ := hc
      exact (ihn (.ok a) (hp _) (eq_nil_of_suffix hended (run_suffix hrun)) nofun hr).mono
        (append_subset_append_right (run_suffix hrun).subset)

end Production

namespace Grammar

open Production

variable {α β σ : Type} {k : Sight}

/-! ## Lines and blocks -/

theorem grounded_literal (expected : String) : (literal expected).Grounded k := by
  refine .ahead .refuse fun t => ?_
  dsimp only
  split_ifs
  · exact .skip .pure
  · exact .refuse

theorem grounded_moreLiterals (expected : String) (items : List Literal) :
    (moreLiterals expected items).Grounded k :=
  .repeatWhile fun _ _ => (grounded_literal expected).map _

theorem grounded_literals (expected : String) : (literals expected).Grounded k :=
  (grounded_literal expected).bind fun l => grounded_moreLiterals expected [l]

theorem grounded_lineEnd : lineEnd.Grounded k := by
  refine .ahead .pure fun t => ?_
  dsimp only
  split_ifs
  · trivial
  · exact .refuse

/-- The last part of a line and its end. -/
theorem grounded_line {p : Production α} (hp : p.Grounded k) :
    (do
      let a ← p
      lineEnd
      return a : Production α).Grounded k := hp.bind fun _ => grounded_lineEnd.map _

theorem grounded_literalLine (expected : String) : (literalLine expected).Grounded k :=
  grounded_line (grounded_literal expected)

theorem grounded_literalsLine (expected : String) : (literalsLine expected).Grounded k :=
  grounded_line (grounded_literals expected)

theorem grounded_opensBlock : opensBlock.Grounded k := by
  refine .ahead .pure fun t => ?_
  dsimp only
  split_ifs
  · exact ⟨fun _ => trivial, trivial⟩
  · exact .pure

theorem grounded_openBlock (opener : Token) : (openBlock opener).Grounded k := by
  refine .ahead .refuse_bind fun t => ?_
  dsimp only
  split_ifs
  · refine .skip (.ahead .refuse_bind fun m => ?_)
    dsimp only
    split_ifs
    · exact .skip .pure
    · exact .refuse_bind
  · exact .refuse_bind

/-- A block is grounded if its lines are, each of which knows its first token. -/
theorem grounded_block {opener : Token} {s : σ} {member : σ → Token → Production σ}
    (h : ∀ s t, (member s t).Grounded (k.kept.sees t)) : (block opener s member).Grounded k := by
  refine (grounded_openBlock opener).bind fun depth => .repeatWhile fun s t => ?_
  split_ifs
  · exact .fail rfl List.mem_cons_self
  · exact h s t

theorem grounded_memberKeyword {member : Token} (h : member ∈ k.seen) (expected : String)
    (accepts : Keyword → Bool) : (memberKeyword member expected accepts).Grounded k := by
  unfold memberKeyword
  cases member.keyword? with
  | none => exact .fail rfl h
  | some word =>
    dsimp only
    split_ifs
    · trivial
    · exact .fail rfl h

theorem grounded_addField {member : Token} (h : member ∈ k.seen) (fields : Fields) (word : Keyword)
    (value : Literal) : (addField fields member word value).Grounded k := by
  unfold addField
  split_ifs
  · exact .fail rfl h
  · trivial

theorem grounded_fieldBlock (opener : Token) (expected : String) (keywords : List Keyword) :
    (fieldBlock opener expected keywords).Grounded k := by
  refine grounded_block fun fields member => ?_
  refine (grounded_memberKeyword List.mem_cons_self expected _).bind fun word => ?_
  exact (grounded_literalLine _).bind fun l => grounded_addField List.mem_cons_self fields word l

/-! ## Title, people and publication -/

theorem grounded_fragmentFrom {first : Token} (h : first ∈ k.seen) :
    (fragmentFrom first).Grounded k := by
  unfold fragmentFrom
  split_ifs
  · trivial
  · exact (grounded_literal _).map _
  · exact .fail rfl h

theorem grounded_fragment : fragment.Grounded k := by
  refine .ahead .refuse fun t => ?_
  dsimp only
  split_ifs
  · exact .skip (grounded_fragmentFrom List.mem_cons_self)
  · exact .refuse

theorem grounded_moreFragments (fragments : List TitleFragment) :
    (moreFragments fragments).Grounded k := .repeatWhile fun _ _ => grounded_fragment.map _

theorem grounded_titleSection (opener : Token) : (titleSection opener).Grounded k := by
  refine grounded_opensBlock.bind fun opens => ?_
  cases opens with
  | true =>
    refine grounded_block fun fragments first => ?_
    refine (grounded_fragmentFrom List.mem_cons_self).bind fun f => ?_
    exact grounded_line (grounded_moreFragments _)
  | false => exact grounded_fragment.bind fun f => grounded_line (grounded_moreFragments _)

theorem grounded_peopleSection (opener : Token) : (peopleSection opener).Grounded k := by
  refine grounded_opensBlock.bind fun opens => ?_
  cases opens with
  | true => exact (grounded_fieldBlock _ _ _).map _
  | false => exact (grounded_literalsLine _).map _

/-! ## Style -/

theorem grounded_once {declared : Option β} {member : Token} {p : Production α}
    (h : member ∈ k.seen) (hp : p.Grounded k) : (once declared member p).Grounded k := by
  unfold once
  split_ifs
  · exact .fail rfl h
  · exact hp

theorem grounded_nameOnce {member : Token} (h : member ∈ k.seen) (declared : Option Literal) :
    (nameOnce declared member).Grounded k := by
  refine (grounded_literalLine _).bind fun name => ?_
  split_ifs
  · exact .fail rfl h
  · exact .pure

theorem grounded_numerationBlock (opener : Token) : (numerationBlock opener).Grounded k := by
  refine Grounded.map (grounded_block fun (fields, skip) member => ?_) _
  refine (grounded_memberKeyword List.mem_cons_self _ _).bind fun word => ?_
  split_ifs
  · exact (grounded_literalsLine _).map _
  · exact .fail rfl List.mem_cons_self
  · exact (grounded_literalLine _).bind fun l =>
      (grounded_addField List.mem_cons_self fields word l).map _

theorem grounded_partList (opener : Token) : (partList opener).Grounded k := by
  refine grounded_opensBlock.bind fun opens => ?_
  cases opens with
  | true =>
    refine Grounded.map (grounded_block fun parts first => ?_) _
    split_ifs
    · exact grounded_line (grounded_moreLiterals _ _)
    · exact .fail rfl List.mem_cons_self
  | false => exact (grounded_literalsLine _).map _

theorem grounded_styleLine (style : StyleBlock) {member : Token} (h : member ∈ k.seen) :
    (styleLine style member).Grounded k := by
  have hkept : member ∈ k.kept.seen := h
  refine (grounded_memberKeyword h _ _).bind fun word => ?_
  split
  · exact (grounded_nameOnce hkept _).map _
  · exact (grounded_nameOnce hkept _).map _
  · exact grounded_once hkept ((grounded_fieldBlock _ _ _).map _)
  · exact grounded_once hkept ((grounded_fieldBlock _ _ _).map _)
  · exact grounded_once hkept ((grounded_fieldBlock _ _ _).map _)
  · exact grounded_once hkept ((grounded_fieldBlock _ _ _).map _)
  · exact grounded_once hkept ((grounded_numerationBlock _).map _)
  · exact grounded_once hkept ((grounded_partList _).map _)
  · exact grounded_once hkept ((grounded_fieldBlock _ _ _).map _)
  · exact .fail rfl hkept

theorem grounded_styleSection (opener : Token) : (styleSection opener).Grounded k := by
  refine grounded_opensBlock.bind fun opens => ?_
  cases opens with
  | true => exact grounded_block fun style _ => grounded_styleLine style List.mem_cons_self
  | false => exact (grounded_literalLine _).map _

/-! ## Content -/

theorem grounded_citedPage : citedPage.Grounded k := by
  refine .ahead .pure fun t => ?_
  dsimp only
  split_ifs
  · exact .skip ((grounded_literal _).map _)
  · exact .pure

theorem grounded_runOf (word : Keyword) : (runOf word).Grounded k := by
  refine (grounded_literal _).bind fun l => ?_
  split
  · exact .pure
  · exact .pure
  · exact .pure
  · exact .pure
  · exact .pure
  · exact grounded_citedPage.map _

theorem grounded_sentenceStep (line : SentenceLine) {t : Token} (h : t ∈ k.seen) :
    (sentenceStep line t).Grounded k := by
  unfold sentenceStep
  split_ifs
  · trivial
  · trivial
  · trivial
  · split
    · split_ifs
      · exact (grounded_runOf _).map _
      · exact .fail rfl h
    · exact .fail rfl h

/-- A sentence without content blames the token that it begins with, however many were taken. -/
theorem grounded_sentenceFrom {first : Token} (h : first ∈ k.seen) :
    (sentenceFrom first).Grounded k := by
  refine (grounded_sentenceStep {} h).bind fun line => ?_
  refine Grounded.bind (.repeatWhile fun line t => ?_) fun line => ?_
  · exact grounded_sentenceStep line List.mem_cons_self
  · split_ifs
    · exact .fail rfl h
    · exact .pure

theorem grounded_contentSection (kind : ContentKind) (opener : Token) :
    (contentSection kind opener).Grounded k := by
  refine grounded_opensBlock.bind fun opens => ?_
  cases opens with
  | true =>
    refine Grounded.map (grounded_block fun sentences first => ?_) _
    exact (grounded_sentenceFrom List.mem_cons_self).map _
  | false =>
    refine .ahead .refuse fun first => .skip ?_
    exact (grounded_sentenceFrom List.mem_cons_self).map _

theorem grounded_imageSection {opener : Token} (h : opener ∈ k.seen) :
    (imageSection opener).Grounded k := by
  refine grounded_opensBlock.bind fun opens => ?_
  cases opens with
  | true => exact (grounded_fieldBlock _ _ _).map _
  | false =>
    refine (grounded_literals _).bind fun ls => ?_
    cases Image.ofValues? opener.position ls with
    | none => exact .fail rfl h
    | some image => exact grounded_lineEnd.map _

/-! ## Bibliography -/

theorem grounded_source (kind : SourceKind) (opener : Token) :
    (source kind opener).Grounded k := by
  refine Grounded.map (grounded_block fun (authors, fields) member => ?_) _
  refine (grounded_memberKeyword List.mem_cons_self _ _).bind fun word => ?_
  split_ifs
  · exact (grounded_literalsLine _).map _
  · exact .fail rfl List.mem_cons_self
  · exact (grounded_literalLine _).bind fun l =>
      (grounded_addField List.mem_cons_self fields word l).map _

theorem grounded_bibliographySection (opener : Token) :
    (bibliographySection opener).Grounded k := by
  refine grounded_block fun sources member => ?_
  refine (grounded_memberKeyword List.mem_cons_self _ _).bind fun word => ?_
  cases SourceKind.ofKeyword? word with
  | none => exact .fail rfl List.mem_cons_self
  | some kind => exact (grounded_source kind member).map _

/-! ## Sections -/

theorem grounded_sectionBody (first : Bool) (word : Keyword) {opener : Token}
    (h : opener ∈ k.seen) : (sectionBody first word opener).Grounded k := by
  unfold sectionBody
  split
  · split_ifs
    · exact (grounded_literalLine _).map _
    · exact .fail rfl h
  · exact (grounded_literalLine _).map _
  · exact (grounded_titleSection _).map _
  · exact (grounded_peopleSection _).map _
  · exact (grounded_peopleSection _).map _
  · exact ((grounded_fieldBlock _ _ _).map _).map _
  · exact (grounded_styleSection _).map _
  · exact (grounded_literalLine _).map _
  · exact (grounded_contentSection _ _).map _
  · exact (grounded_contentSection _ _).map _
  · exact (grounded_contentSection _ _).map _
  · exact (grounded_contentSection _ _).map _
  · exact (grounded_contentSection _ _).map _
  · exact (grounded_bibliographySection _).map _
  · exact grounded_lineEnd.map _
  · exact grounded_lineEnd.map _
  · exact (grounded_imageSection h).map _
  · exact .fail rfl h

/-- A section fails with errors about its own tokens and the next one. -/
theorem grounded_sectionFrom (seen : List Keyword) (first : Bool) {opener : Token}
    (h : opener ∈ k.seen) : (sectionFrom seen first opener).Grounded k := by
  unfold sectionFrom
  cases sectionKeyword? opener with
  | none => exact .fail rfl h
  | some word =>
    dsimp only
    split_ifs
    · exact .fail rfl h
    · exact grounded_sectionBody first word h

end Grammar

end Manuscript
