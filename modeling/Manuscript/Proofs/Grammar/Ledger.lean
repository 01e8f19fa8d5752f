import Mathlib.Algebra.Order.Group.Multiset
import Mathlib.Tactic.Abel
import Manuscript.Proofs.Grammar.Lines
import Manuscript.Proofs.Specification.Records
import Manuscript.Proofs.Token.Shape

/-!
# The ledger of texts

A production that succeeds took some tokens, and every text among them is in its value. `Books`
states this with the texts that were held before it started, so that the statements of two
productions in a row fit together.

The same statement says of the value what the grammar makes sure of. Some of it depends on tokens
that come from a source, where an increase of indentation stands in front of a token of its depth:
this is the parameter `led`.

* `Books.bind`, `Books.repeatWhile` and `Books.block`: the rules for the parts of a production.
* `books_fieldBlock`: a block of fields holds the texts of its lines, under proper keywords.
-/

namespace Manuscript

/-- The texts among some tokens. -/
def texts (ts : List Token) : Multiset Literal :=
  ((ts.filter Token.isText).map Token.literal : List Literal)

@[simp] theorem texts_nil : texts [] = 0 := rfl

theorem texts_cons (t : Token) (ts : List Token) : texts (t :: ts) = texts [t] + texts ts := by
  unfold texts
  rw [Multiset.coe_add, ← List.map_append, ← List.filter_append, List.singleton_append]

/-- A text is its own literal. -/
theorem texts_of_isText {t : Token} (h : t.isText = true) : texts [t] = {t.literal} := by
  unfold texts
  rw [List.filter_cons_of_pos h]
  rfl

/-- Other tokens hold no text. -/
theorem texts_of_not_isText {t : Token} (h : t.isText = false) : texts [t] = 0 := by
  unfold texts
  rw [List.filter_cons_of_neg (by simp [h])]
  rfl

namespace Grammar

open Production

/-- What was held and the texts of the tokens that a successful run takes are the texts of its
value, and the value is good. -/
def Books (led : Prop) {α : Type} (held : Multiset Literal) (p : Production α)
    (lits : α → Multiset Literal) (good : α → Prop) : Prop :=
  ∀ ts b q a us b' q', (led → Indented ts) →
    p.run (.before ts b q) = (.ok a, .before us b' q') →
    held + texts ts = lits a + texts us ∧ good a

variable {led : Prop} {α β σ : Type} {held : Multiset Literal}

/-! ## Rules -/

theorem Books.done {a : α} {l : α → Multiset Literal} {g : α → Prop} (hl : held = l a)
    (hg : g a) : Books led held (done a) l g := by
  intro ts b q a' us b' q' _ h
  cases h
  exact ⟨by rw [hl], hg⟩

theorem Books.pure {a : α} {l : α → Multiset Literal} {g : α → Prop} (hl : held = l a)
    (hg : g a) : Books led held (Pure.pure a) l g := Books.done hl hg

theorem Books.fail {e : SyntaxError} {l : α → Multiset Literal} {g : α → Prop} :
    Books led held (fail e) l g := by
  intro ts b q a us b' q' _ h
  cases h

theorem Books.bind {p : Production α} {f : α → Production β} {l₁ : α → Multiset Literal}
    {g₁ : α → Prop} {l₂ : β → Multiset Literal} {g₂ : β → Prop} (hp : Books led held p l₁ g₁)
    (hf : ∀ a, g₁ a → Books led (l₁ a) (f a) l₂ g₂) : Books led held (p >>= f) l₂ g₂ := by
  intro ts b q y us b' q' hled h
  obtain ⟨x, vs, b₁, q₁, hx, hy⟩ := of_run_bind_before h
  obtain ⟨h₁, hg⟩ := hp ts b q x vs b₁ q₁ hled hx
  obtain ⟨h₂, hg₂⟩ := hf x hg vs b₁ q₁ y us b' q' (fun hl => (hled hl).suffix (run_suffix hx)) hy
  exact ⟨h₁.trans h₂, hg₂⟩

/-- More may be said about the value before, and less behind. -/
theorem Books.mono {p : Production α} {l : α → Multiset Literal} {g g' : α → Prop}
    (h : Books led held p l g) (hg : ∀ a, g a → g' a) :
    Books led held p l g' := by
  intro ts b q a us b' q' hled hr
  obtain ⟨h₁, h₂⟩ := h ts b q a us b' q' hled hr
  exact ⟨h₁, hg a h₂⟩

/-- What the body of a loop books, the loop books. -/
theorem Books.repeatWhile {s : σ} {admits : σ → Token → Bool} {body : σ → Token → Production σ}
    {l : σ → Multiset Literal} {g : σ → Prop} (hl : held = l s) (hs : g s)
    (hb : ∀ s t, g s → admits s t = true →
      Books led (l s + texts [t]) (body s t) l g) :
    Books led held (repeatWhile s admits body) l g := by
  intro ts b q s' us b' q' hled h
  -- the balance at the start of the loop, with what its state holds by now
  let motive (s : σ) (vs : List Token) : Prop :=
    held + texts ts = l s + texts vs ∧ g s ∧ (led → Indented vs)
  have hstart : motive s ts := ⟨by rw [hl], hs, hled⟩
  have hstep : ∀ s t ts s' us b q, motive s (t :: ts) → admits s t = true →
      (body s t).run (.before ts t.isLineEnd t.position) = (.ok s', .before us b q) →
        motive s' us := by
    rintro s t ts s' us b q ⟨hbal, hgood, hind⟩ ha hr
    obtain ⟨h₁, h₂⟩ := hb s t hgood ha ts _ _ s' us b q
      (fun hl => (hind hl).suffix (List.suffix_cons t ts)) hr
    refine ⟨?_, h₂, fun hl => (hind hl).suffix ((run_suffix hr).trans (List.suffix_cons t ts))⟩
    rw [hbal, texts_cons, ← add_assoc, h₁]
  obtain ⟨⟨hbal, hgood, -⟩, -⟩ := of_run_repeatWhile hstep hstart h
  exact ⟨hbal, hgood⟩

/-- What the lines of a block keep holds behind the block. It has a line at least, so that what
every line makes sure of holds, too. -/
theorem Books.block {opener : Token} {s : σ} {member : σ → Token → Production σ}
    {l : σ → Multiset Literal} {g m : σ → Prop} (hl : held = l s) (hs : g s)
    (hb : ∀ s t, g s →
      Books led (l s + texts [t]) (member s t) l fun s => g s ∧ m s) :
    Books led held (block opener s member) l fun s => g s ∧ (led → m s) := by
  intro ts b q s' us b' q' hled h
  unfold Grammar.block at h
  obtain ⟨depth, e, ho, h⟩ := of_run_bind h
  obtain ⟨t, i, vs, rfl, ht, hm, hv, rfl, rfl⟩ := of_run_openBlock ho
  have hbooks : texts (t :: i :: vs) = texts vs := by
    rw [texts_cons, texts_cons i, texts_of_not_isText (Token.not_isText (by decide) ht),
      texts_of_not_isText (Token.not_isText (by decide) hm), zero_add, zero_add]
  have hsuff : vs <:+ t :: i :: vs := ⟨[t, i], rfl⟩
  -- either a line was read, or all of the block's tokens are still there
  let motive (s : σ) (ws : List Token) : Prop :=
    held + texts vs = l s + texts ws ∧ g s ∧ (m s ∨ ws = vs) ∧ ws <:+ vs
  have hstart : motive s vs := ⟨by rw [hl], hs, .inr rfl, List.suffix_rfl⟩
  have hstep (e : Token → SyntaxError) : ∀ s t ws s' us b q, motive s (t :: ws) →
      (t.isIndent || decide (opener.indent + 1 ≤ t.indent)) = true →
      (if t.isIndent then Production.fail (e t) else member s t).run
        (.before ws t.isLineEnd t.position) = (.ok s', .before us b q) → motive s' us := by
    rintro s t' ws s' us b q ⟨hbal, hgood, -, hws⟩ - hr
    split_ifs at hr with hi
    · cases hr
    · have hsub : ws <:+ vs := (List.suffix_cons t' ws).trans hws
      obtain ⟨h₁, h₂, h₃⟩ := hb s t' hgood ws _ _ s' us b q
        (fun hl => (hled hl).suffix (hsub.trans hsuff)) hr
      refine ⟨?_, h₂, .inl h₃, (run_suffix hr).trans hsub⟩
      rw [hbal, texts_cons, ← add_assoc, h₁]
  obtain ⟨⟨hbal, hgood, hmade, -⟩, hend⟩ := of_run_repeatWhile (hstep _) hstart h
  refine ⟨by rw [hbooks, hbal], hgood, fun hl => hmade.resolve_right ?_⟩
  -- no line was read, but the token behind the increase of indentation is deep enough for one
  rintro rfl
  obtain ⟨hmv, u, hu, hud⟩ := hled hl i us ⟨[t], rfl⟩ hm
  have hdepth : i.indent = opener.indent + 1 := by
    rw [hv] at hmv
    exact (eq_of_toString_eq hmv).symm
  have hfalse := hend u hu
  simp [hud, hdepth] at hfalse

/-! ## Lines -/

theorem books_refuse {expected : String} {l : α → Multiset Literal} {g : α → Prop} :
    Books led held (refuse expected) l g := by
  intro ts b q a us b' q' _ h
  exact (not_ok_of_refuse h).elim

theorem books_literal (expected : String) :
    Books led held (literal expected) (fun l => held + {l}) fun _ => True := by
  intro ts b q l us b' q' _ h
  obtain ⟨t, vs, rfl, ht, rfl, hc⟩ := of_run_literal h
  cases hc
  refine ⟨?_, trivial⟩
  rw [texts_cons, texts_of_isText ht, add_assoc]

theorem books_lineEnd : Books led held lineEnd (fun _ => held) fun _ => True := by
  intro ts b q _ us b' q' _ h
  rcases of_run_lineEnd h with ⟨rfl, hc⟩ | ⟨t, vs, rfl, ht, hc⟩
  · cases hc
    exact ⟨rfl, trivial⟩
  · cases hc
    refine ⟨?_, trivial⟩
    rw [texts_cons, texts_of_not_isText (Token.not_isText (by decide) ht), zero_add]

/-- Looking whether a block follows books nothing. -/
theorem books_opensBlock : Books led held opensBlock (fun _ => held) fun _ => True := by
  intro ts b q _ us b' q' _ h
  rw [run_opensBlock] at h
  cases h
  exact ⟨rfl, trivial⟩

theorem books_literalLine (expected : String) :
    Books led held (literalLine expected) (fun l => held + {l}) fun _ => True := by
  unfold literalLine
  refine (books_literal expected).bind fun l _ => ?_
  exact books_lineEnd.bind fun _ _ => .pure rfl trivial

theorem books_moreLiterals (expected : String) {items : List Literal} (hi : items ≠ []) :
    Books led (held + ↑items) (moreLiterals expected items) (fun ls => held + ↑ls)
      fun ls => ls ≠ [] := by
  unfold moreLiterals
  refine .repeatWhile rfl hi fun items t _ ht => ?_
  rw [texts_of_not_isText (Token.not_isText (by decide) ht), add_zero]
  refine (books_literal expected).bind fun l _ => .pure ?_ (by simp)
  rw [add_assoc, ← Multiset.coe_add, Multiset.coe_singleton]

theorem books_literals (expected : String) :
    Books led held (literals expected) (fun ls => held + ↑ls) fun ls => ls ≠ [] := by
  unfold literals
  exact (books_literal expected).bind fun l _ =>
    books_moreLiterals expected (List.cons_ne_nil l [])

theorem books_literalsLine (expected : String) :
    Books led held (literalsLine expected) (fun ls => held + ↑ls) fun ls => ls ≠ [] := by
  unfold literalsLine
  refine (books_literals expected).bind fun ls hls => ?_
  exact books_lineEnd.bind fun _ _ => .pure rfl hls

/-! ## Fields -/

/-- The token that starts a line of a block is booked as the keyword that it spells. -/
theorem books_memberKeyword (member : Token) (expected : String) (accepts : Keyword → Bool) :
    Books led (held + texts [member]) (memberKeyword member expected accepts) (fun _ => held)
      fun k => member.keyword? = some k ∧ accepts k = true := by
  unfold memberKeyword
  cases hk : member.keyword? with
  | none => exact .fail
  | some k =>
    rw [texts_of_not_isText (Token.not_isText_of_keyword hk), add_zero]
    dsimp only
    split_ifs with ha
    · exact .done rfl ⟨rfl, ha⟩
    · exact .fail

theorem books_fieldValue (k : Keyword) :
    Books led held (fieldValue k) (fun l => held + {l}) fun _ => True := books_literalLine _

/-- Fields that are proper stay so with one more field, and hold its text. -/
theorem books_addField {keywords : List Keyword} {fields : Fields} (hp : fields.Proper keywords)
    (member : Token) {k : Keyword} (hk : k ∈ keywords) (value : Literal) :
    Books led (held + ↑fields.literals + {value}) (addField fields member k value)
      (fun fs => held + ↑fs.literals) fun fs => fs.Proper keywords ∧ fs ≠ [] := by
  unfold addField
  split_ifs with hd
  · exact .fail
  · refine .done ?_ ⟨hp.add hk (by simpa using hd) value, by simp [Fields.add]⟩
    unfold Fields.literals Fields.add
    rw [List.map_append, ← Multiset.coe_add, add_assoc]
    rfl

/-- A block of fields holds the texts of its lines. -/
theorem books_fieldBlock (opener : Token) (expected : String) (keywords : List Keyword) :
    Books led held (fieldBlock opener expected keywords) (fun fs => held + ↑fs.literals)
      fun fs => fs.Proper keywords ∧ (led → fs ≠ []) := by
  unfold fieldBlock
  refine .block ?_ (Fields.proper_nil keywords) fun fields member hp => ?_
  · exact (add_zero held).symm
  · refine (books_memberKeyword member expected _).bind fun k hk => ?_
    refine (books_fieldValue k).bind fun l _ => ?_
    exact books_addField hp member (by simpa using hk.2) l

/-- The record that a block of fields describes holds the literals of the block. -/
theorem literals_ofFields [FieldRecord α] {fields : Fields}
    (h : fields.Proper (Fielded.keywords α)) (p : Position) :
    ((Fielded.literals (FieldRecord.ofFields fields p : α) : List Literal) : Multiset Literal)
      = ↑fields.literals :=
  Multiset.coe_eq_coe.mpr ((FieldRecord.declared_perm h p).map Prod.snd)

/-- A record declares something if its block has a field. -/
theorem declared_ofFields [FieldRecord α] {fields : Fields}
    (h : fields.Proper (Fielded.keywords α)) (p : Position) (hne : fields ≠ []) :
    Fielded.declared (FieldRecord.ofFields fields p : α) ≠ [] := by
  intro he
  have hp := FieldRecord.declared_perm (α := α) h p
  rw [he] at hp
  exact hne hp.nil_eq.symm

/-- A record that is read as a block of fields holds the texts of the block, and declares
something. -/
theorem books_record [FieldRecord α] (opener : Token) (expected : String) (p : Position)
    {f : α → β} {l : β → Multiset Literal} {g : β → Prop}
    (hl : ∀ a, held + ↑(Fielded.literals a) = l (f a))
    (hg : ∀ a, (led → Fielded.declared a ≠ []) → g (f a)) :
    Books led held
      (fieldBlock opener expected (Fielded.keywords α) >>= fun fields =>
        pure (f (FieldRecord.ofFields fields p)))
      l g := by
  refine (books_fieldBlock opener expected _).bind fun fields hf => ?_
  refine .pure ?_ (hg _ fun hled => declared_ofFields hf.1 p (hf.2 hled))
  rw [← hl, literals_ofFields hf.1]

end Grammar

end Manuscript
