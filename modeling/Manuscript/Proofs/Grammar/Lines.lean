import Manuscript.Grammar.Block
import Manuscript.Proofs.Grammar.ListRun

/-!
# Texts, lines and the start of a block

What the smallest productions of the grammar do in front of a list of tokens. Each has an equation
for the case that the tokens are the wanted ones, and a statement of what the tokens were if the
production succeeds.
-/

namespace Manuscript

namespace Token

/-- The text of a token and where it stands. -/
def literal (t : Token) : Literal := ⟨t.value, t.position⟩

/-! ## Kinds of tokens -/

variable {t : Token} {kind : TokenKind} {k : Keyword}

/-- A token of another kind is not a text. -/
theorem not_isText (hk : kind ≠ .text) (h : (t.kind == kind) = true) : t.isText = false := by
  unfold isText
  rw [eq_of_beq h]
  simpa using hk

/-- A token of another kind ends no line. -/
theorem not_isLineEnd (hk : kind ≠ .lineEnd) (h : (t.kind == kind) = true) :
    t.isLineEnd = false := by
  unfold isLineEnd
  rw [eq_of_beq h]
  simpa using hk

/-- A token of another kind is no increase of indentation. -/
theorem not_isIndent (hk : kind ≠ .indent) (h : (t.kind == kind) = true) :
    t.isIndent = false := by
  unfold isIndent
  rw [eq_of_beq h]
  simpa using hk

/-- A token that spells a keyword of the language is a word. -/
theorem isKeyword_of_keyword (h : t.keyword? = some k) : t.isKeyword = true := by
  unfold keyword? at h
  by_contra hword
  rw [if_neg hword] at h
  cases h

theorem not_isText_of_keyword (h : t.keyword? = some k) : t.isText = false :=
  not_isText (by decide) (isKeyword_of_keyword h)

theorem not_isLineEnd_of_keyword (h : t.keyword? = some k) : t.isLineEnd = false :=
  not_isLineEnd (by decide) (isKeyword_of_keyword h)

theorem not_isIndent_of_keyword (h : t.keyword? = some k) : t.isIndent = false :=
  not_isIndent (by decide) (isKeyword_of_keyword h)

end Token

namespace Grammar

open Production

variable {ts : List Token} {b : Bool} {q : Position}

/-! ## Requests -/

@[simp] theorem run_done {α : Type} (a : α) (c : Cursor) : (done a).run c = (.ok a, c) := rfl

@[simp] theorem run_pure {α : Type} (a : α) (c : Cursor) :
    (pure a : Production α).run c = (.ok a, c) := rfl

@[simp] theorem run_fail {α : Type} (e : SyntaxError) (c : Cursor) :
    (fail e : Production α).run c = (.error (.byGrammar e), c) := rfl

@[simp] theorem run_peekAt (n : Nat) :
    (peekAt n).run (.before ts b q) = (.ok ts[n]?, .before ts b q) := by
  unfold peekAt
  rw [run_peek, Cursor.peek_before]
  rfl

@[simp] theorem run_skip_cons (t : Token) :
    skip.run (.before (t :: ts) b q) = (.ok (), .before ts t.isLineEnd t.position) := by
  unfold skip
  rw [run_take, Cursor.take_before_cons]
  rfl

/-- A refused token or end of input is an error and leaves the tokens as they are. -/
theorem run_refuse {α : Type} (expected : String) :
    ∃ e, (refuse expected : Production α).run (.before ts b q) =
      (.error (.byGrammar e), .before ts b q) := by
  unfold refuse
  rw [run_peek, Cursor.peek_before, andThen_ok]
  cases ts with
  | nil => exact ⟨_, rfl⟩
  | cons t ts => exact ⟨_, rfl⟩

/-- What a production gave behind another one that gave something first. -/
theorem of_run_bind {α β : Type} {p : Production α} {f : α → Production β} {c d : Cursor} {y : β}
    (h : (p >>= f).run c = (.ok y, d)) :
    ∃ x e, p.run c = (.ok x, e) ∧ (f x).run e = (.ok y, d) := by
  rw [run_bind] at h
  rcases hp : p.run c with ⟨_ | x, e⟩
  · rw [hp] at h
    cases h
  · rw [hp] at h
    exact ⟨x, e, rfl, h⟩

/-- The same in front of lists of tokens. -/
theorem of_run_bind_before {α β : Type} {p : Production α} {f : α → Production β} {us : List Token}
    {b' : Bool} {q' : Position} {y : β}
    (h : (p >>= f).run (.before ts b q) = (.ok y, .before us b' q')) :
    ∃ x vs b₁ q₁, p.run (.before ts b q) = (.ok x, .before vs b₁ q₁)
      ∧ (f x).run (.before vs b₁ q₁) = (.ok y, .before us b' q') := by
  obtain ⟨x, c, hx, hy⟩ := of_run_bind h
  obtain ⟨-, vs, b₁, q₁, hc⟩ := run_listed p ts b q
  rw [hx] at hc
  obtain rfl : c = Cursor.before vs b₁ q₁ := hc
  exact ⟨x, vs, b₁, q₁, hx, hy⟩

/-- Two productions in a row, where the outcome of the first is known. -/
theorem run_bind_of_ok {α β : Type} {p : Production α} {f : α → Production β} {c d : Cursor}
    {x : α} (h : p.run c = (.ok x, d)) : (p >>= f).run c = (f x).run d := by
  rw [run_bind, h, andThen_ok]

/-- A production that was refused gave nothing. -/
theorem not_ok_of_refuse {α : Type} {expected : String} {a : α} {d : Cursor}
    (h : (refuse expected : Production α).run (.before ts b q) = (.ok a, d)) : False := by
  obtain ⟨e, he⟩ := @run_refuse ts b q α expected
  rw [he] at h
  cases h

/-! ## Texts -/

theorem run_literal (expected : String) {t : Token} (h : t.isText = true) :
    (literal expected).run (.before (t :: ts) b q) =
      (.ok t.literal, .before ts t.isLineEnd t.position) := by
  unfold literal
  rw [run_bind, run_peekAt, andThen_ok]
  simp only [List.getElem?_cons_zero, h, if_true]
  rw [run_bind, run_skip_cons]
  rfl

/-- A literal is the text in front of the cursor. -/
theorem of_run_literal {expected : String} {l : Literal} {c : Cursor}
    (h : (literal expected).run (.before ts b q) = (.ok l, c)) :
    ∃ t us, ts = t :: us ∧ t.isText = true ∧ l = t.literal
      ∧ c = .before us t.isLineEnd t.position := by
  cases ts with
  | nil =>
    unfold literal at h
    rw [run_bind, run_peekAt, andThen_ok] at h
    exact (not_ok_of_refuse h).elim
  | cons t us =>
    by_cases ht : t.isText = true
    · rw [run_literal expected ht] at h
      cases h
      exact ⟨t, us, rfl, ht, rfl, rfl⟩
    · unfold literal at h
      rw [run_bind, run_peekAt, andThen_ok] at h
      simp only [List.getElem?_cons_zero, ht] at h
      exact (not_ok_of_refuse h).elim

/-! ## Ends of lines -/

theorem run_lineEnd {t : Token} (h : t.isLineEnd = true) :
    lineEnd.run (.before (t :: ts) b q) = (.ok (), .before ts t.isLineEnd t.position) := by
  unfold lineEnd
  rw [run_bind, run_peekAt, andThen_ok]
  simp only [List.getElem?_cons_zero, h, if_true]
  rw [run_skip_cons, h]

/-- The end of a line is a token of its own, or the end of the tokens. -/
theorem of_run_lineEnd {c : Cursor} (h : lineEnd.run (.before ts b q) = (.ok (), c)) :
    (ts = [] ∧ c = .before [] b q)
      ∨ ∃ t us, ts = t :: us ∧ t.isLineEnd = true ∧ c = .before us t.isLineEnd t.position := by
  cases ts with
  | nil =>
    refine .inl ⟨rfl, ?_⟩
    cases h
    rfl
  | cons t us =>
    by_cases ht : t.isLineEnd = true
    · rw [run_lineEnd ht] at h
      cases h
      exact .inr ⟨t, us, rfl, ht, rfl⟩
    · unfold lineEnd at h
      rw [run_bind, run_peekAt, andThen_ok] at h
      simp only [List.getElem?_cons_zero, ht] at h
      exact (not_ok_of_refuse h).elim

/-! ## The start of a block -/

/-- The tokens are an end of line and an increase of indentation. -/
def opens : List Token → Bool
  | t :: m :: _ => t.isLineEnd && m.isIndent
  | _ => false

/-- Looking whether a block follows takes nothing. -/
theorem run_opensBlock : opensBlock.run (.before ts b q) = (.ok (opens ts), .before ts b q) := by
  unfold opensBlock
  rw [run_bind, run_peekAt, andThen_ok]
  rcases ts with _ | ⟨t, _ | ⟨m, us⟩⟩
  · rfl
  · by_cases ht : t.isLineEnd = true <;> simp [ht, opens, run_bind, andThen_ok]
  · by_cases ht : t.isLineEnd = true <;> simp [ht, opens, run_bind, andThen_ok]

theorem run_openBlock {opener t m : Token} (ht : t.isLineEnd = true) (hm : m.isIndent = true)
    (hv : m.value = toString (opener.indent + 1)) :
    (openBlock opener).run (.before (t :: m :: ts) b q) =
      (.ok (opener.indent + 1), .before ts m.isLineEnd m.position) := by
  unfold openBlock
  rw [run_bind, run_peekAt, andThen_ok]
  simp only [List.getElem?_cons_zero, ht, if_true]
  rw [run_bind, run_skip_cons, andThen_ok, run_bind, run_peekAt, andThen_ok]
  simp only [List.getElem?_cons_zero, hm, hv, beq_self_eq_true, Bool.and_self, if_true]
  rw [run_bind, run_skip_cons, andThen_ok]
  rfl

/-- A block opens with an end of line and an indentation to the depth of its lines. -/
theorem of_run_openBlock {opener : Token} {depth : Nat} {c : Cursor}
    (h : (openBlock opener).run (.before ts b q) = (.ok depth, c)) :
    ∃ t m us, ts = t :: m :: us ∧ t.isLineEnd = true ∧ m.isIndent = true
      ∧ m.value = toString (opener.indent + 1) ∧ depth = opener.indent + 1
      ∧ c = .before us m.isLineEnd m.position := by
  unfold openBlock at h
  rw [run_bind, run_peekAt, andThen_ok] at h
  -- in all cases but one a token is refused
  rcases ts with _ | ⟨t, us⟩
  · obtain ⟨_, _, hr, _⟩ := of_run_bind h
    exact (not_ok_of_refuse hr).elim
  · by_cases ht : t.isLineEnd = true
    · simp only [List.getElem?_cons_zero, ht, if_true] at h
      rw [run_bind, run_skip_cons, andThen_ok, run_bind, run_peekAt, andThen_ok] at h
      rcases us with _ | ⟨m, us⟩
      · obtain ⟨_, _, hr, _⟩ := of_run_bind h
        exact (not_ok_of_refuse hr).elim
      · by_cases hm : (m.isIndent && m.value == toString (opener.indent + 1)) = true
        · simp only [List.getElem?_cons_zero, hm, if_true] at h
          rw [run_bind, run_skip_cons, andThen_ok] at h
          cases h
          rw [Bool.and_eq_true, beq_iff_eq] at hm
          exact ⟨t, m, us, rfl, ht, hm.1, hm.2, rfl, rfl⟩
        · simp only [List.getElem?_cons_zero, hm] at h
          obtain ⟨_, _, hr, _⟩ := of_run_bind h
          exact (not_ok_of_refuse hr).elim
    · simp only [List.getElem?_cons_zero, ht] at h
      obtain ⟨_, _, hr, _⟩ := of_run_bind h
      exact (not_ok_of_refuse hr).elim

end Grammar

end Manuscript
