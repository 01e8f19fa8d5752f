import Mathlib.Tactic.SplitIfs
import Manuscript.Proofs.Grammar.Confined
import Manuscript.Proofs.Grammar.Conservation
import Manuscript.Proofs.Token.LineGroups

/-!
# Blocks one level at a time

A source that is parsed nowhere gets deeper by more than one level: every increase of indentation
opens a block, and a block stands one level below its opener.

* `Steady`: tokens behind each other on a line stand at the same depth.
* `Nested`: an increase of indentation is one level deeper than the token in front of it.
* `Climbs`: a production takes no increase of indentation but such.
* `nested_of_parse`: the tokens of a source that is parsed.
-/

namespace Manuscript

/-- Behind a token that does not end its line stands another one of the same depth. -/
def Steady : Token → List Token → Prop
  | _, [] => True
  | o, t :: ts => (o.isLineEnd = false → t.indent = o.indent) ∧ Steady t ts

/-- An increase of indentation is one level deeper than the token in front of it. -/
def Nested : Token → List Token → Prop
  | _, [] => True
  | o, t :: ts => (t.isIndent = true → t.value = toString (o.indent + 1)) ∧ Nested t ts

namespace Grammar

open Production

/-- A production behind a token takes no increase of indentation but those that go one level deeper:
what stands in front of it is nested if what it leaves is. -/
def Climbs {α : Type} (o : Token) (p : Production α) : Prop :=
  ∀ ts b q a us b' q', Steady o ts → p.run (.before ts b q) = (.ok a, .before us b' q') →
    ∃ o', Steady o' us ∧ (Nested o' us → Nested o ts)

variable {α β σ : Type} {o t : Token}

/-! ## Rules -/

theorem Climbs.done {a : α} : Climbs o (done a) := by
  intro ts b q a' us b' q' hs hr
  cases hr
  exact ⟨o, hs, id⟩

theorem Climbs.pure {a : α} : Climbs o (Pure.pure a) := .done

theorem Climbs.fail {e : SyntaxError} : Climbs (α := α) o (fail e) := by
  intro ts b q a us b' q' _ hr
  cases hr

theorem Climbs.refuse {expected : String} : Climbs (α := α) o (refuse expected) := by
  intro ts b q a us b' q' _ hr
  exact (not_ok_of_refuse hr).elim

theorem Climbs.bind {p : Production α} {f : α → Production β} (hp : Climbs o p)
    (hf : ∀ a o, Climbs o (f a)) : Climbs o (p >>= f) := by
  intro ts b q y us b' q' hs hr
  obtain ⟨x, vs, b₁, q₁, hx, hy⟩ := of_run_bind_before hr
  obtain ⟨o₁, hs₁, h₁⟩ := hp ts b q x vs b₁ q₁ hs hx
  obtain ⟨o₂, hs₂, h₂⟩ := hf x o₁ vs b₁ q₁ y us b' q' hs₁ hy
  exact ⟨o₂, hs₂, h₁ ∘ h₂⟩

theorem Climbs.map {p : Production α} (hp : Climbs o p) (f : α → β) :
    Climbs o (p >>= fun a => Pure.pure (f a)) := hp.bind fun _ _ => .pure

/-- A production that does not succeed behind an increase of indentation. -/
def Rejects {α : Type} (t : Token) (p : Production α) : Prop :=
  t.isIndent = true → ∀ c a d, p.run c ≠ (.ok a, d)

theorem Rejects.of_not_isIndent {p : Production α} (h : t.isIndent = false) : Rejects t p := by
  intro hmark
  rw [h] at hmark
  cases hmark

/-- A token is taken in front of a production that succeeds behind it. -/
theorem Climbs.taken {p : Production α} {ts us : List Token} {b b' : Bool} {q q' : Position} {a : α}
    (hp : Climbs t p) (ht : Rejects t p) (hs : Steady o (t :: ts))
    (hr : p.run (.before ts b q) = (.ok a, .before us b' q')) :
    ∃ o', Steady o' us ∧ (Nested o' us → Nested o (t :: ts)) := by
  have hmark : ¬ t.isIndent = true := fun hmark => ht hmark _ _ _ hr
  obtain ⟨o', hs', h⟩ := hp ts b q a us b' q' hs.2 hr
  exact ⟨o', hs', fun hus => ⟨fun ht => absurd ht hmark, h hus⟩⟩

/-- The next token is looked at, and it may be taken. -/
theorem Climbs.ahead {f : Option Token → Production α} (hnone : Climbs o (f none))
    (hsome : ∀ t, Climbs o (f (some t))
      ∨ ∃ p, f (some t) = (skip >>= fun _ => p) ∧ Rejects t p ∧ Climbs t p) :
    Climbs o (peekAt 0 >>= f) := by
  intro ts b q a us b' q' hs hr
  rw [run_bind, run_peekAt, andThen_ok] at hr
  cases ts with
  | nil => exact hnone [] b q a us b' q' hs hr
  | cons t ts =>
    rw [List.getElem?_cons_zero] at hr
    rcases hsome t with h | ⟨p, hp, hrejects, hclimbs⟩
    · exact h (t :: ts) b q a us b' q' hs hr
    · rw [hp, run_bind, run_skip_cons, andThen_ok] at hr
      exact hclimbs.taken hrejects hs hr

/-- What a loop takes is nested if its body takes nothing else. -/
theorem Climbs.repeatWhile {s : σ} {admits : σ → Token → Bool} {body : σ → Token → Production σ}
    (h : ∀ s t, admits s t = true → Rejects t (body s t) ∧ Climbs t (body s t)) :
    Climbs o (repeatWhile s admits body) := by
  intro ts b q s' us b' q' hs hr
  let motive (_ : σ) (vs : List Token) : Prop :=
    ∃ o', Steady o' vs ∧ (Nested o' vs → Nested o ts)
  refine (of_run_repeatWhile (motive := motive) ?_ ⟨o, hs, id⟩ hr).1
  rintro s t vs s' us b q ⟨o₁, hs₁, h₁⟩ hadmits hbody
  obtain ⟨hrejects, hclimbs⟩ := h s t hadmits
  obtain ⟨o₂, hs₂, h₂⟩ := hclimbs.taken hrejects hs₁ hbody
  exact ⟨o₂, hs₂, h₁ ∘ h₂⟩

/-- A block opens one level below its opener. -/
theorem climbs_openBlock {opener : Token} (ho : opener.isLineEnd = false) :
    Climbs opener (openBlock opener) := by
  intro ts b q depth us b' q' hs hr
  obtain ⟨t, m, vs, rfl, ht, hm, hvalue, rfl, hc⟩ := of_run_openBlock hr
  cases hc
  have hindent : t.indent = opener.indent := hs.1 ho
  refine ⟨m, hs.2.2, fun hus => ⟨fun hmark => ?_, fun _ => hindent ▸ hvalue, hus⟩⟩
  -- the end of the line is no increase of indentation
  rw [Token.not_isIndent (by decide) ht] at hmark
  cases hmark

/-- The lines of a block are nested if each of them is. -/
theorem Climbs.block {opener : Token} {s : σ} {member : σ → Token → Production σ}
    (ho : opener.isLineEnd = false) (h : ∀ s t, Climbs t (member s t)) :
    Climbs opener (block opener s member) := by
  unfold Grammar.block
  refine (climbs_openBlock ho).bind fun depth o => .repeatWhile fun s t _ => ?_
  by_cases hmark : t.isIndent = true
  · rw [if_pos hmark]
    exact ⟨fun _ _ _ _ => nofun, .fail⟩
  · rw [if_neg hmark]
    exact ⟨.of_not_isIndent (by simpa using hmark), h s t⟩

/-! ## Lines -/

theorem climbs_literal (expected : String) : Climbs o (literal expected) := by
  refine .ahead .refuse fun t => ?_
  by_cases ht : t.isText = true
  · exact .inr ⟨_, if_pos ht, .of_not_isIndent (Token.not_isIndent (by decide) ht), .pure⟩
  · refine .inl ?_
    dsimp only
    rw [if_neg ht]
    exact .refuse

/-- Items with separators between them. -/
theorem climbs_more {α : Type} {p : Production α} (hp : ∀ o, Climbs o p) (items : List α) :
    Climbs o (Production.repeatWhile items (fun _ t => t.isSeparator) fun items _ => do
      return items ++ [← p]) := by
  refine .repeatWhile fun items t ht => ?_
  exact ⟨.of_not_isIndent (Token.not_isIndent (by decide) ht), (hp t).map _⟩

theorem climbs_literals (expected : String) : Climbs o (literals expected) :=
  (climbs_literal expected).bind fun l _ => climbs_more (fun _ => climbs_literal expected) [l]

theorem climbs_lineEnd : Climbs o lineEnd := by
  refine .ahead .pure fun t => ?_
  by_cases ht : t.isLineEnd = true
  · refine .inr ⟨Pure.pure (), if_pos ht, .of_not_isIndent ?_, .pure⟩
    exact Token.not_isIndent (by decide) ht
  · refine .inl ?_
    dsimp only
    rw [if_neg ht]
    exact .refuse

/-- The last part of a line and its end. -/
theorem Climbs.line {p : Production α} (hp : Climbs o p) :
    Climbs o (do
      let a ← p
      lineEnd
      return a) :=
  hp.bind fun _ _ => climbs_lineEnd.map _

theorem climbs_literalLine (expected : String) : Climbs o (literalLine expected) :=
  (climbs_literal expected).line

theorem climbs_literalsLine (expected : String) : Climbs o (literalsLine expected) :=
  (climbs_literals expected).line

/-! ## Blocks -/

/-- To look for a block takes nothing. -/
theorem Climbs.opensBlock {f : Bool → Production α} (h : ∀ b, Climbs o (f b)) :
    Climbs o (opensBlock >>= f) := by
  intro ts b q a us b' q' hs hr
  rw [run_bind, run_opensBlock, andThen_ok] at hr
  exact h _ ts b q a us b' q' hs hr

/-- A line begins with its keyword. -/
theorem Climbs.memberKeyword {member : Token} {expected : String} {accepts : Keyword → Bool}
    {f : Keyword → Production α} (h : ∀ k, member.isLineEnd = false → Climbs o (f k)) :
    Climbs o (memberKeyword member expected accepts >>= f) := by
  unfold Grammar.memberKeyword
  cases hk : member.keyword? with
  | none => exact .fail
  | some k =>
    dsimp only
    by_cases ha : accepts k = true
    · rw [if_pos ha]
      exact h k (Token.not_isLineEnd_of_keyword hk)
    · rw [if_neg ha]
      exact .fail

theorem climbs_addField (fields : Fields) (member : Token) (k : Keyword) (value : Literal) :
    Climbs o (addField fields member k value) := by
  unfold addField
  by_cases hdeclared : fields.declares k = true
  · rw [if_pos hdeclared]
    exact .fail
  · rw [if_neg hdeclared]
    exact .done

theorem climbs_fieldBlock {opener : Token} (ho : opener.isLineEnd = false) (expected : String)
    (keywords : List Keyword) : Climbs opener (fieldBlock opener expected keywords) := by
  refine .block ho fun fields member => .memberKeyword fun k _ => ?_
  exact (climbs_literalLine _).bind fun l _ => climbs_addField fields member k l

/-! ## Title, people and publication -/

theorem climbs_fragmentFrom (first : Token) : Climbs o (fragmentFrom first) := by
  unfold fragmentFrom
  by_cases ht : first.isText = true
  · rw [if_pos ht]
    exact .done
  · rw [if_neg ht]
    by_cases hw : first.keyword? = some .work
    · rw [if_pos hw]
      exact (climbs_literal _).map _
    · rw [if_neg hw]
      exact .fail

theorem climbs_fragment : Climbs o fragment := by
  refine .ahead .refuse fun t => ?_
  by_cases ht : beginsFragment t = true
  · refine .inr ⟨_, if_pos ht, .of_not_isIndent ?_, climbs_fragmentFrom t⟩
    unfold beginsFragment at ht
    rw [Bool.or_eq_true, beq_iff_eq] at ht
    exact ht.elim (Token.not_isIndent (by decide)) Token.not_isIndent_of_keyword
  · refine .inl ?_
    dsimp only
    rw [if_neg ht]
    exact .refuse

theorem climbs_moreFragments (fragments : List TitleFragment) :
    Climbs o (moreFragments fragments) := climbs_more (fun _ => climbs_fragment) fragments

theorem climbs_titleSection {opener : Token} (ho : opener.isLineEnd = false) :
    Climbs opener (titleSection opener) := by
  refine .opensBlock fun opens => ?_
  cases opens with
  | true =>
    refine .block ho fun fragments first => (climbs_fragmentFrom first).bind fun f _ => ?_
    exact (climbs_moreFragments _).line
  | false => exact climbs_fragment.bind fun f _ => (climbs_moreFragments _).line

theorem climbs_peopleSection {opener : Token} (ho : opener.isLineEnd = false) :
    Climbs opener (peopleSection opener) := by
  refine .opensBlock fun opens => ?_
  cases opens with
  | true => exact (climbs_fieldBlock ho _ _).map _
  | false => exact (climbs_literalsLine _).map _

/-! ## Style -/

theorem Climbs.once {declared : Option β} {member : Token} {p : Production α} (h : Climbs o p) :
    Climbs o (once declared member p) := by
  unfold Grammar.once
  by_cases hd : declared.isSome = true
  · rw [if_pos hd]
    exact .fail
  · rw [if_neg hd]
    exact h

theorem climbs_nameOnce (declared : Option Literal) (member : Token) :
    Climbs o (nameOnce declared member) := by
  refine (climbs_literalLine _).bind fun name _ => ?_
  by_cases hd : declared.isSome = true
  · rw [if_pos hd]
    exact .fail
  · rw [if_neg hd]
    exact .pure

theorem climbs_numerationBlock {opener : Token} (ho : opener.isLineEnd = false) :
    Climbs opener (numerationBlock opener) := by
  refine Climbs.map ?_ _
  refine .block ho fun (fields, skip) member => .memberKeyword fun k _ => ?_
  by_cases hskip : k = .skip
  · rw [if_pos hskip]
    by_cases hempty : skip.isEmpty = true
    · rw [if_pos hempty]
      exact (climbs_literalsLine _).map _
    · rw [if_neg hempty]
      exact .fail
  · rw [if_neg hskip]
    exact (climbs_literalLine _).bind fun l _ => (climbs_addField fields member k l).map _

theorem climbs_partList {opener : Token} (ho : opener.isLineEnd = false) :
    Climbs opener (partList opener) := by
  refine .opensBlock fun opens => ?_
  cases opens with
  | true =>
    refine Climbs.map ?_ _
    refine .block ho fun parts first => ?_
    by_cases ht : first.isText = true
    · rw [if_pos ht]
      exact (climbs_more (fun _ => climbs_literal _) _).line
    · rw [if_neg ht]
      exact .fail
  | false => exact (climbs_literalsLine _).map _

theorem climbs_styleLine (style : StyleBlock) (member : Token) :
    Climbs member (styleLine style member) := by
  refine .memberKeyword fun k hm => ?_
  split
  · exact (climbs_nameOnce _ member).map _
  · exact (climbs_nameOnce _ member).map _
  · exact ((climbs_fieldBlock hm _ _).map _).once
  · exact ((climbs_fieldBlock hm _ _).map _).once
  · exact ((climbs_fieldBlock hm _ _).map _).once
  · exact ((climbs_fieldBlock hm _ _).map _).once
  · exact ((climbs_numerationBlock hm).map _).once
  · exact ((climbs_partList hm).map _).once
  · exact ((climbs_fieldBlock hm _ _).map _).once
  · exact .fail

theorem climbs_styleSection {opener : Token} (ho : opener.isLineEnd = false) :
    Climbs opener (styleSection opener) := by
  refine .opensBlock fun opens => ?_
  cases opens with
  | true => exact .block ho climbs_styleLine
  | false => exact (climbs_literalLine _).map _

/-! ## Content -/

theorem climbs_citedPage : Climbs o citedPage := by
  refine .ahead .pure fun t => ?_
  by_cases hp : t.keyword? = some .page
  · refine .inr ⟨_, if_pos hp, .of_not_isIndent (Token.not_isIndent_of_keyword hp), ?_⟩
    exact (climbs_literal _).map _
  · refine .inl ?_
    dsimp only
    rw [if_neg hp]
    exact .pure

theorem climbs_runOf (k : Keyword) : Climbs o (runOf k) := by
  refine (climbs_literal _).bind fun l _ => ?_
  split
  · exact .pure
  · exact .pure
  · exact .pure
  · exact .pure
  · exact .pure
  · exact climbs_citedPage.map _

theorem climbs_sentenceStep (line : SentenceLine) (t : Token) :
    Climbs o (sentenceStep line t) := by
  unfold sentenceStep
  split_ifs
  · exact .done
  · exact .done
  · exact .done
  · split
    · split_ifs
      · exact (climbs_runOf _).map _
      · exact .fail
    · exact .fail

/-- No sentence goes on with an increase of indentation. -/
theorem rejects_sentenceStep (line : SentenceLine) (t : Token) :
    Rejects t (sentenceStep line t) := by
  intro hmark c a d hr
  have hkind : t.kind = .indent := eq_of_beq hmark
  simp [sentenceStep, Token.isLineEnd, Token.isSeparator, Token.isText, Token.keyword?,
    Token.isKeyword, hkind] at hr

theorem rejects_sentenceFrom (first : Token) : Rejects first (sentenceFrom first) := by
  intro hmark c a d hr
  obtain ⟨_, _, hstep, -⟩ := of_run_bind hr
  exact rejects_sentenceStep {} first hmark _ _ _ hstep

theorem climbs_sentenceFrom (first : Token) : Climbs o (sentenceFrom first) := by
  refine (climbs_sentenceStep {} first).bind fun line _ => ?_
  refine Climbs.bind (.repeatWhile fun line t _ => ?_) fun line _ => ?_
  · exact ⟨rejects_sentenceStep line t, climbs_sentenceStep line t⟩
  · by_cases hempty : line.runs.isEmpty = true
    · rw [if_pos hempty]
      exact .fail
    · rw [if_neg hempty]
      exact .pure

theorem climbs_contentSection (kind : ContentKind) {opener : Token}
    (ho : opener.isLineEnd = false) : Climbs opener (contentSection kind opener) := by
  refine .opensBlock fun opens => ?_
  cases opens with
  | true =>
    refine Climbs.map ?_ _
    exact .block ho fun sentences first => (climbs_sentenceFrom first).map _
  | false =>
    refine .ahead .refuse fun first => .inr ⟨_, rfl, ?_, (climbs_sentenceFrom first).map _⟩
    intro hmark c a d hr
    obtain ⟨_, _, hsentence, -⟩ := of_run_bind hr
    exact rejects_sentenceFrom first hmark _ _ _ hsentence

theorem climbs_imageSection {opener : Token} (ho : opener.isLineEnd = false) :
    Climbs opener (imageSection opener) := by
  refine .opensBlock fun opens => ?_
  cases opens with
  | true => exact (climbs_fieldBlock ho _ _).map _
  | false =>
    refine (climbs_literals _).bind fun ls _ => ?_
    cases Image.ofValues? opener.position ls with
    | none => exact .fail
    | some image => exact climbs_lineEnd.map _

/-! ## Bibliography -/

theorem climbs_source (kind : SourceKind) {opener : Token} (ho : opener.isLineEnd = false) :
    Climbs opener (source kind opener) := by
  refine Climbs.map ?_ _
  refine .block ho fun (authors, fields) member => .memberKeyword fun k _ => ?_
  by_cases hauthor : k = .author
  · rw [if_pos hauthor]
    by_cases hempty : authors.isEmpty = true
    · rw [if_pos hempty]
      exact (climbs_literalsLine _).map _
    · rw [if_neg hempty]
      exact .fail
  · rw [if_neg hauthor]
    exact (climbs_literalLine _).bind fun l _ => (climbs_addField fields member k l).map _

theorem climbs_bibliographySection {opener : Token} (ho : opener.isLineEnd = false) :
    Climbs opener (bibliographySection opener) := by
  refine .block ho fun sources member => .memberKeyword fun k hm => ?_
  cases SourceKind.ofKeyword? k with
  | none => exact .fail
  | some kind => exact (climbs_source kind hm).map _

/-! ## Sections -/

theorem climbs_sectionBody (first : Bool) (k : Keyword) {opener : Token}
    (ho : opener.isLineEnd = false) : Climbs opener (sectionBody first k opener) := by
  unfold sectionBody
  split
  · by_cases hf : first = true
    · rw [if_pos hf]
      exact (climbs_literalLine _).map _
    · rw [if_neg hf]
      exact .fail
  · exact (climbs_literalLine _).map _
  · exact (climbs_titleSection ho).map _
  · exact (climbs_peopleSection ho).map _
  · exact (climbs_peopleSection ho).map _
  · exact ((climbs_fieldBlock ho _ _).map _).map _
  · exact (climbs_styleSection ho).map _
  · exact (climbs_literalLine _).map _
  · exact (climbs_contentSection _ ho).map _
  · exact (climbs_contentSection _ ho).map _
  · exact (climbs_contentSection _ ho).map _
  · exact (climbs_contentSection _ ho).map _
  · exact (climbs_contentSection _ ho).map _
  · exact (climbs_bibliographySection ho).map _
  · exact climbs_lineEnd.map _
  · exact climbs_lineEnd.map _
  · exact (climbs_imageSection ho).map _
  · exact .fail

/-- A section begins with its keyword, and no increase of indentation but those of its blocks is in
it. -/
theorem climbs_sectionFrom (seen : List Keyword) (first : Bool) (opener : Token) :
    Rejects opener (sectionFrom seen first opener)
      ∧ Climbs opener (sectionFrom seen first opener) := by
  unfold sectionFrom
  cases hk : sectionKeyword? opener with
  | none => exact ⟨fun _ _ _ _ => nofun, .fail⟩
  | some k =>
    have hword : opener.keyword? = some k := (Option.filter_eq_some_iff.mp hk).1
    refine ⟨.of_not_isIndent (Token.not_isIndent_of_keyword hword), ?_⟩
    dsimp only
    by_cases hseen : (!k.isRepeatable && seen.contains k) = true
    · rw [if_pos hseen]
      exact .fail
    · rw [if_neg hseen]
      exact climbs_sectionBody first k (Token.not_isLineEnd_of_keyword hword)

/-- Sections of which none is broken are nested, and the first of them is not indented. -/
theorem nested_of_run_sections {source : List Token} {progress : Progress} {c : Cursor} {b : Bool}
    {q : Position} (hs : Steady o source)
    (h : sections.run (.before source b q) = (.ok progress, c)) (hok : progress.errors = []) :
    Nested o source ∧ ∀ t ∈ source.head?, t.isIndent = false := by
  obtain ⟨-, us, b', q', hc⟩ := run_listed sections source b q
  rw [h] at hc
  obtain rfl : c = Cursor.before us b' q' := hc
  -- a broken section leaves its error behind, so that no error at the end means none before
  let motive (progress : Progress) (ts : List Token) : Prop :=
    progress.errors = [] → (∃ o', Steady o' ts ∧ (Nested o' ts → Nested o source))
      ∧ (ts = source ∨ ∀ t ∈ source.head?, t.isIndent = false)
  have hstep : ∀ progress t ts progress' us b q, motive progress (t :: ts) → (true = true) →
      (step progress t).run (.before ts t.isLineEnd t.position) = (.ok progress', .before us b q) →
        motive progress' us := by
    intro progress t ts progress' us b q hm _ hr hok
    obtain ⟨hbefore, d, hd, -⟩ := of_run_step hr hok
    obtain ⟨⟨o₁, hs₁, h₁⟩, hstart⟩ := hm hbefore
    obtain ⟨hrejects, hclimbs⟩ :=
      climbs_sectionFrom progress.seen progress.declarations.isEmpty t
    obtain ⟨o₂, hs₂, h₂⟩ := hclimbs.taken hrejects hs₁ hd
    refine ⟨⟨o₂, hs₂, h₁ ∘ h₂⟩, .inr ?_⟩
    rcases hstart with rfl | hstart
    · rintro _ ⟨⟩
      by_contra hmark
      exact hrejects (by simpa using hmark) _ _ _ hd
    · exact hstart
  obtain ⟨hsource, hend⟩ := of_run_repeatWhile hstep (fun _ => ⟨⟨o, hs, id⟩, .inl rfl⟩) h
  obtain ⟨⟨o', -, hnested⟩, hstart⟩ := hsource hok
  cases us with
  | nil =>
    refine ⟨hnested trivial, ?_⟩
    rcases hstart with rfl | hstart
    · exact nofun
    · exact hstart
  | cons t us => exact absurd (hend t rfl) (by simp)

/-! ## The whole source -/

/-- The tokens of a line stand at one depth. -/
theorem steady_line {stop : Token} {ts us : List Token} {d : Nat} (hts : ∀ t ∈ ts, t.indent = d)
    (hd : stop.indent = d) (ho : o.isLineEnd = false → o.indent = d) (hus : Steady stop us) :
    Steady o (ts ++ stop :: us) := by
  induction ts generalizing o with
  | nil => exact ⟨fun h => hd.trans (ho h).symm, hus⟩
  | cons t ts ih =>
    obtain ⟨ht, hts⟩ := List.forall_mem_cons.mp hts
    exact ⟨fun h => ht.trans (ho h).symm, ih hts fun _ => ht⟩

theorem steady_lines (lines : List TokenLine) (ho : o.isLineEnd = true) :
    Steady o (lines.flatMap TokenLine.tokens) := by
  induction lines generalizing o with
  | nil => trivial
  | cons line lines ih =>
    have hstop : line.stop.isLineEnd = true := beq_iff_eq.mpr line.stop_lineEnd
    rw [List.flatMap_cons, TokenLine.tokens, List.append_assoc]
    refine steady_line (d := line.depth) (fun t ht => ?_) ?_ (by simp [ho]) (ih hstop)
    · exact line.indent_eq t (List.mem_append_left _ ht)
    · exact line.indent_eq line.stop (by simp)

/-- A source that is parsed is nested, and its first line is not indented. -/
theorem nested_of_parse {source : String} {ts : List Token} {spec : Specification}
    (htokenize : tokenize source = .ok ts) (h : (TokenWindow.ofTokens ts).parse.1 = .ok spec)
    (ho : o.isLineEnd = true) : Nested o ts ∧ ∀ t ∈ ts.head?, t.isIndent = false := by
  obtain ⟨lines, rfl, -⟩ := tokenize_lineGroups htokenize
  obtain ⟨progress, c, hr, hok, -⟩ := of_parse h
  exact nested_of_run_sections (steady_lines lines ho) hr hok

end Grammar

end Manuscript
