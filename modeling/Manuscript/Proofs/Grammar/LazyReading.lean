import Manuscript.Compilation.Compile
import Manuscript.Proofs.Grammar.ListRun

/-!
# Reading lazily

The parser reads a source only as far as it looks ahead. `parse_eq_tokenize` says that this cannot
be told from its outcome: it is the outcome of parsing the tokens of the whole source, or the first
lexical error, however far into the source that stands.

A source with a lexical error has a stream that ends in it. The loop over the sections takes every
token of the stream, because no section stops it for good, and so it meets the error.
-/

namespace Manuscript

open Production

/-! ## The version gate -/

/-- The version gate, as a function of the stream. -/
def TokenStream.checkVersion (s : TokenStream) : Except Failure Unit :=
  match s.peek 0 with
  | .error e => .error (.lexical e)
  | .ok none => .ok ()
  | .ok (some keyword) =>
    if keyword.keyword? ≠ some .version then .ok ()
    else
      match s.peek 1 with
      | .error e => .error (.lexical e)
      | .ok none => .ok ()
      | .ok (some value) =>
        if value.isText then Manuscript.checkVersion value.value (some value.position) else .ok ()

namespace TokenWindow

/-- The version gate depends on the stream alone and leaves it as it is. -/
theorem checkVersion_eq (w : TokenWindow) :
    ∃ w', w.checkVersion = (w.stream.checkVersion, w')
      ∧ (w.stream.checkVersion = .ok () → w'.stream = w.stream) := by
  obtain ⟨w₁, h₁, hs₁⟩ := w.peek_eq 0
  unfold checkVersion TokenStream.checkVersion
  rw [h₁]
  rcases hp : w.stream.peek 0 with e | _ | t
  · exact ⟨w₁, rfl, by simp⟩
  · exact ⟨w₁, rfl, fun _ => hs₁ ⟨_, hp⟩⟩
  · have hw₁ := hs₁ ⟨_, hp⟩
    by_cases hk : t.keyword? ≠ some .version
    · exact ⟨w₁, by simp only [if_pos hk], fun _ => hw₁⟩
    · obtain ⟨w₂, h₂, hs₂⟩ := w₁.peek_eq 1
      rw [hw₁] at h₂ hs₂
      simp only [if_neg hk, h₂]
      rcases hq : w.stream.peek 1 with e | _ | v
      · exact ⟨w₂, rfl, by simp⟩
      · exact ⟨w₂, rfl, fun _ => hs₂ ⟨_, hq⟩⟩
      · refine ⟨w₂, ?_, fun _ => hs₂ ⟨_, hq⟩⟩
        by_cases ht : v.isText = true <;> simp only [ht] <;> rfl

/-- What the version gate says is told by the stream. -/
theorem checkVersion_fst (w : TokenWindow) : w.checkVersion.1 = w.stream.checkVersion := by
  obtain ⟨w', hw, -⟩ := w.checkVersion_eq
  rw [hw]

/-- A lexical error of the version gate is the error of the stream. -/
theorem error_of_checkVersion {s : TokenStream} {e : LexicalError}
    (h : s.checkVersion = .error (.lexical e)) : s.error = some e := by
  unfold TokenStream.checkVersion at h
  split at h
  next hp =>
    cases h
    exact TokenStream.error_of_peek hp
  · cases h
  · split_ifs at h
    split at h
    next hp =>
      cases h
      exact TokenStream.error_of_peek hp
    · cases h
    · split_ifs at h
      unfold Manuscript.checkVersion at h
      split_ifs at h
      cases h

/-- The version gate gives no other failures than an unsupported version and a lexical error. -/
theorem checkVersion_cases (s : TokenStream) :
    s.checkVersion = .ok () ∨ (∃ e, s.checkVersion = .error (.lexical e))
      ∨ ∃ v known p, s.checkVersion = .error (.unsupportedVersion v known p) := by
  unfold TokenStream.checkVersion
  rcases s.peek 0 with e | _ | t
  · exact .inr (.inl ⟨e, rfl⟩)
  · exact .inl rfl
  · by_cases hk : t.keyword? ≠ some .version
    · exact .inl (by simp only [if_pos hk])
    · simp only [if_neg hk]
      rcases s.peek 1 with e | _ | v
      · exact .inr (.inl ⟨e, rfl⟩)
      · exact .inl rfl
      · simp only [Manuscript.checkVersion]
        split_ifs
        · exact .inl rfl
        · exact .inr (.inr ⟨_, _, _, rfl⟩)
        · exact .inl rfl

/-- The version gate lets tokens pass unless they start with a version that is not supported. -/
theorem checkVersion_complete (ts : List Token) :
    TokenStream.checkVersion ⟨ts, none⟩ = .ok () ↔
      ∀ t u us, ts = t :: u :: us → t.keyword? = some .version → u.isText = true →
        Text.trim u.value ∈ supportedVersions := by
  unfold TokenStream.checkVersion
  rw [TokenStream.peek_complete, TokenStream.peek_complete]
  match ts with
  | [] => exact ⟨fun _ => nofun, fun _ => rfl⟩
  | [t] =>
    refine ⟨fun _ => nofun, fun _ => ?_⟩
    by_cases hk : t.keyword? = some .version <;> simp [hk]
  | t :: u :: us =>
    have hgate : Manuscript.checkVersion u.value (some u.position) = .ok ()
        ↔ Text.trim u.value ∈ supportedVersions := by
      unfold Manuscript.checkVersion
      split_ifs with hc
      · simpa using hc
      · simpa using hc
    by_cases hk : t.keyword? = some .version
    · by_cases hu : u.isText = true
      · simp [hk, hu, hgate]
      · simp [hk, hu]
    · simp [hk]

/-! ## Parsing a stream -/

/-- What is parsed depends on the stream alone. -/
theorem parse_congr {v w : TokenWindow} (h : v.stream = w.stream) : v.parse.1 = w.parse.1 := by
  have hrun := run_agrees Grammar.sections
    (c := { window := v }) (d := { window := w }) ⟨h, rfl, rfl⟩
  unfold parse
  rcases hv : Grammar.sections.run { window := v } with ⟨r, c⟩
  rcases hw : Grammar.sections.run { window := w } with ⟨r', d⟩
  rw [hv, hw] at hrun
  obtain rfl : r = r' := hrun.result
  rcases r with (e | e) | progress
  · rfl
  · rfl
  · by_cases he : progress.errors.isEmpty = true <;> simp only [he] <;> rfl

/-- What a window declares depends on the stream alone. -/
theorem specification_congr {v w : TokenWindow} (h : v.stream = w.stream) :
    v.specification = w.specification := by
  obtain ⟨v', hv, hvs⟩ := v.checkVersion_eq
  obtain ⟨w', hw, hws⟩ := w.checkVersion_eq
  unfold specification
  rw [hv, hw, h]
  rw [h] at hvs
  cases hc : w.stream.checkVersion with
  | error e => rfl
  | ok u => exact parse_congr ((hvs hc).trans (hws hc).symm)

end TokenWindow

/-! ## Meeting the lexical error -/

namespace Production

/-- A production whose runs are never stopped by the grammar. -/
def Recovers {α : Type} (p : Production α) : Prop :=
  ∀ c e, (p.run c).1 ≠ .error (.byGrammar e)

theorem recovers_done {α : Type} (a : α) : (done a).Recovers := by
  intro c e
  simp [run]

theorem Recovers.bind {α β : Type} {p : Production α} {f : α → Production β} (hp : p.Recovers)
    (hf : ∀ a, (f a).Recovers) : (p >>= f).Recovers := by
  intro c e
  rw [run_bind]
  have h := hp c
  rcases hr : p.run c with ⟨(e' | e') | a, d⟩
  · exact (h e' (by rw [hr])).elim
  · simp [andThen]
  · exact hf a d e

/-- Only a lexical error stops a loop whose body recovers. -/
theorem iterate_recovers {σ : Type} (admits : σ → Token → Bool) (body : σ → Token → Production σ)
    (hbody : ∀ s t, (body s t).Recovers) (fuel : Nat) (s : σ) (c : Cursor) (e : SyntaxError) :
    (iterate admits (fun s t => (body s t).run) fuel s c).1 ≠ .error (.byGrammar e) := by
  induction fuel generalizing s c with
  | zero => simp [iterate]
  | succ fuel ih =>
    obtain ⟨d, hd, _⟩ := c.peek_eq 0
    rw [iterate_succ, hd]
    rcases c.stream.peek 0 with e' | _ | t
    · simp [andThen, answer]
    · simp [andThen, answer]
    · show (if _ then _ else _ : Except Stop σ × Cursor).1 ≠ _
      split_ifs
      · obtain ⟨d', hd', _⟩ := d.take_eq
        rw [hd']
        rcases d.stream.peek 0 with e' | u
        · simp [andThen, answer, Except.map]
        · show (andThen ((body s t).run d') _).1 ≠ _
          have h := hbody s t d'
          rcases hr : (body s t).run d' with ⟨(e' | e') | s', d''⟩
          · exact (h e' (by rw [hr])).elim
          · simp [andThen]
          · exact ih s' d''
      · simp

theorem recovers_repeatWhile {σ : Type} (s : σ) (admits : σ → Token → Bool)
    {body : σ → Token → Production σ} (hbody : ∀ s t, (body s t).Recovers) :
    (repeatWhile s admits body).Recovers := by
  intro c e
  unfold repeatWhile
  rw [run_loop]
  have h := iterate_recovers admits body hbody (c.window.bound + 1) s c
  rcases hr : iterate admits (fun s t => (body s t).run) (c.window.bound + 1) s c with
    ⟨(e' | e') | s', d⟩
  · exact (h e' (by rw [hr])).elim
  · simp [andThen]
  · simp [andThen, run]

theorem recovers_outcome {α : Type} (inner : Production α) : (outcome inner).Recovers := by
  intro c e
  unfold outcome run
  rcases inner.run c with ⟨(e' | e') | a, d⟩ <;> simp [run]

/-- A loop that goes on to the end of the source meets the error that cuts it off. -/
theorem iterate_meets_error {σ : Type} (body : σ → Token → Production σ)
    (hbody : ∀ s t, (body s t).Recovers) {fuel : Nat} {c : Cursor} {e : LexicalError}
    (he : c.stream.error = some e) (hf : c.stream.tokens.length < fuel) (s : σ) :
    (iterate (fun _ _ => true) (fun s t => (body s t).run) fuel s c).1 = .error (.byLexer e) := by
  -- every round takes a token of the stream, so that fuel for all of them reaches its end
  induction fuel generalizing s c with
  | zero => omega
  | succ fuel ih =>
    obtain ⟨d, hd, hagree⟩ := c.peek_eq 0
    rw [iterate_succ, hd]
    rcases hp : c.stream.peek 0 with e' | _ | t
    · rw [TokenStream.error_of_peek hp] at he
      cases he
      rfl
    · rw [TokenStream.complete_of_peek hp] at he
      cases he
    · have hdc := hagree ⟨_, hp⟩
      obtain ⟨d', hd', _, htail⟩ := d.take_eq
      rw [hdc.stream, hp] at hd' htail
      have hs := (htail t rfl).1
      show (andThen d.take _).1 = _
      rw [hd']
      show (andThen ((body s t).run d') _).1 = _
      have he' : d'.stream.error = some e := by
        rw [hs]
        exact he
      have hlen : d'.stream.tokens.length + 1 = c.stream.tokens.length := by
        rw [hs, TokenStream.tokens_of_peek hp]
        rfl
      have hn := run_narrows (body s t) d'
      have hb := hbody s t d'
      -- the body recovers, so that it ends or is stopped by the error of the stream
      rcases hr : (body s t).run d' with ⟨(e' | e') | s', d''⟩
      · exact (hb e' (by rw [hr])).elim
      · rw [hr] at hn
        obtain rfl : e' = e := Option.some.inj (hn.symm.trans he')
        rfl
      · rw [hr] at hn
        have hle : d''.stream.tokens.length ≤ d'.stream.tokens.length := hn.2.length_le
        have hlt : d''.stream.tokens.length < fuel := by omega
        exact ih (hn.1.trans he') hlt s'

end Production

namespace Grammar

theorem recovers_resynchronize (start : Position) : (resynchronize start).Recovers := by
  intro c e
  exact (recovers_repeatWhile _ _ fun _ _ => recovers_done _).bind (fun _ => recovers_done _) c e

/-- A section that does not follow the grammar does not stop the parser. -/
theorem recovers_step (progress : Progress) (t : Token) : (step progress t).Recovers := by
  refine (recovers_outcome _).bind fun r => ?_
  cases r with
  | error e => exact (recovers_resynchronize t.position).bind fun _ => recovers_done _
  | ok d => exact recovers_done _

/-- The parser reads up to the error that cuts its stream off. -/
theorem sections_meets_error {c : Cursor} {e : LexicalError} (he : c.stream.error = some e) :
    (sections.run c).1 = .error (.byLexer e) := by
  unfold sections repeatWhile
  rw [run_loop]
  have hf : c.stream.tokens.length < c.window.bound + 1 := Nat.lt_succ_of_le c.stream_length
  have h := iterate_meets_error step recovers_step he hf {}
  rcases hr : iterate (fun _ _ => true) (fun s t => (step s t).run) (c.window.bound + 1) {} c with
    ⟨r, d⟩
  rw [hr] at h
  obtain rfl : r = .error (.byLexer e) := h
  rfl

end Grammar

/-- Parsing a stream that an error cuts off gives that error, unless the version is refused. -/
theorem TokenWindow.specification_of_error {w : TokenWindow} {e : LexicalError}
    (he : w.stream.error = some e)
    (gate : ∀ v known p, w.checkVersion.1 ≠ .error (.unsupportedVersion v known p)) :
    w.specification = .error (.lexical e) := by
  obtain ⟨w', hw, hs⟩ := w.checkVersion_eq
  rw [hw] at gate
  unfold specification
  rw [hw]
  obtain hc | ⟨e', hc⟩ | ⟨v, known, p, hc⟩ := checkVersion_cases w.stream
  · rw [hc]
    have hm := Grammar.sections_meets_error (c := { window := w' }) (e := e)
      (by rw [← he, ← hs hc]; rfl)
    show w'.parse.1 = _
    unfold parse
    rcases hr : Grammar.sections.run { window := w' } with ⟨r, d⟩
    rw [hr] at hm
    obtain rfl : r = .error (.byLexer e) := hm
    rfl
  · rw [hc]
    have hresult := error_of_checkVersion hc
    rw [he] at hresult
    cases hresult
    rfl
  · exact (gate v known p hc).elim

/-! ## Whole sources -/

/-- The stream of a source, by what reading it at once gives. -/
theorem stream_of_tokenize (source : String) :
    (∀ ts, tokenize source = .ok ts → (TokenWindow.ofSource source).stream = ⟨ts, none⟩)
      ∧ ∀ e, tokenize source = .error e → (TokenWindow.ofSource source).stream.error = some e := by
  unfold tokenize
  rw [TokenWindow.stream_ofSource, Lexer.read_eq]
  show (∀ ts, _ → Scanner.stream ⟨{}, []⟩ source.toList = ⟨ts, none⟩)
    ∧ ∀ e, _ → (Scanner.stream ⟨{}, []⟩ source.toList).error = some e
  rcases Scanner.stream ⟨{}, []⟩ source.toList with ⟨ts, _ | e⟩
  · refine ⟨?_, nofun⟩
    rintro _ ⟨⟩
    rfl
  · refine ⟨nofun, ?_⟩
    rintro _ ⟨⟩
    rfl

/-- A source that can be read at once is parsed as its tokens are. -/
theorem parse_of_tokenize {source : String} {ts : List Token} (h : tokenize source = .ok ts) :
    parse source = parseTokens ts := by
  have hs := (stream_of_tokenize source).1 ts h
  exact TokenWindow.specification_congr (hs.trans (TokenWindow.stream_ofTokens ts).symm)

/-- A list of tokens that the version gate lets pass is parsed. -/
theorem parseTokens_of_gate {ts : List Token}
    (h : TokenStream.checkVersion ⟨ts, none⟩ = .ok ()) :
    parseTokens ts = (TokenWindow.ofTokens ts).parse.1 := by
  obtain ⟨w, hw, hs⟩ := (TokenWindow.ofTokens ts).checkVersion_eq
  rw [TokenWindow.stream_ofTokens] at hw hs
  unfold parseTokens TokenWindow.specification
  rw [hw, h]
  exact TokenWindow.parse_congr ((hs h).trans (TokenWindow.stream_ofTokens ts).symm)

/-- What is parsed passed the version gate. -/
theorem gate_of_specification {w : TokenWindow} {spec : Specification}
    (h : w.specification = .ok spec) : w.checkVersion.1 = .ok () := by
  unfold TokenWindow.specification at h
  rcases hw : w.checkVersion with ⟨e | _, w'⟩
  · rw [hw] at h
    cases h
  · rfl

/-- A list of tokens that is parsed passed the version gate. -/
theorem gate_of_parseTokens {ts : List Token} {spec : Specification}
    (h : parseTokens ts = .ok spec) : TokenStream.checkVersion ⟨ts, none⟩ = .ok () := by
  have hgate := gate_of_specification h
  rw [TokenWindow.checkVersion_fst, TokenWindow.stream_ofTokens] at hgate
  exact hgate

/-- Tokens that do not follow the grammar passed the version gate. -/
theorem gate_of_syntaxErrors {w : TokenWindow} {errors : List SyntaxError}
    (h : w.specification = .error (.grammar errors)) : w.checkVersion.1 = .ok () := by
  have hcases := TokenWindow.checkVersion_cases w.stream
  rw [← TokenWindow.checkVersion_fst] at hcases
  unfold TokenWindow.specification at h
  rcases hw : w.checkVersion with ⟨e | _, w'⟩
  · rw [hw] at h hcases
    cases h
    rcases hcases with h | ⟨e, h⟩ | ⟨v, known, p, h⟩ <;> cases h
  · rfl

/-- A source that passes the version gate and has no lexical error can be read at once. -/
theorem tokenize_of_gate {source : String} {result : Except Failure Specification}
    (gate : (TokenWindow.ofSource source).checkVersion.1 = .ok ()) (h : parse source = result)
    (hresult : ∀ e, result ≠ .error (.lexical e)) :
    ∃ ts, tokenize source = .ok ts ∧ parseTokens ts = result := by
  rcases ht : tokenize source with e | ts
  · have hpassed : ∀ v known p,
        (TokenWindow.ofSource source).checkVersion.1 ≠ .error (.unsupportedVersion v known p) := by
      rw [gate]
      exact nofun
    have he := (stream_of_tokenize source).2 e ht
    rw [parse, TokenWindow.specification_of_error he hpassed] at h
    exact absurd h.symm (hresult e)
  · exact ⟨ts, rfl, (parse_of_tokenize ht).symm.trans h⟩

/-- A source that is parsed can be read at once. -/
theorem tokenize_of_parse {source : String} {spec : Specification}
    (h : parse source = .ok spec) : ∃ ts, tokenize source = .ok ts ∧ parseTokens ts = .ok spec :=
  tokenize_of_gate (gate_of_specification h) h nofun

/-- So can one that does not follow the grammar, and its tokens are parsed to the same errors. -/
theorem tokenize_of_syntaxErrors {source : String} {errors : List SyntaxError}
    (h : parse source = .error (.grammar errors)) :
    ∃ ts, tokenize source = .ok ts
      ∧ (TokenWindow.ofTokens ts).parse.1 = .error (.grammar errors) := by
  have hgate := gate_of_syntaxErrors h
  obtain ⟨ts, ht, hparse⟩ := tokenize_of_gate hgate h nofun
  rw [TokenWindow.checkVersion_fst, (stream_of_tokenize source).1 ts ht] at hgate
  exact ⟨ts, ht, (parseTokens_of_gate hgate).symm.trans hparse⟩

/-- Lazy reading cannot be told from reading the whole source first: if the version gate lets a
source pass, parsing it gives what parsing its tokens gives, or else its first lexical error. -/
theorem parse_eq_tokenize (source : String)
    (gate : ∀ v known p,
      (TokenWindow.ofSource source).checkVersion.1 ≠ .error (.unsupportedVersion v known p)) :
    (∀ ts, tokenize source = .ok ts → parse source = parseTokens ts)
      ∧ ∀ e, tokenize source = .error e → parse source = .error (.lexical e) := by
  constructor
  · exact fun ts ht => parse_of_tokenize ht
  · intro e ht
    have he := (stream_of_tokenize source).2 e ht
    exact TokenWindow.specification_of_error he gate

/-- A lexical error is met behind two sections that do not follow the grammar. -/
theorem parse_meets_late_error :
    (TokenWindow.ofSource "title\nauthor \"A\"\n    x %\n").checkVersion.1 = .ok ()
      ∧ parse "title\nauthor \"A\"\n    x %\n"
        = .error (.lexical (.unexpectedCharacter '%' ⟨3, 7⟩)) := by
  have hgate : (TokenWindow.ofSource "title\nauthor \"A\"\n    x %\n").checkVersion.1 = .ok () := by
    decide +kernel
  have htokens : tokenize "title\nauthor \"A\"\n    x %\n"
      = .error (.unexpectedCharacter '%' ⟨3, 7⟩) := by decide +kernel
  exact ⟨hgate, (parse_eq_tokenize _ (by rw [hgate]; exact nofun)).2 _ htokens⟩

end Manuscript
