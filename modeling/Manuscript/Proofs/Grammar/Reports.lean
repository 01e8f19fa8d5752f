import Manuscript.Proofs.Grammar.Blame
import Manuscript.Proofs.Grammar.Recovery

/-!
# Reported errors

The errors that the parser reports come in the order of the source, and each of them stands at one
of its tokens. An error says which token it found, unless the source ended too early; the token may
have been taken before, so that an error can name one even where no token is left.

* `RaisedBefore`: where an error is raised, and what is left of the tokens then.
* `Attempts.errors_ascend`: the errors of attempts in a row are in order.
* `RaisedBefore.blames`: what an error blames, in terms of the tokens of the source.
* `parse_reports`: the errors of a source.
-/

namespace Manuscript.Grammar

open Production

/-- An error is raised in front of the tokens that are left: by the section that begins with some
token, behind the sections that were tried in front of it. -/
inductive RaisedBefore (ts : List Token) (e : SyntaxError) (left : List Token) : Prop where
  | failed {earlier : List Attempt} {progress : Progress} {opener : Token} {rest : List Token}
      {b : Bool} {q : Position} (hearlier : Attempts {} ts earlier progress (opener :: rest))
      (hrun : (sectionFrom progress.seen progress.declarations.isEmpty opener).run
        (.before rest opener.isLineEnd opener.position)
          = (.error (.byGrammar e), .before left b q))

variable {progress progress' : Progress} {a : Attempt} {attempts : List Attempt}
  {ts us left : List Token} {z q : Position} {e : SyntaxError}

/-! ## The order of errors -/

/-- What is wrong with a section stands no later than every token behind it. -/
theorem Attempted.error_before (h : Attempted progress a ts us)
    (hal : Aligned z a.opener.position ts) (he : a.outcome = .error e) :
    ∀ t ∈ us, e.position.AtOrBefore t.position := by
  cases h with
  | built hrun => cases he
  | broken hrun hskip =>
    cases he
    have hkept := kept_sectionFrom hal hrun
    obtain ⟨-, hnear⟩ := hkept.error e rfl
    exact fun t ht => hnear.atOrBefore hkept.aligned ((run_suffix hskip).subset ht)

theorem Attempt.mem_error? : e ∈ a.error? ↔ a.outcome = .error e := by
  unfold Attempt.error?
  cases a.outcome with
  | ok d => simp
  | error d => simp

/-- The errors of attempts in a row are in order, and none of them stands in front of all tokens. -/
theorem Attempts.errors_ascend (h : Attempts progress ts attempts progress' us)
    (hal : Aligned z q ts) :
    (attempts.filterMap Attempt.error?).Pairwise (fun d e => d.position.AtOrBefore e.position)
      ∧ ∀ e ∈ attempts.filterMap Attempt.error?, ∃ t ∈ ts, t.position.AtOrBefore e.position := by
  induction h generalizing q with
  | nil => exact ⟨.nil, nofun⟩
  | @cons progress _ a attempts ts us vs hfirst _ ih =>
    obtain ⟨q₁, hal₁, -⟩ := hfirst.passed hal.tail
    obtain ⟨hpairwise, hbehind⟩ := ih hal₁
    have hlater : ∀ e ∈ attempts.filterMap Attempt.error?,
        ∃ t ∈ a.opener :: ts, t.position.AtOrBefore e.position := by
      intro e he
      obtain ⟨t, ht, hle⟩ := hbehind e he
      exact ⟨t, List.mem_cons_of_mem _ (hfirst.suffix.subset ht), hle⟩
    cases herror : a.error? with
    | none =>
      rw [List.filterMap_cons_none herror]
      exact ⟨hpairwise, hlater⟩
    | some e =>
      have houtcome := Attempt.mem_error?.mp herror
      rw [List.filterMap_cons_some herror]
      constructor
      · refine List.pairwise_cons.mpr ⟨?_, hpairwise⟩
        intro d hd
        -- a token behind the section stands between the two errors
        obtain ⟨t, ht, hle⟩ := hbehind d hd
        exact (hfirst.error_before hal.tail houtcome t ht).trans hle
      · refine List.forall_mem_cons.mpr ⟨?_, hlater⟩
        obtain ⟨hlow, -⟩ := hfirst.error_between hal.tail houtcome
        exact ⟨a.opener, List.mem_cons_self, hlow⟩

/-! ## What errors blame -/

theorem Attempts.suffix (h : Attempts progress ts attempts progress' us) : us <:+ ts := by
  induction h with
  | nil => exact List.suffix_rfl
  | cons hfirst _ ih => exact (ih.trans hfirst.suffix).trans (List.suffix_cons _ _)

/-- Every error of some attempts is raised. -/
theorem raised_of_mem {final : Progress} (h : Attempts {} ts attempts final us)
    (he : e ∈ attempts.filterMap Attempt.error?) : ∃ left, RaisedBefore ts e left := by
  obtain ⟨a, ha, herror⟩ := List.mem_filterMap.mp he
  obtain ⟨before, after, rfl⟩ := List.append_of_mem ha
  obtain ⟨mid, vs, hbefore, hrest⟩ := h.of_append
  have houtcome := Attempt.mem_error?.mp herror
  -- a section that was built has no error, so this one was given up
  cases hrest with
  | cons hfirst _ =>
    cases hfirst with
    | built hrun => cases houtcome
    | broken hrun hskip =>
      cases houtcome
      exact ⟨_, .failed hbefore hrun⟩

/-- A run that takes all tokens behind one took the last of them last. -/
theorem last_of_run {α : Type} {p : Production α} {t : Token} {b b' : Bool} {q : Position}
    {r : Except Stop α} (h : p.run (.before ts b t.position) = (r, .before [] b' q)) :
    ∃ last ∈ (t :: ts).getLast?, q = last.position := by
  -- the token taken last stands in front of those that are left
  let inv (us : List Token) (q : Position) : Prop :=
    ∃ taken last, t :: ts = taken ++ last :: us ∧ q = last.position
  have hstart : inv ts t.position := ⟨[], t, rfl, rfl⟩
  have htake : ∀ u us q, inv (u :: us) q → inv us u.position := by
    rintro u us q ⟨taken, last, hsplit, -⟩
    exact ⟨taken ++ [last], u, by simpa using hsplit, rfl⟩
  obtain ⟨-, us, b₁, q₁, hc, taken, last, hsplit, hq⟩ := run_keeps htake p hstart b
  rw [h] at hc
  cases hc
  refine ⟨last, ?_, hq⟩
  rw [hsplit, List.getLast?_append]
  rfl

/-- An error that is raised blames a token of the source; or it blames none, no tokens are left, and
it stands at the last one. -/
theorem RaisedBefore.blames (h : RaisedBefore ts e left) :
    (∃ t ∈ ts, e.token? = some t)
      ∨ e.token? = none ∧ left = [] ∧ ∃ last ∈ ts.getLast?, e.position = last.position := by
  obtain @⟨earlier, progress, opener, rest, b, q, hearlier, hrun⟩ := h
  have hsuffix := hearlier.suffix
  have hgrounded : (sectionFrom progress.seen progress.declarations.isEmpty opener).Grounded
      { seen := [opener] } := grounded_sectionFrom _ _ List.mem_cons_self
  rcases hgrounded.blames nofun nofun hrun with ⟨t, ht, he⟩ | ⟨he, rfl, hposition⟩
  · exact .inl ⟨t, hsuffix.subset ht, he⟩
  · obtain ⟨last, hlast, hq⟩ := last_of_run hrun
    refine .inr ⟨he, rfl, last, ?_, hposition.trans hq⟩
    obtain ⟨taken, rfl⟩ := hsuffix
    rw [List.getLast?_append, hlast]
    rfl

/-! ## The errors of a source -/

/-- What a reported error says of the tokens of its source. -/
structure Reported (ts : List Token) (e : SyntaxError) : Prop where
  /-- It stands at one of them. -/
  position : ∃ t ∈ ts, e.position = t.position
  /-- It was raised while they were parsed. -/
  raised : ∃ left, RaisedBefore ts e left
  /-- It says which of them it found; or it says that none was found, and then no token was left
  when it was raised, and it stands at the last one. -/
  found : ∀ left, RaisedBefore ts e left →
    (∃ t ∈ ts, e.position = t.position
        ∧ (e.found? = some (SyntaxError.nameOf t) ∨ e.found? = some t.describe))
      ∨ e.found? = none ∧ left = [] ∧ ∃ last ∈ ts.getLast?, e.position = last.position

theorem RaisedBefore.reported (h : RaisedBefore ts e left) : Reported ts e := by
  constructor
  · rcases h.blames with ⟨t, ht, he⟩ | ⟨-, -, last, hlast, hposition⟩
    · exact ⟨t, ht, (SyntaxError.of_token? he).1⟩
    · exact ⟨last, List.mem_of_getLast? hlast, hposition⟩
  · exact ⟨left, h⟩
  · intro rest hrest
    rcases hrest.blames with ⟨t, ht, he⟩ | ⟨he, hleft, hlast⟩
    · exact .inl ⟨t, ht, SyntaxError.of_token? he⟩
    · exact .inr ⟨SyntaxError.found?_of_token?_eq_none he, hleft, hlast⟩

end Manuscript.Grammar

namespace Manuscript

open Grammar

/-- A source that does not follow the grammar is reported with at least one error. The errors are in
the order of the source, each stands at one of its tokens, and none says that it found no token
unless no token was left. -/
theorem parse_reports {source : String} {errors : List SyntaxError}
    (h : parse source = .error (.grammar errors)) :
    ∃ ts, tokenize source = .ok ts ∧ errors ≠ []
      ∧ errors.Pairwise (fun d e => d.position.AtOrBefore e.position)
      ∧ ∀ e ∈ errors, Reported ts e := by
  obtain ⟨ts, ht, hparse⟩ := tokenize_of_syntaxErrors h
  obtain ⟨z, hascending⟩ := ascending_tokenize ht
  -- in front of the first token there is a place, which no token was taken from
  have hal : Aligned z ⟨1, 0⟩ ts := ⟨(fits_tokenize ht).indented, hascending⟩
  obtain ⟨attempts, final, hattempts, hverdict⟩ := parse_eq_verdict ts
  rw [hverdict] at hparse
  unfold verdict at hparse
  split_ifs at hparse with hnone
  cases hparse
  refine ⟨ts, ht, mt List.isEmpty_iff.mpr hnone, (hattempts.errors_ascend hal).1, ?_⟩
  intro e he
  obtain ⟨left, hraised⟩ := raised_of_mem hattempts he
  exact hraised.reported

/-- A title without a text and a publication without a block: the second error is raised behind the
last token. -/
theorem parse_reports_openTitle : ∃ errors,
    parse "title\npublication\n" = .error (.grammar errors)
      ∧ errors.map SyntaxError.found? = [some "end of line", none]
      ∧ ∃ ts, tokenize "title\npublication\n" = .ok ts ∧ errors ≠ []
        ∧ errors.Pairwise (fun d e => d.position.AtOrBefore e.position)
        ∧ ∀ e ∈ errors, Reported ts e := by
  have h : parse "title\npublication\n" = .error (.grammar
      [.unexpected titleFragment ⟨.lineEnd, "", ⟨1, 6⟩, 0⟩,
        .endOfInput "an indented block after `publication`" ⟨2, 12⟩]) := by decide +kernel
  exact ⟨_, h, by decide +kernel, parse_reports h⟩

/-- An error can say what it found where no token is left: a paragraph without content is reported
at the end of its line, which was taken. -/
theorem exists_raisedBefore_nil : ∃ ts e,
    tokenize "paragraph\n" = .ok ts ∧ parse "paragraph\n" = .error (.grammar [e])
      ∧ RaisedBefore ts e [] ∧ e.found? = some "end of line" := by
  let opener : Token := ⟨.keyword, "paragraph", ⟨1, 1⟩, 0⟩
  let stop : Token := ⟨.lineEnd, "", ⟨1, 10⟩, 0⟩
  have hrun : (sectionFrom [] true opener).run (.before [stop] opener.isLineEnd opener.position)
      = (.error (.byGrammar (.unexpected sentenceContent stop)), .before [] true ⟨1, 10⟩) := rfl
  exact ⟨[opener, stop], .unexpected sentenceContent stop, by decide +kernel, by decide +kernel,
    .failed .nil hrun, by decide +kernel⟩

end Manuscript
