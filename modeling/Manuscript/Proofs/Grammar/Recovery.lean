import Manuscript.Proofs.Grammar.Conservation
import Manuscript.Proofs.Grammar.LazyReading
import Manuscript.Proofs.Grammar.SectionLines

/-!
# Recovery

A section that does not follow the grammar hides none of the sections behind it. The parser tries to
read exactly one section at each line that starts with a keyword at depth 0, and what is wrong with
it is reported no earlier than at that keyword and no later than at the next such line.

* `Attempts`: what the parser tried, section after section.
* `run_sections`: the loop over the sections makes a list of attempts.
* `Attempts.passed`: the lines that start with a keyword at depth 0 are those at which the attempts
  begin.
* `parse_recovers`: what comes of the line of each keyword at depth 0.
-/

namespace Manuscript.Grammar

open Production

/-! ## Attempts -/

/-- A section that was tried: the token that it began with, and what came of it. -/
structure Attempt where
  opener : Token
  outcome : Except SyntaxError Declaration

namespace Attempt

/-- What the section declares, if it follows the grammar. -/
def declaration? (a : Attempt) : Option Declaration := a.outcome.toOption

/-- What is wrong with the section, if it does not. -/
def error? (a : Attempt) : Option SyntaxError :=
  match a.outcome with
  | .ok _ => none
  | .error e => some e

end Attempt

/-- What was read so far, with one more section. -/
def Progress.after (progress : Progress) (a : Attempt) : Progress where
  declarations := progress.declarations ++ a.declaration?.toList
  errors := progress.errors ++ a.error?.toList
  seen := seenAfter progress.seen a.opener

/-- A section was tried behind its first token. Behind one that does not follow the grammar, tokens
were skipped. -/
inductive Attempted (progress : Progress) : Attempt → List Token → List Token → Prop where
  | built {t : Token} {ts us : List Token} {d : Declaration} {b : Bool} {q : Position}
      (hrun : (sectionFrom progress.seen progress.declarations.isEmpty t).run
        (.before ts t.isLineEnd t.position) = (.ok d, .before us b q)) :
      Attempted progress ⟨t, .ok d⟩ ts us
  | broken {t : Token} {ts us vs : List Token} {e : SyntaxError} {b b' : Bool} {q q' : Position}
      (hrun : (sectionFrom progress.seen progress.declarations.isEmpty t).run
        (.before ts t.isLineEnd t.position) = (.error (.byGrammar e), .before us b q))
      (hskip : (resynchronize t.position).run (.before us b q) = (.ok (), .before vs b' q')) :
      Attempted progress ⟨t, .error e⟩ ts vs

/-- Sections were tried one behind the other. -/
inductive Attempts :
    Progress → List Token → List Attempt → Progress → List Token → Prop where
  | nil {progress : Progress} {ts : List Token} : Attempts progress ts [] progress ts
  | cons {progress progress' : Progress} {a : Attempt} {attempts : List Attempt}
      {ts us vs : List Token} (first : Attempted progress a ts us)
      (rest : Attempts (progress.after a) us attempts progress' vs) :
      Attempts progress (a.opener :: ts) (a :: attempts) progress' vs

variable {progress progress' : Progress} {a : Attempt} {attempts : List Attempt}
  {ts us vs : List Token} {z q : Position}

theorem Attempted.suffix (h : Attempted progress a ts us) : us <:+ ts := by
  cases h with
  | built hrun => exact run_suffix hrun
  | broken hrun hskip => exact (run_suffix hskip).trans (run_suffix hrun)

/-- Attempts in a row are those up to some point and those from there on. -/
theorem Attempts.of_append {earlier later : List Attempt}
    (h : Attempts progress ts (earlier ++ later) progress' vs) :
    ∃ mid us, Attempts progress ts earlier mid us ∧ Attempts mid us later progress' vs := by
  induction earlier generalizing progress ts with
  | nil => exact ⟨progress, ts, .nil, h⟩
  | cons a earlier ih =>
    cases h with
    | cons first rest =>
      obtain ⟨mid, us, hearlier, hlater⟩ := ih rest
      exact ⟨mid, us, .cons first hearlier, hlater⟩

/-! ## The loop makes attempts -/

/-- Skipping tokens never fails. -/
theorem run_resynchronize (start : Position) (ts : List Token) (b : Bool) (q : Position) :
    ∃ us b' q', (resynchronize start).run (.before ts b q) = (.ok (), .before us b' q') := by
  obtain ⟨hl, us, b', q', hc⟩ := run_listed (resynchronize start) ts b q
  have hg := recovers_resynchronize start (.before ts b q)
  rcases hr : (resynchronize start).run (.before ts b q) with ⟨(e | e) | u, c⟩
  · exact (hg e (by rw [hr])).elim
  · exact (hl e (by rw [hr])).elim
  · rw [hr] at hc
    exact ⟨us, b', q', Prod.ext rfl hc⟩

/-- A step of the loop is an attempt at the token it took. -/
theorem run_step (progress : Progress) (t : Token) (ts : List Token) :
    ∃ a us b q, a.opener = t ∧ Attempted progress a ts us
      ∧ (step progress t).run (.before ts t.isLineEnd t.position) =
        (.ok (progress.after a), .before us b q) := by
  obtain ⟨hl, us, b, q, hc⟩ := run_listed
    (sectionFrom progress.seen progress.declarations.isEmpty t) ts t.isLineEnd t.position
  unfold step outcome
  rw [run_bind]
  unfold run
  rcases hs : (sectionFrom progress.seen progress.declarations.isEmpty t).run
    (.before ts t.isLineEnd t.position) with ⟨(e | e) | d, c⟩
  · rw [hs] at hc
    obtain rfl : c = Cursor.before us b q := hc
    obtain ⟨vs, b', q', hskip⟩ := run_resynchronize t.position us b q
    refine ⟨⟨t, .error e⟩, vs, b', q', rfl, .broken hs hskip, ?_⟩
    show ((resynchronize t.position) >>= _).run (.before us b q) = _
    rw [run_bind_of_ok hskip]
    simp [Progress.after, Attempt.declaration?, Attempt.error?, Except.toOption]
  · exact (hl e (by rw [hs])).elim
  · rw [hs] at hc
    obtain rfl : c = Cursor.before us b q := hc
    refine ⟨⟨t, .ok d⟩, us, b, q, rfl, .built hs, ?_⟩
    simp [Progress.after, Attempt.declaration?, Attempt.error?, Except.toOption, andThen]

/-- The loop over the sections makes attempts up to the end of the tokens. -/
theorem run_sections (progress : Progress) (ts : List Token) (b : Bool) (q : Position) :
    ∃ attempts progress' b' q', Attempts progress ts attempts progress' []
      ∧ (repeatWhile progress (fun _ _ => true) step).run (.before ts b q) =
        (.ok progress', .before [] b' q') := by
  -- an attempt may take any number of tokens, so the induction is on how many are left
  induction hn : ts.length using Nat.strongRecOn generalizing progress ts b q with
  | _ n ih =>
    cases ts with
    | nil => exact ⟨[], progress, b, q, .nil, rfl⟩
    | cons t ts =>
      obtain ⟨a, us, b₁, q₁, rfl, hfirst, hstep⟩ := run_step progress t ts
      have hlength : us.length < n := by
        have hsuffix := hfirst.suffix.length_le
        rw [List.length_cons] at hn
        omega
      obtain ⟨attempts, progress', b', q', hrest, hrun⟩ :=
        ih us.length hlength (progress.after a) us b₁ q₁ rfl
      refine ⟨a :: attempts, progress', b', q', .cons hfirst hrest, ?_⟩
      rw [run_repeatWhile_cons, if_pos rfl, hstep, andThen_ok, hrun]

/-! ## What was read -/

/-- The declarations and the errors are those of the attempts. -/
theorem Attempts.read (h : Attempts progress ts attempts progress' us) :
    progress'.declarations = progress.declarations ++ attempts.filterMap Attempt.declaration?
      ∧ progress'.errors = progress.errors ++ attempts.filterMap Attempt.error? := by
  induction h with
  | nil => simp
  | @cons progress _ a _ _ _ _ _ _ ih =>
    obtain ⟨hdeclarations, herrors⟩ := ih
    constructor
    · rw [hdeclarations]
      cases hd : a.declaration? <;> simp [Progress.after, hd]
    · rw [herrors]
      cases he : a.error? <;> simp [Progress.after, he]

/-- A section that may stand once is remembered, whatever came of it. -/
theorem Attempts.seen (h : Attempts progress ts attempts progress' us) :
    progress.seen ⊆ progress'.seen ∧ ∀ a ∈ attempts, ∀ k, sectionKeyword? a.opener = some k →
      k.isRepeatable = false → k ∈ progress'.seen := by
  induction h with
  | nil => exact ⟨List.Subset.refl _, by simp⟩
  | @cons progress progress' a attempts _ _ _ _ _ ih =>
    obtain ⟨hsubset, hseen⟩ := ih
    have hfirst : seenAfter progress.seen a.opener ⊆ progress'.seen := hsubset
    refine ⟨List.Subset.trans (subset_seenAfter progress.seen a.opener) hfirst, ?_⟩
    intro a' ha' k hk hr
    rcases List.mem_cons.mp ha' with rfl | ha'
    · exact hfirst (mem_seenAfter hk hr)
    · exact hseen a' ha' k hk hr

/-- What the parser gives after some attempts: every error if there is one, and otherwise what the
sections declare. -/
def verdict (attempts : List Attempt) : Except Failure Specification :=
  if (attempts.filterMap Attempt.error?).isEmpty then
    .ok (.ofDeclarations (attempts.filterMap Attempt.declaration?))
  else .error (.grammar (attempts.filterMap Attempt.error?))

/-- What is wrong with a section that was tried is reported. -/
theorem reported_of_mem {e : SyntaxError} (ha : a ∈ attempts) (he : a.outcome = .error e) :
    ∃ es, verdict attempts = .error (.grammar es) ∧ e ∈ es := by
  have hmem : e ∈ attempts.filterMap Attempt.error? := by
    refine List.mem_filterMap.mpr ⟨a, ha, ?_⟩
    unfold Attempt.error?
    rw [he]
  refine ⟨attempts.filterMap Attempt.error?, ?_, hmem⟩
  unfold verdict
  rw [if_neg]
  rw [List.isEmpty_iff]
  exact List.ne_nil_of_mem hmem

/-- Parsing tokens gives the verdict on the attempts of the loop. -/
theorem parse_eq_verdict (ts : List Token) : ∃ attempts final,
    Attempts {} ts attempts final [] ∧ (TokenWindow.ofTokens ts).parse.1 = verdict attempts := by
  obtain ⟨attempts, final, b, q, hattempts, hrun⟩ := run_sections {} ts true ⟨1, 1⟩
  refine ⟨attempts, final, hattempts, ?_⟩
  obtain ⟨hdeclarations, herrors⟩ := hattempts.read
  rw [List.nil_append] at hdeclarations herrors
  have hsections : sections.run { window := .ofTokens ts } = (.ok final, .before [] b q) := hrun
  unfold TokenWindow.parse verdict
  rw [hsections, ← hdeclarations, ← herrors]
  dsimp only
  split_ifs <;> rfl

/-! ## Lines -/

/-- A line starts here with a keyword at depth 0, or there are no more tokens. -/
def atKeywordLine : Place := fun b ts => ∀ t ∈ ts.head?, b = true ∧ t.isTopLevel = true

/-- Skipping tokens keeps to the lines, and ends in front of a keyword at depth 0. -/
theorem confined_resynchronize {start hi : Position} :
    Confined start hi anywhere (resynchronize start) fun _ => atKeywordLine := by
  unfold resynchronize
  -- behind the start of the section, no token is the one that it started with
  let inv : Bool → Place := fun s b ts => s = b ∧ ∀ t ∈ ts, start.Before t.position
  refine .lineStart fun atStart => .behind ?_
  dsimp only
  refine Confined.map ?_ _
  refine Confined.mono (.repeatWhile inv ?_ ?_) ?_ ?_
  · rintro _ b t ts ⟨rfl, hbehind⟩ hskip
    have hother : (t.position != start) = true :=
      bne_iff_ne.mpr (hbehind t List.mem_cons_self).ne.symm
    rw [hother, Bool.and_true, Bool.not_eq_true'] at hskip
    unfold Token.isTopLevel
    rw [← Bool.and_assoc]
    exact hskip
  · rintro _ b t ts - -
    exact .behind (.done fun b ts h => ⟨h.1.symm, h.2⟩)
  · rintro b ts ⟨⟨-, hs⟩, hbehind⟩
    exact ⟨hs, hbehind⟩
  · rintro _ b ts ⟨⟨rfl, -⟩, hend⟩ t ht
    have hstop := hend t ht
    simp only [Bool.not_eq_false', Bool.and_eq_true] at hstop
    obtain ⟨⟨⟨hs, hkeyword⟩, hdepth⟩, -⟩ := hstop
    exact ⟨hs, Bool.and_eq_true_iff.mpr ⟨hkeyword, hdepth⟩⟩

/-! ## One attempt -/

/-- What the run of a section leaves behind. -/
theorem kept_sectionFrom {seen : List Keyword} {first : Bool} {t : Token}
    {r : Except Stop Declaration} {b : Bool} {q : Position} (hal : Aligned z t.position ts)
    (hrun : (sectionFrom seen first t).run (.before ts t.isLineEnd t.position) =
      (r, .before us b q)) :
    Kept z t.position (fun _ => lineOver) t.isLineEnd ts t.position r b us q :=
  confined_sectionFrom seen first rfl z ts t.isLineEnd t.position r us b q (.refl _) (.refl _) hal
    rfl hrun

/-- Behind an attempt another line starts. No keyword at depth 0 that starts a line was taken. -/
theorem Attempted.passed (h : Attempted progress a ts us)
    (hal : Aligned z a.opener.position ts) :
    ∃ q, Aligned z q us ∧ Passed a.opener.isLineEnd ts true us := by
  cases h with
  | built hrun =>
    have hkept := kept_sectionFrom hal hrun
    exact ⟨_, hkept.aligned, hkept.passed.of_over (hkept.value _ rfl)⟩
  | @broken _ _ _ _ _ _ b' _ _ hrun hskip =>
    have hkept := kept_sectionFrom hal hrun
    have hskipped := confined_resynchronize z _ _ _ _ _ _ _ (.refl _) hkept.last hkept.aligned
      trivial hskip
    have hover : lineOver b' us := by
      have hline := hskipped.value () rfl
      cases us with
      | nil => exact .inr rfl
      | cons u us => exact .inl (hline u rfl).1
    exact ⟨_, hskipped.aligned, (hkept.passed.trans hskipped.passed).of_over hover⟩

/-- What is wrong with a section stands no earlier than its first token, no later than the next
keyword at depth 0 that starts a line, and in front of the end. -/
theorem Attempted.error_between (h : Attempted progress a ts us)
    (hal : Aligned z a.opener.position ts) {e : SyntaxError} (he : a.outcome = .error e) :
    a.opener.position.AtOrBefore e.position ∧ e.position.Before z
      ∧ ∀ t ∈ keywordLines a.opener.isLineEnd ts, e.position.AtOrBefore t.position := by
  cases h with
  | built hrun => cases he
  | broken hrun hskip =>
    cases he
    have hkept := kept_sectionFrom hal hrun
    obtain ⟨hlow, hnear⟩ := hkept.error e rfl
    refine ⟨hlow, hnear.before_end hkept.aligned, ?_⟩
    intro t ht
    rw [← hkept.passed.lines] at ht
    exact hnear.atOrBefore hkept.aligned (mem_of_mem_keywordLines ht)

/-- A section that was built is the one that its keyword opens. -/
theorem Attempted.keyword_of_built (h : Attempted progress a ts us) {d : Declaration}
    (hd : a.outcome = .ok d) : sectionKeyword? a.opener = some d.keyword := by
  cases h with
  | broken hrun hskip => cases hd
  | @built t _ _ _ b q hrun =>
    cases hd
    have hbooks : Books False (0 + texts [t]) _ (fun d : Declaration => 0 + ↑d.literals) _ :=
      books_sectionFrom progress.seen progress.declarations.isEmpty t
    obtain ⟨-, hkey, -⟩ := hbooks ts t.isLineEnd t.position d us b q False.elim hrun
    exact hkey

/-- A token that opens no section, or one that may stand once and was met. -/
def Refused (met : List Keyword) (t : Token) : Prop :=
  sectionKeyword? t = none ∨ ∃ k ∈ met, sectionKeyword? t = some k ∧ k.isRepeatable = false

/-- A section that is refused fails at its first token. -/
theorem sectionFrom_of_refused {seen : List Keyword} {t : Token} (h : Refused seen t)
    (first : Bool) : ∃ e, e.position = t.position ∧ sectionFrom seen first t = fail e := by
  unfold sectionFrom
  rcases h with hk | ⟨k, hs, hk, hr⟩
  · rw [hk]
    exact ⟨_, rfl, rfl⟩
  · rw [hk]
    dsimp only
    rw [if_pos (by simp [hr, hs])]
    exact ⟨_, rfl, rfl⟩

/-- An attempt whose section fails at once is its error. -/
theorem Attempted.outcome_of_fail (h : Attempted progress a ts us) {e : SyntaxError}
    (hfail : sectionFrom progress.seen progress.declarations.isEmpty a.opener = fail e) :
    a.outcome = .error e := by
  cases h with
  | built hrun =>
    rw [hfail] at hrun
    cases hrun
  | broken hrun hskip =>
    rw [hfail] at hrun
    cases hrun
    rfl

/-- An attempt that is refused is an error exactly at its first token. -/
theorem Attempted.error_of_refused (h : Attempted progress a ts us)
    (hr : Refused progress.seen a.opener) :
    ∃ e, a.outcome = .error e ∧ e.position = a.opener.position := by
  obtain ⟨e, he, hfail⟩ := sectionFrom_of_refused hr progress.declarations.isEmpty
  exact ⟨e, h.outcome_of_fail hfail, he⟩

/-! ## Every line -/

/-- The lines that start with a keyword at depth 0 are those at which the attempts begin, and every
attempt begins at the start of a line. -/
theorem Attempts.passed (h : Attempts progress ts attempts progress' us) (hal : Aligned z q ts) :
    (∃ q', Aligned z q' us)
      ∧ keywordLines true ts =
        (attempts.map Attempt.opener).filter Token.isTopLevel ++ keywordLines true us
      ∧ (attempts.map Attempt.opener ++ lineStarts true us).Sublist (lineStarts true ts) := by
  induction h generalizing q with
  | nil => exact ⟨⟨q, hal⟩, rfl, List.Sublist.refl _⟩
  | @cons progress _ a attempts ts us vs hfirst _ ih =>
    obtain ⟨q₁, hal₁, hpassed⟩ := hfirst.passed hal.tail
    obtain ⟨haligned, hlines, hstarts⟩ := ih hal₁
    refine ⟨haligned, ?_, ?_⟩
    · have hcons : keywordLines true (a.opener :: ts) =
          [a.opener].filter Token.isTopLevel ++ keywordLines a.opener.isLineEnd ts :=
        List.filter_append [a.opener] _
      rw [hcons, ← hpassed.lines, hlines, ← List.append_assoc, ← List.filter_append]
      rfl
    · exact (hstarts.trans hpassed.starts.sublist).cons_cons a.opener

/-- An attempt begins at each line that starts with a keyword at depth 0, behind those that begin at
earlier lines and in front of those that begin at later ones. -/
theorem exists_attempt {earlier later : List Token} {line : Token}
    (h : (attempts.map Attempt.opener).filter Token.isTopLevel = earlier ++ line :: later) :
    ∃ before a after, attempts = before ++ a :: after ∧ a.opener = line
      ∧ (before.map Attempt.opener).filter Token.isTopLevel = earlier
      ∧ (after.map Attempt.opener).filter Token.isTopLevel = later := by
  obtain ⟨starts, rest, hmap, rfl, hrest⟩ := List.filter_eq_append_iff.mp h
  obtain ⟨others, last, rfl, hothers, -, rfl⟩ := List.filter_eq_cons_iff.mp hrest
  rw [← List.append_assoc] at hmap
  obtain ⟨before, behind, rfl, hbefore, hbehind⟩ := List.map_eq_append_iff.mp hmap
  obtain ⟨a, after, rfl, ha, hafter⟩ := List.map_eq_cons_iff.mp hbehind
  refine ⟨before, a, after, rfl, ha, ?_, ?_⟩
  · have hnone : others.filter Token.isTopLevel = [] := List.filter_eq_nil_iff.mpr hothers
    rw [hbefore, List.filter_append, hnone, List.append_nil]
  · rw [hafter]

/-- If no two attempts begin at one token, the attempt at a token is the only one there. -/
theorem filter_opener_eq {before after : List Attempt}
    (h : ((before ++ a :: after).map Attempt.opener).Nodup) :
    (before ++ a :: after).filter (fun x => x.opener == a.opener) = [a] := by
  rw [List.map_append, List.map_cons, List.nodup_middle, List.nodup_cons, List.mem_append] at h
  have hother : ∀ others : List Attempt, a.opener ∉ others.map Attempt.opener →
      others.filter (fun x => x.opener == a.opener) = [] := by
    intro others ho
    refine List.filter_eq_nil_iff.mpr fun x hx heq => ho ?_
    exact List.mem_map.mpr ⟨x, hx, eq_of_beq heq⟩
  have hself : (a :: after).filter (fun x => x.opener == a.opener) =
      a :: after.filter (fun x => x.opener == a.opener) :=
    List.filter_cons_of_pos (beq_self_eq_true a.opener)
  rw [List.filter_append, hself, hother before (fun hm => h.1 (.inl hm)),
    hother after (fun hm => h.1 (.inr hm)), List.nil_append]

/-- The attempt at a line that starts with a keyword at depth 0, with what was tried before it and
the lines that come behind it. -/
theorem Attempts.exists_at (h : Attempts progress ts attempts progress' []) (hal : Aligned z q ts)
    {earlier later : List Token} {line : Token}
    (hlines : keywordLines true ts = earlier ++ line :: later) :
    ∃ before a after mid us vs, attempts = before ++ a :: after ∧ a.opener = line
      ∧ (before.map Attempt.opener).filter Token.isTopLevel = earlier
      ∧ Attempts progress ts before mid (line :: us) ∧ Attempted mid a us vs
      ∧ Aligned z line.position us ∧ keywordLines line.isLineEnd us = later := by
  obtain ⟨-, hall, -⟩ := h.passed hal
  rw [keywordLines_nil, List.append_nil, hlines] at hall
  obtain ⟨before, a, after, rfl, rfl, hbefore, hafter⟩ := exists_attempt hall.symm
  obtain ⟨mid, ws, hearlier, hrest⟩ := h.of_append
  obtain ⟨⟨q', hal'⟩, -, -⟩ := hearlier.passed hal
  cases hrest with
  | @cons _ _ _ _ us vs _ hfirst hlast =>
    obtain ⟨q₁, hal₁, hpassed⟩ := hfirst.passed hal'.tail
    obtain ⟨-, hlater, -⟩ := hlast.passed hal₁
    rw [keywordLines_nil, List.append_nil, hafter] at hlater
    exact ⟨before, a, after, mid, us, vs, rfl, rfl, hbefore, hearlier, hfirst, hal'.tail,
      hpassed.lines.symm.trans hlater⟩

/-- What comes of the attempt at a line: the section of its keyword, or an error between the keyword
and the next line of the kind, or the last token if there is none. -/
theorem Attempts.outcome_at (h : Attempts progress ts attempts progress' [])
    (hal : Aligned z q ts) {earlier later : List Token} {line : Token}
    (hlines : keywordLines true ts = earlier ++ line :: later) :
    ∃ before a after, attempts = before ++ a :: after ∧ a.opener = line
      ∧ ((∃ d, a.outcome = .ok d ∧ sectionKeyword? line = some d.keyword)
        ∨ ∃ e, a.outcome = .error e ∧ line.position.AtOrBefore e.position
          ∧ ∀ stop ∈ later.head?.or ts.getLast?, e.position.AtOrBefore stop.position) := by
  have hline : line ∈ ts := by
    apply mem_of_mem_keywordLines (b := true)
    rw [hlines]
    exact List.mem_append_right _ List.mem_cons_self
  obtain ⟨last, hlast⟩ := Option.ne_none_iff_exists'.mp
    (mt List.getLast?_eq_none_iff.mp (List.ne_nil_of_mem hline))
  obtain ⟨before, a, after, mid, us, vs, rfl, rfl, -, -, hfirst, hal', rfl⟩ :=
    h.exists_at (hal.to_last hlast) hlines
  refine ⟨before, a, after, rfl, rfl, ?_⟩
  cases ha : a.outcome with
  | ok d => exact .inl ⟨d, rfl, hfirst.keyword_of_built ha⟩
  | error e =>
    obtain ⟨hlow, hhigh, hnext⟩ := hfirst.error_between hal' ha
    refine .inr ⟨e, rfl, hlow, ?_⟩
    intro stop hstop
    cases hl : keywordLines a.opener.isLineEnd us with
    | nil =>
      rw [hl, hlast] at hstop
      cases hstop
      exact Position.before_next_iff.mp hhigh
    | cons next _ =>
      rw [hl] at hstop hnext
      cases hstop
      exact hnext stop List.mem_cons_self

/-- An attempt is refused if its keyword may stand once and stood on an earlier line, whatever came
of the attempt there. -/
theorem Attempts.refused_at (h : Attempts progress ts attempts progress' [])
    (hal : Aligned z q ts) {earlier later : List Token} {line : Token}
    (hlines : keywordLines true ts = earlier ++ line :: later)
    (hrefused : Refused (earlier.filterMap sectionKeyword?) line) :
    ∃ a ∈ attempts, ∃ e, a.outcome = .error e ∧ e.position = line.position := by
  obtain ⟨before, a, after, mid, us, vs, rfl, rfl, rfl, hbefore, hfirst, -, -⟩ :=
    h.exists_at hal hlines
  have hmid : Refused mid.seen a.opener := by
    refine hrefused.imp id ?_
    rintro ⟨k, hk, hline, hr⟩
    obtain ⟨opener, hopener, hkeyword⟩ := List.mem_filterMap.mp hk
    obtain ⟨a', ha', rfl⟩ := List.mem_map.mp (List.mem_of_mem_filter hopener)
    exact ⟨k, hbefore.seen.2 a' ha' k hkeyword hr, hline, hr⟩
  exact ⟨a, List.mem_append_right _ List.mem_cons_self, hfirst.error_of_refused hmid⟩

/-! ## Recovery -/

/-- The error is one of those that are reported. -/
def Reports (result : Except Failure Specification) (e : SyntaxError) : Prop :=
  ∃ es, result = .error (.grammar es) ∧ e ∈ es

/-- No line of a keyword at depth 0 was missed by the attempts that led to a result. -/
structure Recovery (ts : List Token) (result : Except Failure Specification)
    (attempts : List Attempt) : Prop where
  /-- The attempts are those that the parser makes, from the first token to the end. -/
  tried : ∃ final, Attempts {} ts attempts final []
  /-- Every attempt begins at the start of a line. -/
  starts : (attempts.map Attempt.opener).Sublist (lineStarts true ts)
  /-- The result is what came of them. -/
  verdict : result = verdict attempts
  /-- Exactly one of them begins at each line that starts with a keyword at depth 0. Its section is
  built, or what is wrong with it is reported: not in front of the keyword, and not behind the next
  such keyword or the end of the source. -/
  met : ∀ earlier line later, keywordLines true ts = earlier ++ line :: later →
    ∃ a, attempts.filter (fun x => x.opener == line) = [a]
      ∧ ((∃ d, a.outcome = .ok d ∧ sectionKeyword? line = some d.keyword)
        ∨ ∃ e, a.outcome = .error e ∧ Reports result e ∧ line.position.AtOrBefore e.position
          ∧ ∀ stop ∈ later.head?.or ts.getLast?, e.position.AtOrBefore stop.position)
  /-- A keyword that opens no section, or one that may stand once and stood on an earlier line, is
  reported exactly where it stands. -/
  refused : ∀ earlier line later, keywordLines true ts = earlier ++ line :: later →
    Refused (earlier.filterMap sectionKeyword?) line →
      ∃ e, Reports result e ∧ e.position = line.position

/-- Attempts up to the end of tokens that are those of a source miss no line. -/
theorem recovery_of_attempts {final : Progress} (h : Attempts {} ts attempts final [])
    (hindented : Indented ts) (hascending : Ascending ⟨1, 1⟩ ts z) :
    Recovery ts (verdict attempts) attempts := by
  -- in front of the first token there is a place, which no token was taken from
  have hal : Aligned z ⟨1, 0⟩ ts := ⟨hindented, hascending⟩
  obtain ⟨-, -, hstarts⟩ := h.passed hal
  rw [show lineStarts true [] = [] from rfl, List.append_nil] at hstarts
  have hdistinct : ts.Nodup := hascending.pairwise.imp fun hb heq => hb.ne (congrArg _ heq)
  have hnodup := (hstarts.trans (lineStarts_sublist true ts)).nodup hdistinct
  refine ⟨⟨final, h⟩, hstarts, rfl, ?_, ?_⟩
  · intro earlier line later hlines
    obtain ⟨before, a, after, rfl, rfl, houtcome⟩ := h.outcome_at hal hlines
    refine ⟨a, filter_opener_eq hnodup, houtcome.imp id ?_⟩
    rintro ⟨e, ha, hlow, hhigh⟩
    have hmem : a ∈ before ++ a :: after := List.mem_append_right _ List.mem_cons_self
    exact ⟨e, ha, reported_of_mem hmem ha, hlow, hhigh⟩
  · intro earlier line later hlines hrefused
    obtain ⟨a, hmem, e, ha, he⟩ := h.refused_at hal hlines hrefused
    exact ⟨e, reported_of_mem hmem ha, he⟩

end Manuscript.Grammar

namespace Manuscript

open Grammar

/-- Recovery misses no section: if a source can be read and the version gate lets it pass, the
parser tries exactly one section at each of its lines that start with a keyword at depth 0, and
reports what is wrong with it there. -/
theorem parse_recovers {source : String} {ts : List Token} (h : tokenize source = .ok ts)
    (gate : (TokenWindow.ofSource source).checkVersion.1 = .ok ()) :
    ∃ attempts, Recovery ts (parse source) attempts := by
  obtain ⟨z, hascending⟩ := ascending_tokenize h
  rw [TokenWindow.checkVersion_fst, (stream_of_tokenize source).1 ts h] at gate
  obtain ⟨attempts, final, hattempts, hverdict⟩ := parse_eq_verdict ts
  rw [parse_of_tokenize h, parseTokens_of_gate gate, hverdict]
  exact ⟨attempts, recovery_of_attempts hattempts (fits_tokenize h).indented hascending⟩

/-- The tokens of a title without a text and of another title. -/
def twoTitles : List Token :=
  [⟨.keyword, "title", ⟨1, 1⟩, 0⟩, ⟨.lineEnd, "", ⟨1, 6⟩, 0⟩, ⟨.keyword, "title", ⟨2, 1⟩, 0⟩,
    ⟨.text, "On", ⟨2, 7⟩, 0⟩, ⟨.lineEnd, "", ⟨2, 11⟩, 0⟩]

/-- A title is refused behind one that is broken. -/
theorem parse_recovers_twoTitles :
    tokenize "title\ntitle \"On\"\n" = .ok twoTitles
      ∧ (TokenWindow.ofSource "title\ntitle \"On\"\n").checkVersion.1 = .ok ()
      ∧ (∃ attempts, Recovery twoTitles (parse "title\ntitle \"On\"\n") attempts)
      ∧ ∃ e, Reports (parse "title\ntitle \"On\"\n") e ∧ e.position = ⟨2, 1⟩ := by
  have htokens : tokenize "title\ntitle \"On\"\n" = .ok twoTitles := by decide +kernel
  have hgate : (TokenWindow.ofSource "title\ntitle \"On\"\n").checkVersion.1 = .ok () := by
    decide +kernel
  obtain ⟨attempts, hrecovery⟩ := parse_recovers htokens hgate
  refine ⟨htokens, hgate, ⟨attempts, hrecovery⟩, ?_⟩
  have hrefused : Refused ([twoTitles[0]].filterMap sectionKeyword?) twoTitles[2] :=
    .inr ⟨.title, by decide, by decide, rfl⟩
  exact hrecovery.refused [twoTitles[0]] twoTitles[2] [] (by decide) hrefused

end Manuscript
