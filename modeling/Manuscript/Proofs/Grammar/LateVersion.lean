import Manuscript.Proofs.Grammar.Blame
import Manuscript.Proofs.Grammar.Recovery

/-!
# The place of the version

The version has to be declared before every other section. Behind a section that it has read, the
parser refuses a version, as it refuses a second one. Sections that do not follow the grammar are
not counted: behind such sections alone, a version is read as if it stood first, and only the broken
sections are reported.

* `RefusesVersion`: an error that refuses a version for the place where it stands.
* `Attempted.refusesVersion_iff`: the version is refused behind what was read or met so far.
* `parse_lateVersion`: which versions behind other sections are refused.
* `lateVersion_unreported`: a version behind a broken title is not.
-/

namespace Manuscript.Grammar

open Production

variable {progress progress' : Progress} {a : Attempt} {attempts : List Attempt}
  {ts us : List Token} {z q : Position} {t : Token}

/-! ## What was met -/

theorem mem_of_mem_seenAfter {seen : List Keyword} {k : Keyword} (h : k ∈ seenAfter seen t) :
    k ∈ seen ∨ sectionKeyword? t = some k := by
  unfold seenAfter at h
  split at h
  next word hword =>
    split_ifs at h
    · exact .inl h
    · rcases List.mem_cons.mp h with rfl | h
      · exact .inr hword
      · exact .inl h
  next => exact .inl h

/-- Only the keywords of sections that were tried are remembered. -/
theorem Attempts.of_mem_seen (h : Attempts progress ts attempts progress' us) {k : Keyword}
    (hk : k ∈ progress'.seen) :
    k ∈ progress.seen ∨ ∃ a ∈ attempts, sectionKeyword? a.opener = some k := by
  induction h with
  | nil => exact .inl hk
  | cons _ _ ih =>
    rcases ih hk with hseen | ⟨a', ha', hword⟩
    · exact (mem_of_mem_seenAfter hseen).imp id fun hword => ⟨_, List.mem_cons_self, hword⟩
    · exact .inr ⟨a', List.mem_cons_of_mem _ ha', hword⟩

/-- The section that begins with the token was read. -/
def Built (attempts : List Attempt) (t : Token) : Prop := ∃ d, ⟨t, .ok d⟩ ∈ attempts

/-- Declarations are what sections that were read declare. -/
theorem Attempts.declarations_ne_nil_iff (h : Attempts {} ts attempts progress us) :
    progress.declarations ≠ [] ↔ ∃ t, Built attempts t := by
  rw [h.read.1, List.nil_append, ne_eq, List.filterMap_eq_nil_iff]
  push Not
  constructor
  · rintro ⟨⟨t, outcome⟩, ha, hd⟩
    cases outcome with
    | ok d => exact ⟨t, d, ha⟩
    | error e => exact absurd rfl hd
  · rintro ⟨t, d, ha⟩
    exact ⟨⟨t, .ok d⟩, ha, nofun⟩

/-! ## Refused versions -/

/-- The error refuses the version at a token for the place where it stands: behind another section,
or behind another version. -/
def RefusesVersion (e : SyntaxError) (t : Token) : Prop :=
  e = .lateVersion t ∨ e = .repeatedSection .version t

theorem RefusesVersion.token?_eq {e : SyntaxError} (h : RefusesVersion e t) :
    e.token? = some t := by
  rcases h with rfl | rfl <;> rfl

/-- A version is refused behind another version or another section, and read otherwise. -/
theorem sectionFrom_version (seen : List Keyword) (first : Bool)
    (hk : sectionKeyword? t = some .version) :
    sectionFrom seen first t =
      if .version ∈ seen then fail (.repeatedSection .version t)
      else if first = true then (do return .version (← literalLine "a version text"))
      else fail (.lateVersion t) := by
  unfold sectionFrom
  rw [hk]
  simp only [Keyword.isRepeatable, Bool.not_false, Bool.true_and, List.contains_iff_mem]
  rfl

/-- An attempt at a version is refused for its place exactly if there was a version before, or a
section that was read. -/
theorem Attempted.refusesVersion_iff (h : Attempted progress a ts us)
    (hal : Aligned z a.opener.position ts) (hk : sectionKeyword? a.opener = some .version) :
    (∃ e, a.outcome = .error e ∧ RefusesVersion e a.opener)
      ↔ .version ∈ progress.seen ∨ progress.declarations ≠ [] := by
  have hsection := sectionFrom_version progress.seen progress.declarations.isEmpty hk
  by_cases hseen : .version ∈ progress.seen
  · rw [if_pos hseen] at hsection
    exact iff_of_true ⟨_, h.outcome_of_fail hsection, .inr rfl⟩ (.inl hseen)
  rw [if_neg hseen] at hsection
  by_cases hfirst : progress.declarations = []
  · refine iff_of_false ?_ (not_or_intro hseen (not_not_intro hfirst))
    rw [hfirst, List.isEmpty_nil, if_pos rfl] at hsection
    rintro ⟨e, he, hrefuses⟩
    cases h with
    | built hrun => cases he
    | @broken t _ _ _ _ _ _ _ _ hrun hskip =>
      cases he
      -- the section of a version blames the tokens behind its keyword, and not the keyword
      rw [hfirst, List.isEmpty_nil, hsection] at hrun
      have hgrounded : (do return Declaration.version (← literalLine "a version text")).Grounded
          { seen := [] } := (grounded_literalLine _).map _
      rcases hgrounded.blames nofun nofun hrun with ⟨u, hu, hblamed⟩ | ⟨hnone, -, -⟩
      · cases hblamed.symm.trans hrefuses.token?_eq
        exact (hal.before hu).ne rfl
      · cases hnone.symm.trans hrefuses.token?_eq
  · rw [if_neg (by simpa using hfirst)] at hsection
    exact iff_of_true ⟨_, h.outcome_of_fail hsection, .inl rfl⟩ (.inr hfirst)

/-! ## Versions behind other sections -/

/-- A token that opens a section is a keyword at depth 0. -/
theorem isTopLevel_of_sectionKeyword? {k : Keyword} (h : sectionKeyword? t = some k) :
    t.isTopLevel = true := by
  obtain ⟨hword, hopens⟩ := Option.filter_eq_some_iff.mp h
  have hkeyword : t.isKeyword = true := by
    unfold Token.keyword? at hword
    split_ifs at hword with hkeyword
    exact hkeyword
  exact Bool.and_eq_true_iff.mpr ⟨hkeyword, (Bool.and_eq_true_iff.mp hopens).2⟩

/-- The first attempt begins at the first token. -/
theorem Attempts.exists_first (h : Attempts progress (t :: ts) attempts progress' []) :
    ∃ a us rest, attempts = a :: rest ∧ a.opener = t ∧ Attempted progress a ts us := by
  generalize hts : t :: ts = source at h
  cases h with
  | nil => cases hts
  | cons first _ =>
    obtain ⟨rfl, rfl⟩ := List.cons.inj hts
    exact ⟨_, _, _, rfl, rfl, first⟩

/-- A section that was read begins with its keyword. -/
theorem Attempts.keyword_of_built (h : Attempts progress ts attempts progress' us)
    {d : Declaration} (hd : ⟨t, .ok d⟩ ∈ attempts) : sectionKeyword? t = some d.keyword := by
  obtain ⟨earlier, later, rfl⟩ := List.append_of_mem hd
  obtain ⟨mid, _, -, hlater⟩ := h.of_append
  cases hlater with
  | cons first _ => exact first.keyword_of_built rfl

/-- The first token of a section that was tried stands on a line of a keyword at depth 0. -/
theorem opener_mem_lines {x : Attempt} {k : Keyword} (hx : x ∈ attempts)
    (hword : sectionKeyword? x.opener = some k) :
    x.opener ∈ (attempts.map Attempt.opener).filter Token.isTopLevel :=
  List.mem_filter.mpr ⟨List.mem_map_of_mem hx, isTopLevel_of_sectionKeyword? hword⟩

/-- The attempt at a version is refused for its place exactly if a section at an earlier line was
read, or is a version too. -/
theorem Attempts.refusesVersion_at (h : Attempts {} ts attempts progress' [])
    (hal : Aligned z q ts) (hnodup : (attempts.map Attempt.opener).Nodup)
    {earlier later : List Token} {line : Token}
    (hlines : keywordLines true ts = earlier ++ line :: later)
    (hk : sectionKeyword? line = some .version) :
    (∃ e, ⟨line, .error e⟩ ∈ attempts ∧ RefusesVersion e line)
      ↔ ∃ t ∈ earlier, sectionKeyword? t = some .version ∨ Built attempts t := by
  obtain ⟨before, a, after, mid, us, vs, rfl, rfl, rfl, hbefore, hfirst, hal', -⟩ :=
    h.exists_at hal hlines
  have hsame : ∀ x ∈ before ++ a :: after, ∀ y ∈ before ++ a :: after,
      x.opener = y.opener → x = y := fun x hx y hy => List.inj_on_of_nodup_map hnodup hx hy
  have ha : a ∈ before ++ a :: after := List.mem_append_right _ List.mem_cons_self
  have hsub : ∀ x ∈ before, x ∈ before ++ a :: after := fun x hx => List.mem_append_left _ hx
  have hattempt : (∃ e, ⟨a.opener, .error e⟩ ∈ before ++ a :: after ∧ RefusesVersion e a.opener)
      ↔ ∃ e, a.outcome = .error e ∧ RefusesVersion e a.opener := by
    refine exists_congr fun e => and_congr_left fun _ => ⟨fun hmem => ?_, fun he => ?_⟩
    · exact (congrArg Attempt.outcome (hsame _ hmem _ ha rfl)).symm
    · rw [← he]
      exact ha
  rw [hattempt, hfirst.refusesVersion_iff hal' hk]
  -- what was met before the attempt is what the attempts at the earlier lines left
  constructor
  · rintro (hseen | hread)
    · rcases hbefore.of_mem_seen hseen with hnone | ⟨x, hx, hword⟩
      · cases hnone
      · exact ⟨x.opener, opener_mem_lines hx hword, .inl hword⟩
    · obtain ⟨t, d, hd⟩ := hbefore.declarations_ne_nil_iff.mp hread
      exact ⟨t, opener_mem_lines hd (hbefore.keyword_of_built hd), .inr ⟨d, hsub _ hd⟩⟩
  · rintro ⟨t, ht, hcase⟩
    obtain ⟨x, hx, rfl⟩ := List.mem_map.mp (List.mem_of_mem_filter ht)
    rcases hcase with hword | ⟨d, hd⟩
    · exact .inl (hbefore.seen.2 x hx .version hword rfl)
    · have hx' : ⟨x.opener, .ok d⟩ ∈ before := hsame _ hd _ (hsub x hx) rfl ▸ hx
      exact .inr (hbefore.declarations_ne_nil_iff.mpr ⟨x.opener, d, hx'⟩)

end Manuscript.Grammar

namespace Manuscript

open Grammar

/-- Which versions behind other sections are refused. If a source can be read and the version gate
lets it pass, and a version starts a line at depth 0 behind another line that starts with a keyword
there, the source does not follow the grammar. The version itself is reported, at its keyword and
for its place, exactly if a section on an earlier line was read or is a version too. -/
theorem parse_lateVersion {source : String} {ts : List Token} (h : tokenize source = .ok ts)
    (gate : (TokenWindow.ofSource source).checkVersion.1 = .ok ())
    {earlier later : List Token} {line : Token}
    (hlines : keywordLines true ts = earlier ++ line :: later)
    (hversion : sectionKeyword? line = some .version)
    (hbehind : earlier ≠ []) :
    ∃ attempts, Recovery ts (parse source) attempts
      ∧ (∃ es, parse source = .error (.grammar es))
      ∧ ((∃ e, ⟨line, .error e⟩ ∈ attempts ∧ Reports (parse source) e
            ∧ e.position = line.position ∧ RefusesVersion e line)
          ↔ ∃ t ∈ earlier, sectionKeyword? t = some .version ∨ Built attempts t) := by
  obtain ⟨z, hascending⟩ := ascending_tokenize h
  rw [TokenWindow.checkVersion_fst, (stream_of_tokenize source).1 ts h] at gate
  obtain ⟨attempts, final, hattempts, hverdict⟩ := parse_eq_verdict ts
  have hparse : parse source = verdict attempts := by
    rw [parse_of_tokenize h, parseTokens_of_gate gate, hverdict]
  have hrecovery := recovery_of_attempts hattempts (fits_tokenize h).indented hascending
  have hal : Aligned z ⟨1, 0⟩ ts := ⟨(fits_tokenize h).indented, hascending⟩
  have hdistinct : ts.Nodup := hascending.pairwise.imp fun hb heq => hb.ne (congrArg _ heq)
  have hnodup := (hrecovery.starts.trans (lineStarts_sublist true ts)).nodup hdistinct
  have hrefused := hattempts.refusesVersion_at hal hnodup hlines hversion
  rw [hparse]
  refine ⟨attempts, hrecovery, ?_, ?_⟩
  · -- the section in front is reported itself, or it was read, and then the version is refused
    obtain ⟨t, rest, rfl⟩ := List.exists_cons_of_ne_nil hbehind
    obtain ⟨a, ha, ⟨d, hd, -⟩ | ⟨_, -, ⟨es, hes, -⟩, -⟩⟩ :=
      hrecovery.met [] t (rest ++ line :: later) hlines
    · obtain ⟨hmem, hopener⟩ := List.mem_filter.mp (ha ▸ List.mem_singleton_self a)
      have hbuilt : Built attempts t := ⟨d, by rwa [← hd, ← eq_of_beq hopener]⟩
      obtain ⟨e, herror, -⟩ := hrefused.mpr ⟨t, List.mem_cons_self, .inr hbuilt⟩
      obtain ⟨es, hes, -⟩ := reported_of_mem herror rfl
      exact ⟨es, hes⟩
    · exact ⟨es, hes⟩
  · rw [← hrefused]
    refine exists_congr fun e => and_congr_right fun hmem => ⟨fun hall => hall.2.2, ?_⟩
    intro hrefuses
    have hposition := (SyntaxError.of_token? hrefuses.token?_eq).1
    exact ⟨reported_of_mem hmem rfl, hposition, hrefuses⟩

/-- The tokens of a title and of a version on the next line. -/
def titleThenVersion : List Token :=
  [⟨.keyword, "title", ⟨1, 1⟩, 0⟩, ⟨.text, "On", ⟨1, 7⟩, 0⟩, ⟨.lineEnd, "", ⟨1, 11⟩, 0⟩,
    ⟨.keyword, "version", ⟨2, 1⟩, 0⟩, ⟨.text, "1.0", ⟨2, 9⟩, 0⟩, ⟨.lineEnd, "", ⟨2, 14⟩, 0⟩]

/-- A version is refused behind a title. -/
theorem parse_lateVersion_title :
    tokenize "title \"On\"\nversion \"1.0\"\n" = .ok titleThenVersion
      ∧ (TokenWindow.ofSource "title \"On\"\nversion \"1.0\"\n").checkVersion.1 = .ok ()
      ∧ keywordLines true titleThenVersion = [titleThenVersion[0], titleThenVersion[3]]
      ∧ sectionKeyword? titleThenVersion[3] = some .version
      ∧ ∃ attempts, Built attempts titleThenVersion[0]
        ∧ Recovery titleThenVersion (parse "title \"On\"\nversion \"1.0\"\n") attempts
        ∧ (∃ es, parse "title \"On\"\nversion \"1.0\"\n" = .error (.grammar es))
        ∧ ∃ e, Reports (parse "title \"On\"\nversion \"1.0\"\n") e ∧ e.position = ⟨2, 1⟩
          ∧ RefusesVersion e titleThenVersion[3] := by
  have htokens : tokenize "title \"On\"\nversion \"1.0\"\n" = .ok titleThenVersion := by
    decide +kernel
  have hgate :
      (TokenWindow.ofSource "title \"On\"\nversion \"1.0\"\n").checkVersion.1 = .ok () := by
    decide +kernel
  have hlines : keywordLines true titleThenVersion
      = [titleThenVersion[0]] ++ [titleThenVersion[3]] := by decide
  have hversion : sectionKeyword? titleThenVersion[3] = some .version := by decide
  have hbehind : [titleThenVersion[0]] ≠ [] := List.cons_ne_nil _ _
  obtain ⟨attempts, hrecovery, hfails, hrefused⟩ :=
    parse_lateVersion htokens hgate hlines hversion hbehind
  have hbuilt : Built attempts titleThenVersion[0] := by
    obtain ⟨final, htried⟩ := hrecovery.tried
    obtain ⟨a, us, rest, rfl, hopener, hfirst⟩ := htried.exists_first
    cases hfirst with
    | built hrun =>
      cases hopener
      exact ⟨_, List.mem_cons_self⟩
    | broken hrun _ =>
      cases hopener
      cases hrun
  obtain ⟨e, -, hreports, hposition, hrefuses⟩ :=
    hrefused.mpr ⟨titleThenVersion[0], List.mem_singleton_self _, .inr hbuilt⟩
  exact ⟨htokens, hgate, hlines, hversion, attempts, hbuilt, hrecovery, hfails, e, hreports,
    hposition, hrefuses⟩

/-- The tokens of a title without a text and of a version on the next line. -/
def brokenThenVersion : List Token :=
  [⟨.keyword, "title", ⟨1, 1⟩, 0⟩, ⟨.lineEnd, "", ⟨1, 6⟩, 0⟩, ⟨.keyword, "version", ⟨2, 1⟩, 0⟩,
    ⟨.text, "1.0", ⟨2, 9⟩, 0⟩, ⟨.lineEnd, "", ⟨2, 14⟩, 0⟩]

/-- Behind a title that is broken, nothing is reported at the keyword of a version. -/
theorem lateVersion_unreported :
    tokenize "title\nversion \"1.0\"\n" = .ok brokenThenVersion
      ∧ (TokenWindow.ofSource "title\nversion \"1.0\"\n").checkVersion.1 = .ok ()
      ∧ keywordLines true brokenThenVersion = [brokenThenVersion[0], brokenThenVersion[2]]
      ∧ sectionKeyword? brokenThenVersion[0] = some .title
      ∧ sectionKeyword? brokenThenVersion[2] = some .version
      ∧ ¬ ∃ e, Reports (parse "title\nversion \"1.0\"\n") e
        ∧ e.position = brokenThenVersion[2].position := by
  have hparse : parse "title\nversion \"1.0\"\n"
      = .error (.grammar [.unexpected titleFragment brokenThenVersion[1]]) := by decide +kernel
  refine ⟨by decide +kernel, by decide +kernel, by decide, by decide, by decide, ?_⟩
  rintro ⟨e, ⟨es, hes, he⟩, hposition⟩
  cases hes.symm.trans hparse
  cases List.mem_singleton.mp he
  revert hposition
  decide

end Manuscript
