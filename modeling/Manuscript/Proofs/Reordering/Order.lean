import Manuscript.Proofs.Canonical.RoundTrip
import Manuscript.Proofs.Reordering.Decomposition
import Manuscript.Proofs.Reordering.Sections
import Manuscript.Proofs.Specification.Regrouping

/-!
# Sources in another order

What a source declares does not depend on the order of its sections, but for those that make up a
sequence; nor on the order of the lines inside a section, where they fill the fields of a record.

* `ConsistsOf`, `SectionsPermuted`, `Reordered`: the sections of a source, and their reorderings.
* `declares_unique`: the tokens of a section say what it declares.
* `parse_reordered`: a reordered source is parsed as the same specification up to positions.
-/

namespace Manuscript

open Canonical

namespace Passage

/-- The text of a source that consists of passages. -/
def text (F : List Passage) : String := String.ofList (charsOf F)

/-- The passages are the sections of a source. -/
structure ConsistsOf (source : String) (F : List Passage) : Prop where
  at_zero : ∀ m ∈ F, m.At 0
  text : text F = source

/-- The passage begins with one of some keywords. -/
def begins (f : Keyword → Bool) (m : Passage) : Bool := m.keyword?.any f

/-- Sections in another order. The version stays in front, and the sections of the authors, those of
the assessors and those of the content keep their order among each other. -/
structure SectionsPermuted (F F' : List Passage) : Prop where
  perm : F'.Perm F
  version : ∀ m ∈ F.head?, m.keyword? = some .version → F'.head? = some m
  authors : F'.filter (begins (· = .author)) = F.filter (begins (· = .author))
  assessors : F'.filter (begins (· = .assessor)) = F.filter (begins (· = .assessor))
  content : F'.filter (begins Keyword.isContent) = F.filter (begins Keyword.isContent)

/-- Sections in another order, after what may change places inside of them did. -/
def Reordered (F F' : List Passage) : Prop :=
  ∃ G, List.Forall₂ Rearranged F G ∧ SectionsPermuted G F'

end Passage

namespace Specification

/-- A version that was declared is the version of a specification. -/
theorem isSome_version_foldl {ds : List Declaration} {spec : Specification}
    (h : spec.version.isSome = true ∨ ∃ d ∈ ds, d.keyword = .version) :
    (ds.foldl declare spec).version.isSome = true := by
  induction ds generalizing spec with
  | nil => simpa using h
  | cons d ds ih =>
    refine ih ?_
    by_cases hd : d.keyword = .version
    · obtain ⟨text, rfl⟩ := declaration_of_keyword hd
      exact .inl rfl
    · rw [version_declare spec hd]
      simpa [hd] using h

end Specification

namespace Grammar

open Passage Production

/-! ## What a section declares -/

variable {m : Passage} {d d' : Declaration} {F G F' : List Passage} {ds ds' : List Declaration}

theorem keyword_of_declares (h : Declares m d) :
    m.keyword? = some d.keyword :=
  (Option.filter_eq_some_iff.mp (h.keyword m.line.first rfl)).1

theorem begins_of_declares (h : Declares m d) (f : Keyword → Bool) :
    m.begins f = f d.keyword := by
  unfold Passage.begins
  rw [keyword_of_declares h, Option.any_some]

theorem keywords_of_declares
    (h : List.Forall₂ Declares F ds) :
    F.map Passage.keyword? = (ds.map Declaration.keyword).map some := by
  induction h with
  | nil => rfl
  | cons hd _ ih =>
    rw [List.map_cons, List.map_cons, List.map_cons, ih, keyword_of_declares hd]

/-- The tokens of a section say what it declares. -/
theorem declares_unique (h : Declares m d)
    (h' : Declares m d') : d'.unplaced = d.unplaced := by
  have hkeyword : d'.keyword = d.keyword :=
    Option.some.inj ((keyword_of_declares h').symm.trans (keyword_of_declares h))
  have hnone : Follows 0 ([] : List Token) := nofun
  obtain ⟨e, b, q, hr, he⟩ :=
    h.body true m.line.first rfl (fun _ => rfl) m.behind [] true .origin m.unplaced_behind hnone
  obtain ⟨e', b', q', hr', he'⟩ :=
    h'.body true m.line.first rfl (fun _ => rfl) m.behind [] true .origin m.unplaced_behind hnone
  rw [hkeyword, hr] at hr'
  cases hr'
  exact he'.symm.trans he

/-- Sections declare the same, one by one. -/
theorem declares_all_unique
    (h : List.Forall₂ Declares G ds)
    (h' : List.Forall₂ Declares G ds') :
    ds'.map Declaration.unplaced = ds.map Declaration.unplaced := by
  induction h generalizing ds' with
  | nil =>
    cases h'
    rfl
  | cons hd _ ih =>
    cases h' with
    | cons hd' hds' => rw [List.map_cons, List.map_cons, declares_unique hd hd', ih hds']

/-- Sections of some keywords that keep their order declare the same, one by one. -/
theorem map_unplaced_filter (h : List.Forall₂ Declares G ds)
    (h' : List.Forall₂ Declares F' ds') {f : Keyword → Bool}
    (hf : F'.filter (begins f) = G.filter (begins f)) :
    (ds'.filter fun d => f d.keyword).map Declaration.unplaced
      = (ds.filter fun d => f d.keyword).map Declaration.unplaced := by
  have hfilter {F : List Passage} {ds : List Declaration}
      (h : List.Forall₂ Declares F ds) :
      List.Forall₂ Declares (F.filter (begins f))
        (ds.filter fun d => f d.keyword) :=
    List.rel_filter (R := Declares) (fun _ _ hd => Bool.eq_iff_iff.mp (begins_of_declares hd f)) h
  have hds' := hfilter h'
  rw [hf] at hds'
  exact declares_all_unique (hfilter h) hds'

/-! ## The order of the sections -/

theorem group_eq_author (k : Keyword) : decide (k.group = .author) = decide (k = .author) := by
  cases k <;> rfl

theorem group_eq_assessor (k : Keyword) :
    decide (k.group = .assessor) = decide (k = .assessor) := by
  cases k <;> rfl

theorem group_eq_paragraph (k : Keyword) : decide (k.group = .paragraph) = k.isContent := by
  cases k <;> rfl

/-- Sections in another order make the same specification up to positions. -/
theorem unplaced_of_permuted (hs : SectionsPermuted G F')
    (h : List.Forall₂ Declares G ds)
    (h' : List.Forall₂ Declares F' ds') (hperm : ds.Perm ds')
    (ho : (ds.map Declaration.keyword).Pairwise MayFollow) :
    (Specification.ofDeclarations ds').unplaced = (Specification.ofDeclarations ds).unplaced := by
  refine Specification.unplaced_ofDeclarations_groups fun g => ?_
  unfold Declaration.group
  by_cases hauthor : g = .author
  · subst hauthor
    simp only [group_eq_author]
    exact map_unplaced_filter h h' hs.authors
  by_cases hassessor : g = .assessor
  · subst hassessor
    simp only [group_eq_assessor]
    exact map_unplaced_filter h h' hs.assessors
  by_cases hcontent : g = .paragraph
  · subst hcontent
    simp only [group_eq_paragraph]
    exact map_unplaced_filter h h' hs.content
  · have hpairwise : ds.Pairwise fun d e => e.keyword.isRepeatable = true ∨ e.keyword ≠ d.keyword :=
      (List.pairwise_map.mp ho).imp And.right
    exact congrArg (List.map Declaration.unplaced)
      (Specification.filter_group_of_perm hperm hpairwise hauthor hassessor hcontent)

/-- The version stands in front if there is none behind the first section. -/
theorem pairwise_late_iff (h : List.Forall₂ Declares F ds) :
    (ds.map Declaration.keyword).Pairwise (fun _ k => k ≠ .version)
      ↔ ∀ m ∈ F.tail, m.keyword? ≠ some .version := by
  cases h with
  | nil => simp
  | @cons m d F ds _ hds =>
    have hkeywords := keywords_of_declares hds
    rw [List.map_cons, List.pairwise_cons, List.tail_cons]
    constructor
    · rintro ⟨hlate, -⟩ m hm hversion
      have hmem := List.mem_map_of_mem (f := Passage.keyword?) hm
      rw [hkeywords, hversion] at hmem
      obtain ⟨k, hk, hversion⟩ := List.mem_map.mp hmem
      exact hlate k hk (Option.some.inj hversion)
    · intro hlate
      have hall : ∀ k ∈ ds.map Declaration.keyword, k ≠ .version := by
        rintro _ hk rfl
        have hmem := List.mem_map_of_mem (f := some) hk
        rw [← hkeywords] at hmem
        obtain ⟨m, hm, hversion⟩ := List.mem_map.mp hmem
        exact hlate m hm hversion
      exact ⟨hall, List.pairwise_of_forall_mem_list fun _ _ k hk => hall k hk⟩

/-- A version that stays in front is still the only one. -/
theorem late_of_permuted (hs : SectionsPermuted G F')
    (hlate : ∀ m ∈ G.tail, m.keyword? ≠ some .version) :
    ∀ m ∈ F'.tail, m.keyword? ≠ some .version := by
  intro m hm
  cases G with
  | nil =>
    rw [hs.perm.eq_nil] at hm
    cases hm
  | cons g G =>
    by_cases hg : g.keyword? = some .version
    · obtain ⟨F, rfl⟩ : ∃ F, F' = g :: F := ⟨_, List.eq_cons_of_mem_head? (hs.version g rfl hg)⟩
      exact hlate m ((List.Perm.cons_inv hs.perm).mem_iff.mp hm)
    · rcases List.mem_cons.mp (hs.perm.mem_iff.mp (List.mem_of_mem_tail hm)) with rfl | hmem
      · exact hg
      · exact hlate m hmem

/-- Sections in another order may stand so. -/
theorem mayFollow_of_permuted (hs : SectionsPermuted G F') (h : List.Forall₂ Declares G ds)
    (h' : List.Forall₂ Declares F' ds') (hperm : ds.Perm ds')
    (ho : (ds.map Declaration.keyword).Pairwise MayFollow) :
    (ds'.map Declaration.keyword).Pairwise MayFollow := by
  have hlate : (ds'.map Declaration.keyword).Pairwise fun _ k => k ≠ .version := by
    rw [pairwise_late_iff h']
    exact late_of_permuted hs ((pairwise_late_iff h).mp (ho.imp And.left))
  have honce : (ds'.map Declaration.keyword).Pairwise fun j k => k.isRepeatable = true ∨ k ≠ j := by
    refine ((hperm.map Declaration.keyword).pairwise_iff ?_).mp (ho.imp And.right)
    intro j k hjk
    by_cases hk : j = k
    · exact hk ▸ hjk
    · exact .inr hk
  exact hlate.and honce

/-! ## The whole source -/

/-- The version gate lets a source pass that is read as the same declarations, up to their order, as
one that was parsed. -/
theorem gate_of_declares {spec : Specification} (hspec : spec.Grammatical)
    (h' : List.Forall₂ Declares F' ds') {ts : List Token}
    (hts : ts.map Token.unplaced = tokensOf F') {progress : Progress} (hread : ReadAs ds' progress)
    {c : Cursor} (hr : sections.run (.before ts true ⟨1, 1⟩) = (.ok progress, c))
    (heq : (Specification.ofDeclarations progress.declarations).unplaced = spec.unplaced) :
    TokenStream.checkVersion ⟨ts, none⟩ = .ok () := by
  rw [TokenWindow.checkVersion_complete]
  rintro t u us rfl hk -
  -- the first section is the version, so that a version was declared
  have hdeclared : ∃ d ∈ ds', d.keyword = .version := by
    cases h' with
    | nil => cases hts
    | @cons m d _ ds' hd _ =>
      rw [tokensOf, Passage.tokens_eq] at hts
      have hword := (Option.filter_eq_some_iff.mp (hd.keyword t (List.cons.inj hts).1)).1
      rw [hk] at hword
      exact ⟨d, List.mem_cons_self, (Option.some.inj hword).symm⟩
  have hsome : ((Specification.ofDeclarations progress.declarations).version).isSome = true := by
    have hversion : (Specification.ofDeclarations ds').version.isSome = true :=
      Specification.isSome_version_foldl (.inr hdeclared)
    have hsame := congrArg Specification.version
      (Specification.unplaced_ofDeclarations hread.declarations)
    have hmap := congrArg Option.isSome hsame
    unfold Specification.unplaced at hmap
    rw [Option.isSome_map, Option.isSome_map] at hmap
    exact hmap.trans hversion
  obtain ⟨l, hl⟩ := Option.isSome_iff_exists.mp hsome
  have hsound : Sound False (t :: u :: us) progress [] := sound_sections False.elim hr hread.errors
  obtain ⟨_, _, _, hcons, -, -, rfl⟩ := hsound.version l hl
  obtain ⟨-, rfl, -⟩ : t = _ ∧ u = _ ∧ us = _ := by simpa using hcons
  -- it is the one of the specification
  have hversion := congrArg Specification.version heq
  unfold Specification.unplaced at hversion
  dsimp only at hversion
  rw [hl, Option.map_some] at hversion
  obtain ⟨l, hspecl, hvalue⟩ := Option.map_eq_some_iff.mp hversion.symm
  have hsupported := hspec.version l hspecl
  have hsame : l.value = u.value := congrArg Literal.value hvalue
  unfold Literal.trimmed at hsupported
  rwa [hsame] at hsupported

end Grammar

open Grammar Passage

/-- Sections that are parsed are parsed again in another order, and the specification is the same up
to positions. -/
theorem parse_of_reordered {F F' : List Passage} {spec : Specification} (hF : ∀ m ∈ F, m.At 0)
    (hR : Reordered F F') (h : parse (text F) = .ok spec) :
    ∃ spec', parse (text F') = .ok spec' ∧ spec'.unplaced = spec.unplaced := by
  obtain ⟨G, hFG, hs⟩ := hR
  have hG : ∀ m ∈ G, m.At 0 := forall_at (fun _ _ hm => hm.at) hFG hF
  have hF' : ∀ m ∈ F', m.At 0 := fun m hm => hG m (hs.perm.mem_iff.mp hm)
  have hgram := grammatical_of_parse h
  -- the first source is read as declarations
  obtain ⟨ts, htokenize, hts⟩ := tokenize_charsOf hF
  rw [text, parse_of_tokenize htokenize] at h
  rw [parseTokens_of_gate (gate_of_parseTokens h)] at h
  obtain ⟨progress, c, hr, hok, rfl⟩ := of_parse h
  obtain ⟨-, us, b, q, hc⟩ := Production.run_listed sections ts true ⟨1, 1⟩
  rw [hr] at hc
  obtain rfl : c = Production.Cursor.before us b q := hc
  obtain ⟨ds, hds, hprogress, hadmitted⟩ := of_run_sections hFG hF hts hr hok
  -- and the second one as the same in another order
  obtain ⟨ds', hds', hperm⟩ := List.perm_comp_forall₂ hs.perm hds
  obtain ⟨ts', htokenize', hts'⟩ := tokenize_charsOf hF'
  have horder := mayFollow_of_permuted hs hds hds' hperm.symm hadmitted.order
  have hreads := reads_sections (List.forall₂_map_left_iff.mpr hds') horder
  rw [← tokensOf_eq] at hreads
  obtain ⟨progress', b', q', hr', hread⟩ := hreads ts' [] true ⟨1, 1⟩ hts' rfl
  rw [List.append_nil] at hr'
  have heq : (Specification.ofDeclarations progress'.declarations).unplaced
      = (Specification.ofDeclarations progress.declarations).unplaced := by
    rw [Specification.unplaced_ofDeclarations hread.declarations, hprogress,
      unplaced_of_permuted hs hds hds' hperm.symm hadmitted.order]
    rfl
  refine ⟨_, ?_, heq⟩
  have hgate := gate_of_declares hgram hds' hts' hread hr' heq
  rw [text, parse_of_tokenize htokenize', parseTokens_of_gate hgate]
  exact parse_of_run hr' hread.errors

/-- A source whose last line is complete, and which declares anything, consists of sections. It is
parsed again in another order of its sections, and of the lines that may change places inside of
them; and the specification is the same up to positions. -/
theorem parse_reordered {source : String} {spec : Specification} (h : parse source = .ok spec) :
    (source.toList.getLast? = some '\n' → spec = {} ∨ ∃ F, ConsistsOf source F)
      ∧ ∀ F F', ConsistsOf source F → Reordered F F' →
        ∃ spec', parse (text F') = .ok spec' ∧ spec'.unplaced = spec.unplaced := by
  constructor
  · intro hend
    rcases exists_passages hend h with hnone | ⟨F, hF, hchars⟩
    · left
      rw [parse_of_tokenize hnone] at h
      cases h
      rfl
    · refine .inr ⟨F, hF, ?_⟩
      rw [text, hchars, String.ofList_toList]
  · rintro F F' ⟨hF, rfl⟩ hR
    exact parse_of_reordered hF hR h

/-- A version behind a comment. -/
def versionLine : SourceLine where
  chars := "# first\nversion \"1.0\"\n".toList
  tokens := ⟨0, none, [⟨.keyword, "version", ⟨2, 1⟩, 0⟩, ⟨.text, "1.0", ⟨2, 9⟩, 0⟩],
    ⟨.lineEnd, "", ⟨2, 14⟩, 0⟩, by decide, by decide, by decide, rfl, by decide⟩
  read := SourceLine.read_of_feedAll (l := { line := 3, start := ⟨2, 9⟩ }) (by decide +kernel)
    ⟨rfl, rfl, rfl, rfl, rfl⟩

/-- The opening line of an author. -/
def authorLine : SourceLine where
  chars := "author\n".toList
  tokens := ⟨0, none, [⟨.keyword, "author", ⟨1, 1⟩, 0⟩], ⟨.lineEnd, "", ⟨1, 7⟩, 0⟩, by decide,
    by decide, by decide, rfl, by decide⟩
  read := SourceLine.read_of_feedAll (l := { line := 2, start := ⟨1, 1⟩ }) (by decide +kernel)
    ⟨rfl, rfl, rfl, rfl, rfl⟩

/-- A name, and a blank line. -/
def nameLine : SourceLine where
  chars := "\tname \"Ada\"\n\n".toList
  tokens := ⟨1, some ⟨.indent, "1", ⟨1, 1⟩, 1⟩,
    [⟨.keyword, "name", ⟨1, 2⟩, 1⟩, ⟨.text, "Ada", ⟨1, 7⟩, 1⟩], ⟨.lineEnd, "", ⟨1, 12⟩, 1⟩,
    by decide, by decide, by decide, rfl, by decide⟩
  read := SourceLine.read_of_feedAll
    (l := { line := 3, depth := 1, previousDepth := 1, start := ⟨1, 7⟩ }) (by decide +kernel)
    ⟨rfl, rfl, rfl, rfl, rfl⟩

/-- A role, indented by spaces. -/
def roleLine : SourceLine where
  chars := "    role \"Dr\"\n".toList
  tokens := ⟨1, some ⟨.indent, "1", ⟨1, 1⟩, 1⟩,
    [⟨.keyword, "role", ⟨1, 5⟩, 1⟩, ⟨.text, "Dr", ⟨1, 10⟩, 1⟩], ⟨.lineEnd, "", ⟨1, 14⟩, 1⟩,
    by decide, by decide, by decide, rfl, by decide⟩
  read := SourceLine.read_of_feedAll
    (l := { line := 2, depth := 1, previousDepth := 1, start := ⟨1, 10⟩ }) (by decide +kernel)
    ⟨rfl, rfl, rfl, rfl, rfl⟩

/-- The type of a document. -/
def typeLine : SourceLine where
  chars := "type \"thesis\"\n".toList
  tokens := ⟨0, none, [⟨.keyword, "type", ⟨1, 1⟩, 0⟩, ⟨.text, "thesis", ⟨1, 6⟩, 0⟩],
    ⟨.lineEnd, "", ⟨1, 14⟩, 0⟩, by decide, by decide, by decide, rfl, by decide⟩
  read := SourceLine.read_of_feedAll (l := { line := 2, start := ⟨1, 6⟩ }) (by decide +kernel)
    ⟨rfl, rfl, rfl, rfl, rfl⟩

/-- The author stands in front of the type. -/
def authorFirst : List Passage :=
  [.lines versionLine [], .lines authorLine [.lines nameLine [], .lines roleLine []],
    .lines typeLine []]

/-- The type stands in front of the author, and the role in front of the name. -/
def typeFirst : List Passage :=
  [.lines versionLine [], .lines typeLine [],
    .lines authorLine [.lines roleLine [], .lines nameLine []]]

theorem authorFirst_at : ∀ m ∈ authorFirst, m.At 0 := by
  have hmember (line : SourceLine) (h : line.depth = 1) : At 1 (.lines line []) :=
    at_iff.mpr ⟨h, List.forall_mem_nil _⟩
  have hversion : versionLine.depth = 0 := rfl
  have hauthor : authorLine.depth = 0 := rfl
  have htype : typeLine.depth = 0 := rfl
  simp [authorFirst, at_iff (d := 0), line, members, hversion, hauthor, htype,
    hmember nameLine rfl, hmember roleLine rfl]

theorem authorFirst_reordered : Reordered authorFirst typeFirst := by
  have hauthor : Rearranged (.lines authorLine [.lines nameLine [], .lines roleLine []])
      (.lines authorLine [.lines roleLine [], .lines nameLine []]) := ⟨rfl, .swap _ _ _⟩
  exact ⟨_, .cons rfl (.cons hauthor (.cons rfl .nil)), .cons _ (.swap _ _ _), fun _ hm _ => hm,
    rfl, rfl, rfl⟩

/-- The source in which the author stands in front. -/
def authorFirstSource : String :=
  "# first\nversion \"1.0\"\nauthor\n\tname \"Ada\"\n\n    role \"Dr\"\ntype \"thesis\"\n"

/-- The source in which the type stands in front. -/
def typeFirstSource : String :=
  "# first\nversion \"1.0\"\ntype \"thesis\"\nauthor\n    role \"Dr\"\n\tname \"Ada\"\n\n"

/-- The comment, the blank line and the spaces of the lines go with them. -/
theorem parse_reordered_typeFirst :
    ∃ spec spec',
      parse authorFirstSource = .ok spec
      ∧ ConsistsOf authorFirstSource authorFirst
      ∧ Reordered authorFirst typeFirst
      ∧ parse typeFirstSource = .ok spec'
      ∧ spec'.unplaced = spec.unplaced := by
  have hparse : parse authorFirstSource = .ok
      { version := some ⟨"1.0", ⟨2, 9⟩⟩, documentType := some ⟨"thesis", ⟨7, 6⟩⟩
        authors := ⟨[{ name := some ⟨"Ada", ⟨4, 7⟩⟩, role := some ⟨"Dr", ⟨6, 10⟩⟩
                       position := ⟨3, 1⟩ }], some ⟨3, 1⟩⟩ } := by
    decide +kernel
  have hconsists : ConsistsOf authorFirstSource authorFirst := ⟨authorFirst_at, by decide +kernel⟩
  obtain ⟨spec', hparse', heq⟩ :=
    (parse_reordered hparse).2 authorFirst typeFirst hconsists authorFirst_reordered
  refine ⟨_, spec', hparse, hconsists, authorFirst_reordered, ?_, heq⟩
  rw [← hparse']
  exact congrArg parse (by decide +kernel)

end Manuscript
