import Manuscript.Proofs.Compilation.Raised

/-!
# Sources that are never cited

The ids that a text cites are collected while it is set, through the works of the sources; which
sources are never cited is asked of the sources themselves. Both ask for trimmed ids, and every
citation of a checked specification means a source, so that the warnings are about the text as it
was written.

* `picks_neverCited`: what only one finding says.
* `Specification.cites`: the text cites a source, wherever in the body.
* `process_neverCited`: which sources are said to be never cited.
-/

namespace Manuscript

/-- The end of what is said about a source that is never cited. -/
def neverCitedEnd : String := "\" is never cited"

/-- The warning says of some source that it is never cited. -/
def Warning.saysNeverCited (w : Warning) : Bool :=
  w.finding.kind == .selfCheck && neverCitedEnd.toList.isSuffixOf w.finding.message.toList

theorem saysNeverCited_iff {w : Warning} :
    w.saysNeverCited = true ↔
      w.finding.kind = .selfCheck ∧ neverCitedEnd.toList <:+ w.finding.message.toList := by
  unfold Warning.saysNeverCited
  simp

/-- A finding about a source that is never cited says so. -/
theorem saysNeverCited_found (label : String) (position : Position) :
    Warning.saysNeverCited (.found (.neverCited label) position) = true := by
  rw [saysNeverCited_iff]
  refine ⟨rfl, ?_⟩
  have hend : (Finding.neverCited label).message = "The source \"" ++ label ++ neverCitedEnd := rfl
  show neverCitedEnd.toList <:+ (Finding.neverCited label).message.toList
  rw [hend, String.toList_append]
  exact List.suffix_append _ _

/-- Only one finding says that a source is never cited: the others that ask to look again end with
another letter. -/
theorem picks_neverCited : PicksOnly .citations Warning.saysNeverCited := by
  intro w hw other hother
  obtain ⟨hkind, hend⟩ := saysNeverCited_iff.mp hw
  have hletter {s : String} (h : s.toList.getLast? = some 'y') :
      ¬ neverCitedEnd.toList <:+ s.toList := by
    rintro ⟨before, hsplit⟩
    have hlast : neverCitedEnd.toList.getLast? = some 'd' := by decide
    rw [← hsplit, List.getLast?_append, hlast] at h
    exact absurd (Option.some.inj h) (by decide)
  cases hfinding : w.finding <;> rw [hfinding] at hkind hend hother
  case neverCited label =>
    cases hother
    rfl
  case oddSemester found =>
    refine absurd hend (hletter ?_)
    rw [show (Finding.oddSemester found).message
      = "The semester \"" ++ found ++ "\" does not follow the form WS yyyy or SS yyyy" from rfl,
      String.toList_append, List.getLast?_append]
    rfl
  case italicsIfNecessary => exact absurd hend (hletter (by decide))
  case stated => cases hother
  -- the other findings are of another kind
  all_goals cases hkind

/-! ## Citations of the text -/

namespace Specification

variable (spec : Specification)

/-- The text cites the source: the source has an id, and some citation of the body means that id.
-/
def cites (s : Source) : Bool :=
  (citationsOf spec.body.sentences).any fun l => s.citedAs == some l.trimmed

end Specification

namespace Compiler

variable {c : Compiler} {spec : Specification} {p : Preparation} {doc : Document}
  {warnings : List Warning}

/-- The ids that were cited are those that the text cites. -/
theorem cited_eq_cites (hcheck : spec.check = .ok ()) (hprepare : c.prepare spec = .ok p)
    (s : Source) : s.citedAs.any (contentOf spec p).cited.contains = spec.cites s := by
  obtain ⟨setting, hshows⟩ := shows_contentOf hcheck hprepare
  -- what was cited while the text was set is what its sentences cite
  rw [hshows.cited, ← Body.sentences_eq]
  unfold Specification.cites
  cases s.citedAs with
  | none => simp
  | some id =>
    show List.contains _ id = _
    rw [List.contains_eq_any_beq, List.any_map]
    rfl

/-- The sources that are said to be never cited are, in the order of declaration, exactly those
that no citation of the text means, each at the position of the source. -/
theorem process_neverCited (h : c.process spec = (.ok doc, warnings)) :
    warnings.filter Warning.saysNeverCited
      = (spec.sources.filter fun s => !spec.cites s).map fun s =>
        .found (.neverCited (uncitedLabel s)) s.position := by
  obtain ⟨p, hp⟩ := processed_of_ok h
  rw [filter_process_citations h hp.prepare picks_neverCited]
  -- the findings about citations come source by source, and so does the filter
  show (spec.sources.flatMap fun s => _).filter _ = _
  rw [List.filter_flatMap]
  induction spec.sources with
  | nil => rfl
  | cons s rest ih =>
    rw [List.flatMap_cons, ih, filter_warnIf, saysNeverCited_found, Bool.and_true,
      cited_eq_cites hp.check hp.prepare]
    cases hcites : spec.cites s <;> simp [warnIf, hcites]

/-- The annotated essay with two more sources: one whose id the text does not cite, and one without
an id. -/
def halfCitedEssay : Specification :=
  let text (line column : Nat) (value : String) : Literal := ⟨value, ⟨line, column⟩⟩
  let book (line : Nat) (id : Option String) (title : String) : Source :=
    { kind := .book, position := ⟨line, 5⟩, id := id.map (text line 12)
      title := some (text line 20 title), publisher := some (text line 30 "Murray") }
  { annotatedEssay with
    bibliography := some
      ⟨[book 10 (some "m") "Moss", book 11 (some "r ") "Ravens", book 12 none "Orchids"],
        some ⟨9, 1⟩⟩ }

/-- The text cites the second source, under an id that is trimmed on both sides. -/
theorem process_neverCited_halfCitedEssay : ∃ doc warnings,
    process { today := ⟨2024, 1, 1⟩ } halfCitedEssay = (.ok doc, warnings)
      ∧ warnings.filter Warning.saysNeverCited
        = [.found (.neverCited "Moss") ⟨10, 5⟩, .found (.neverCited "Orchids") ⟨12, 5⟩] := by
  have hok : (process { today := ⟨2024, 1, 1⟩ } halfCitedEssay).1.isOk = true := by decide +kernel
  cases h : process { today := ⟨2024, 1, 1⟩ } halfCitedEssay with
  | mk outcome warnings =>
    rw [h] at hok
    cases outcome with
    | error e => cases hok
    | ok doc => exact ⟨doc, warnings, rfl, (process_neverCited h).trans (by decide +kernel)⟩

end Compiler

end Manuscript
