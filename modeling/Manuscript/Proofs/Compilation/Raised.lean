import Manuscript.Proofs.Compilation.Building
import Manuscript.Proofs.Compilation.Setting

/-!
# Which step raises which warning

Every finding belongs to one concern, and every step of a compilation raises findings of its own
concern only. So a warning can be told by what it says, and all warnings that say it are raised in
one place.

* `Warning.says`: what a warning says, apart from where.
* `picks_noDate`, `picks_boldForbidden`, `picks_italics`: what only one finding says.
* `Specification.filter_findings`: what is said about one concern of a specification.
* `process_of_prepare`: the outcome and the warnings of a specification that was prepared.
* `filter_process_emphasis`, `filter_process_citations`: the warnings about one concern come from
  one place.
-/

namespace Manuscript

/-! ## Concerns -/

/-- What a finding is about. -/
inductive Concern where
  | title
  | authors
  | assessors
  | publication
  | style
  | images
  | sources
  /-- The absence of all content. -/
  | content
  /-- The emphasis of the text. -/
  | emphasis
  /-- The parts of the document. -/
  | parts
  /-- The sources that are cited. -/
  | citations
deriving DecidableEq

/-- The concern of a finding; a finding in words of its own has none. -/
def Finding.concern? : Finding → Option Concern
  | titleWithFullStop => some .title
  | repeatedAuthor _ => some .authors
  | partialRoles => some .assessors
  | oddSemester _ | noDate | paperEdition => some .publication
  | largeFont _ | smallFont _ | mixedUnits => some .style
  | sizeOverLengths => some .images
  | noSourceAuthor _ _ | noAccessDate _ => some .sources
  | noContent => some .content
  | italicsIfNecessary | boldForbidden => some .emphasis
  | emptyPart _ | unplacedContent _ | unplacedSources => some .parts
  | neverCited _ => some .citations
  | stated _ _ _ => none

/-- All warnings are about one concern. -/
def Concerns (concern : Concern) (ws : List Warning) : Prop :=
  ∀ w ∈ ws, w.finding.concern? = some concern

/-- Whatever is picked is about one concern, if it is about any. -/
def PicksOnly (concern : Concern) (p : Warning → Bool) : Prop :=
  ∀ w, p w = true → ∀ other, w.finding.concern? = some other → other = concern

namespace Concerns

variable {concern : Concern} {ws vs : List Warning}

theorem nil : Concerns concern [] := fun _ h => absurd h List.not_mem_nil

theorem append (h : Concerns concern ws) (h' : Concerns concern vs) : Concerns concern (ws ++ vs) :=
  List.forall_mem_append.mpr ⟨h, h'⟩

theorem flatMap {α : Type} {f : α → List Warning} {as : List α}
    (h : ∀ a, Concerns concern (f a)) : Concerns concern (as.flatMap f) := by
  intro w hw
  obtain ⟨a, -, hmem⟩ := List.mem_flatMap.mp hw
  exact h a w hmem

/-- A warning under a condition is about the concern of its finding. -/
theorem warnIf {b : Bool} {w : Warning} (h : w.finding.concern? = some concern) :
    Concerns concern (warnIf b w) := by
  unfold Manuscript.warnIf
  split_ifs
  · exact List.forall_mem_singleton.mpr h
  · exact nil

theorem elim {α : Type} {f : α → List Warning} {field : Option α}
    (h : ∀ a, Concerns concern (f a)) : Concerns concern (field.elim [] f) := by
  cases field with
  | none => exact nil
  | some a => exact h a

/-- Warnings about one concern are not among those about another. -/
theorem filter_eq_nil {other : Concern} {p : Warning → Bool} (h : Concerns other ws)
    (hp : PicksOnly concern p) (hne : other ≠ concern) : ws.filter p = [] := by
  apply List.filter_eq_nil_iff.mpr
  intro w hw hpw
  exact hne (hp w hpw other (h w hw))

end Concerns

/-! ## What warnings say -/

/-- The warning is of this kind and severity and has these words. -/
def Warning.says (kind : WarningKind) (severity : Severity) (message : String) (w : Warning) :
    Bool := w.finding.kind == kind && w.severity == severity && w.finding.message == message

/-- What a warning says is what its finding says. -/
theorem says_iff {kind : WarningKind} {severity : Severity} {message : String} {w : Warning} :
    w.says kind severity message = true ↔
      w.finding.kind = kind ∧ w.finding.severity = severity ∧ w.finding.message = message := by
  unfold Warning.says Warning.severity
  simp [and_assoc]

/-- The warning says that today's date stands in for a date that is not given. -/
def Warning.saysNoDate (w : Warning) : Bool :=
  w.says .missingMember .low "No publication date is given; today's date is used"

/-- The warning says that there is bold text where none may be. -/
def Warning.saysBoldForbidden (w : Warning) : Bool :=
  w.says .inconsistency .high "The style does not allow bold text; it is printed regular"

/-- The warning says that italics are used where they may not be necessary. -/
def Warning.saysItalics (w : Warning) : Bool :=
  w.says .selfCheck .low "The style allows italics only where necessary"

theorem ne_of_getElem {s t : String} {n : Nat} {c d : Char} (hs : s.toList[n]? = some c)
    (ht : t.toList[n]? = some d) (h : c ≠ d) : s ≠ t := by
  rintro rfl
  exact h (Option.some.inj (hs.symm.trans ht))

/-- What stands at the start of a text stands there when more is put behind. -/
theorem getElem?_append {s : String} {n : Nat} {c : Char} (h : s.toList[n]? = some c)
    (t : String) : (s ++ t).toList[n]? = some c := by
  rw [String.toList_append]
  obtain ⟨hlt, -⟩ := List.getElem?_eq_some_iff.mp h
  rw [List.getElem?_append_left hlt]
  exact h

/-- Only one finding says that there is no date: the others that are as low and miss something
begin with another letter. -/
theorem picks_noDate : PicksOnly .publication Warning.saysNoDate := by
  intro w hw other hother
  unfold Warning.saysNoDate at hw
  obtain ⟨hkind, hseverity, hmessage⟩ := says_iff.mp hw
  -- most findings are of another kind or severity; the messages tell the others apart
  have hletter {s : String} (h : s.toList[0]? = some 'T') :
      s ≠ "No publication date is given; today's date is used" :=
    ne_of_getElem h (d := 'N') (by decide) (by decide)
  cases hfinding : w.finding <;> rw [hfinding] at hkind hseverity hmessage hother
  case noDate =>
    cases hother
    rfl
  case noSourceAuthor kind label =>
    refine absurd hmessage (hletter ?_)
    exact getElem?_append (getElem?_append (getElem?_append (getElem?_append (by decide) _) _) _) _
  case noAccessDate label =>
    exact absurd hmessage (hletter (getElem?_append (getElem?_append (by decide) _) _))
  case emptyPart part =>
    exact absurd hmessage (hletter (getElem?_append (getElem?_append (by decide) _) _))
  case stated => cases hother
  case noContent | unplacedContent | unplacedSources => cases hseverity
  all_goals cases hkind

/-- Only one finding says that there is bold text that may not be. -/
theorem picks_boldForbidden : PicksOnly .emphasis Warning.saysBoldForbidden := by
  intro w hw other hother
  unfold Warning.saysBoldForbidden at hw
  obtain ⟨hkind, hseverity, hmessage⟩ := says_iff.mp hw
  cases hfinding : w.finding <;> rw [hfinding] at hkind hseverity hmessage hother
  case boldForbidden =>
    cases hother
    rfl
  case partialRoles => exact absurd hmessage (by decide)
  case stated => cases hother
  case mixedUnits | sizeOverLengths => cases hseverity
  all_goals cases hkind

/-- Only one finding says that there are italics that may not be necessary. -/
theorem picks_italics : PicksOnly .emphasis Warning.saysItalics := by
  intro w hw other hother
  unfold Warning.saysItalics at hw
  obtain ⟨hkind, hseverity, hmessage⟩ := says_iff.mp hw
  cases hfinding : w.finding <;> rw [hfinding] at hkind hseverity hmessage hother
  case italicsIfNecessary =>
    cases hother
    rfl
  case oddSemester found =>
    have hletter : (Finding.oddSemester found).message.toList[5]? = some 'e' :=
      getElem?_append (getElem?_append (by decide) _) _
    exact absurd hmessage (ne_of_getElem hletter (d := 't') (by decide) (by decide))
  case neverCited label =>
    have hletter : (Finding.neverCited label).message.toList[5]? = some 'o' :=
      getElem?_append (getElem?_append (by decide) _) _
    exact absurd hmessage (ne_of_getElem hletter (d := 't') (by decide) (by decide))
  case stated => cases hother
  all_goals cases hkind

/-! ## The specification -/

theorem concerns_title (t : Title) : Concerns .title t.findings := .warnIf rfl

theorem concerns_repeatedAuthors (seen : List String) (authors : List Person) :
    Concerns .authors (repeatedAuthors seen authors) := by
  induction authors generalizing seen with
  | nil => exact .nil
  | cons p rest ih => exact (Concerns.warnIf rfl).append (ih _)

theorem concerns_roles (assessors : People) : Concerns .assessors assessors.roleFindings :=
  .warnIf rfl

theorem concerns_publication (p : Publication) : Concerns .publication p.findings :=
  (Concerns.flatMap fun _ => .warnIf rfl).append (.warnIf rfl)

theorem concerns_style (style : StyleBlock) : Concerns .style style.findings := by
  have hfont (b : FontBlock) : Concerns .style b.findings := by
    apply Concerns.flatMap
    intro l
    cases l.positive "font size" with
    | error e => exact .nil
    | ok points => exact (Concerns.warnIf rfl).append (.warnIf rfl)
  exact (Concerns.elim hfont).append (.warnIf rfl)

theorem concerns_images (b : Body) : Concerns .images b.findings :=
  .flatMap fun _ => .warnIf rfl

theorem concerns_source (s : Source) : Concerns .sources s.findings :=
  (Concerns.warnIf rfl).append (.warnIf rfl)

theorem filter_warnIf (p : Warning → Bool) (b : Bool) (w : Warning) :
    (warnIf b w).filter p = warnIf (b && p w) w := by
  unfold warnIf
  cases b <;> cases hp : p w <;> simp [hp]

/-- A warning that is not picked is not among those that are. -/
theorem filter_warnIf_eq_nil {p : Warning → Bool} {w : Warning} (b : Bool) (h : p w = false) :
    (warnIf b w).filter p = [] := by
  rw [filter_warnIf, h, Bool.and_false]
  rfl

namespace Specification

variable (spec : Specification)

/-- The findings about a specification, each with its concern, in the order they are raised. -/
def pieces : List (Concern × List Warning) :=
  [(.title, spec.title.findings),
    (.authors, repeatedAuthors [] spec.authors.members),
    (.assessors, spec.assessors.roleFindings),
    (.publication, spec.publication.elim [] Publication.findings),
    (.style, spec.style.elim [] StyleBlock.findings),
    (.images, spec.body.findings),
    (.sources, spec.bibliography.elim [] fun b => b.sources.flatMap Source.findings),
    (.publication, (spec.publication.bind (·.edition)).toList.flatMap fun l =>
      warnIf spec.isPaper (.found .paperEdition l.position)),
    (.publication, warnIf spec.publication.isNone ⟨.noDate, none⟩),
    (.content, warnIf spec.body.blocks.isEmpty ⟨.noContent, none⟩)]

theorem findings_eq : spec.findings = spec.pieces.flatMap Prod.snd := by
  simp [findings, pieces]

/-- Every piece is about its own concern. -/
theorem concerns_pieces : ∀ x ∈ spec.pieces, Concerns x.1 x.2 := by
  simp only [pieces, List.forall_mem_cons]
  exact ⟨concerns_title _, concerns_repeatedAuthors _ _, concerns_roles _,
    .elim concerns_publication, .elim concerns_style, concerns_images _,
    .elim fun _ => .flatMap concerns_source, .flatMap fun _ => .warnIf rfl, .warnIf rfl,
    .warnIf rfl, fun _ h => absurd h List.not_mem_nil⟩

/-- What is picked from the findings of one concern stands in the pieces about it. -/
theorem filter_findings {concern : Concern} {p : Warning → Bool} (hp : PicksOnly concern p) :
    spec.findings.filter p
      = (spec.pieces.filter fun x => x.1 == concern).flatMap fun x => x.2.filter p := by
  rw [findings_eq, List.filter_flatMap]
  have hpieces := spec.concerns_pieces
  generalize spec.pieces = pieces at hpieces
  induction pieces with
  | nil => rfl
  | cons x rest ih =>
    obtain ⟨hx, hrest⟩ := List.forall_mem_cons.mp hpieces
    by_cases hconcern : x.1 = concern
    · rw [List.filter_cons_of_pos (by simpa using hconcern), List.flatMap_cons, List.flatMap_cons,
        ih hrest]
    · rw [List.filter_cons_of_neg (by simpa using hconcern), List.flatMap_cons, ih hrest,
        hx.filter_eq_nil hp hconcern]
      rfl

/-- Nothing is found about the emphasis before the text is set. -/
theorem filter_findings_emphasis {p : Warning → Bool} (hp : PicksOnly .emphasis p) :
    spec.findings.filter p = [] := by
  rw [filter_findings spec hp]
  rfl

/-- The absence of a date is found once: by the publication, or where there is none. -/
theorem filter_findings_noDate :
    spec.findings.filter Warning.saysNoDate
      = warnIf (spec.publication.bind (·.date)).isNone
        ⟨.noDate, spec.publication.map (·.position)⟩ := by
  have hdate (position : Option Position) : Warning.saysNoDate ⟨.noDate, position⟩ = true :=
    says_iff.mpr ⟨rfl, rfl, rfl⟩
  have hpieces : (spec.pieces.filter fun x => x.1 == .publication)
      = [(.publication, spec.publication.elim [] Publication.findings),
        (.publication, (spec.publication.bind (·.edition)).toList.flatMap fun l =>
          warnIf spec.isPaper (.found .paperEdition l.position)),
        (.publication, warnIf spec.publication.isNone ⟨.noDate, none⟩)] := rfl
  rw [filter_findings spec picks_noDate, hpieces]
  -- with a publication it is its own findings that tell, without one it is the last piece
  cases spec.publication with
  | none => simp [filter_warnIf, hdate]
  | some publication =>
    have hsemester (l : Literal) : (warnIf (!isSemester l.trimmedChars)
        (.found (.oddSemester l.value) l.position)).filter Warning.saysNoDate = [] :=
      filter_warnIf_eq_nil _ rfl
    have hedition (l : Literal) : (warnIf spec.isPaper
        (.found .paperEdition l.position)).filter Warning.saysNoDate = [] :=
      filter_warnIf_eq_nil _ rfl
    have hroot : warnIf false ⟨.noDate, none⟩ = [] := rfl
    have hnone (ls : List Literal) : ls.flatMap (fun _ => ([] : List Warning)) = [] :=
      List.flatMap_eq_nil_iff.mpr fun _ _ => rfl
    have hfound : Warning.saysNoDate (.found .noDate publication.position) = true := hdate _
    simp [Publication.findings, List.filter_flatMap, hsemester, hedition, hroot, hnone, hfound,
      filter_warnIf]
    rfl

end Specification

/-! ## The text -/

namespace Setting

variable (s : Setting)

/-- What is said about a run when it is set, whatever was set before. -/
def remarks : Run → List Warning
  | .emphasise l =>
    warnIf (decide (s.sheet.italic = .ifNecessary)) (.found .italicsIfNecessary l.position)
  | .bold l => warnIf (!s.sheet.bold.permits) (.found .boldForbidden l.position)
  | _ => []

theorem warnings_setRun (n : Nat) (r : Run) : (s.setRun n r).warnings = s.remarks r := by
  cases r with
  | emphasise l => simp [setRun, remarks, warnIf]
  | bold l => cases h : s.sheet.bold.permits <;> simp [setRun, remarks, warnIf, h]
  | citation l page => cases h : s.shelf.find? l.trimmed <;> simp [setRun, remarks, h]
  | _ => rfl

theorem warnings_setRuns (n : Nat) (runs : List Run) :
    (s.setRuns n runs).warnings = runs.flatMap s.remarks := by
  induction runs generalizing n with
  | nil => rfl
  | cons r rest ih =>
    show (s.setRun n r).warnings ++ (s.setRuns (n + (s.setRun n r).notes.length) rest).warnings = _
    rw [warnings_setRun, ih]
    rfl

theorem warnings_setSentences (n : Nat) (sentences : List Sentence) :
    (s.setSentences n sentences).2.warnings = (runsOf sentences).flatMap s.remarks := by
  induction sentences generalizing n with
  | nil => rfl
  | cons sentence rest ih =>
    have hruns : runsOf (sentence :: rest) = sentence.runs ++ runsOf rest := rfl
    show (s.setRuns n sentence.runs).warnings
      ++ (s.setSentences (n + (s.setRuns n sentence.runs).notes.length) rest).2.warnings = _
    rw [warnings_setRuns, ih, hruns, List.flatMap_append]

/-- What is said about the content is said about its runs, run by run. -/
theorem warnings_setElements (n : Nat) (es : List Element) :
    (s.setElements n es).warnings
      = (runsOf (es.flatMap Element.sentences)).flatMap s.remarks := by
  induction es generalizing n with
  | nil => rfl
  | cons e rest ih =>
    have hfirst : (s.setElement n e).warnings = (runsOf e.sentences).flatMap s.remarks := by
      cases e with
      | content b =>
        have hblock : (s.setBlock n b).warnings = (s.setSentences n b.sentences).2.warnings := by
          unfold setBlock
          cases b.kind.part? <;> rfl
        exact hblock.trans (s.warnings_setSentences n b.sentences)
      | _ => rfl
    have hruns : runsOf ((e :: rest).flatMap Element.sentences)
        = runsOf e.sentences ++ runsOf (rest.flatMap Element.sentences) := by
      unfold runsOf
      rw [List.flatMap_cons, List.flatMap_append]
    show (s.setElement n e).warnings
      ++ (s.setElements (n + (s.setElement n e).notes.length) rest).warnings = _
    rw [hfirst, ih, hruns, List.flatMap_append]

/-- The warnings about the content are about its emphasis. -/
theorem concerns_setBody (b : Body) : Concerns .emphasis (s.setBody b).warnings := by
  unfold setBody
  rw [warnings_setElements]
  apply Concerns.flatMap
  intro r
  cases r with
  | emphasise l => exact .warnIf rfl
  | bold l => exact .warnIf rfl
  | _ => exact .nil

end Setting

/-! ## The outcome -/

namespace Compiler

variable (spec : Specification)

theorem concerns_partFindings (sheet : Sheet) (parts : List Part) (m : Material) :
    Concerns .parts (partFindings spec sheet parts m) := by
  refine .append (.append ?_ (.flatMap fun _ => .warnIf rfl)) (.warnIf rfl)
  split_ifs
  · exact .flatMap fun _ => .warnIf rfl
  · exact .nil

theorem concerns_citationFindings (cited : List String) :
    Concerns .citations (citationFindings spec cited) :=
  .flatMap fun _ => .warnIf rfl

/-- A specification that is processed passed the gate. -/
theorem gate_of_ok {c : Compiler} {doc : Document} {warnings : List Warning}
    (h : c.process spec = (.ok doc, warnings)) : gate spec = .ok () := by
  unfold process at h
  cases hgate : gate spec with
  | error e =>
    rw [hgate] at h
    cases h
  | ok _ => rfl

/-- The outcome and the warnings of a specification that was prepared. -/
theorem process_of_prepare {c : Compiler} {p : Preparation} (hgate : gate spec = .ok ())
    (hprepare : c.prepare spec = .ok p) :
    c.process spec =
      match checkOrder (partsFor spec p) p.sheet (!(contentOf spec p).notes.isEmpty) with
      | .error e => (.error e, spec.findings ++ (contentOf spec p).warnings)
      | .ok () =>
        (.ok (assemble spec p (contentOf spec p) (partsFor spec p)),
          spec.findings ++ (contentOf spec p).warnings
            ++ partFindings spec p.sheet (partsFor spec p)
                (materialOf spec (contentOf spec p) p.works)
            ++ citationFindings spec (contentOf spec p).cited) := by
  unfold process
  rw [hgate, hprepare]
  rfl

variable {spec} {c : Compiler} {q : Warning → Bool}

/-- What is found about a publication is all that is raised about it. -/
theorem filter_process_publication (hgate : gate spec = .ok ()) (hq : PicksOnly .publication q) :
    (c.process spec).2.filter q = spec.findings.filter q := by
  cases hprepare : c.prepare spec with
  | error e =>
    unfold process
    rw [hgate, hprepare]
  | ok p =>
    have hcontent : (contentOf spec p).warnings.filter q = [] :=
      ((settingOf spec p).concerns_setBody spec.body).filter_eq_nil hq (by decide)
    rw [process_of_prepare spec hgate hprepare]
    split
    · rw [List.filter_append, hcontent, List.append_nil]
    · rw [List.filter_append, List.filter_append, List.filter_append, hcontent,
        (concerns_partFindings spec _ _ _).filter_eq_nil hq (by decide),
        (concerns_citationFindings spec _).filter_eq_nil hq (by decide), List.append_nil,
        List.append_nil, List.append_nil]

/-- The warnings about a document are those about the specification, the text, the parts and the
citations. -/
theorem warnings_of_ok {p : Preparation} {doc : Document} {warnings : List Warning}
    (h : c.process spec = (.ok doc, warnings)) (hprepare : c.prepare spec = .ok p) :
    warnings = spec.findings ++ (contentOf spec p).warnings
      ++ partFindings spec p.sheet (partsFor spec p) (materialOf spec (contentOf spec p) p.works)
      ++ citationFindings spec (contentOf spec p).cited := by
  rw [process_of_prepare spec (gate_of_ok spec h) hprepare] at h
  split at h
  · cases h
  · cases h
    rfl

/-- What is said about the runs of the text is all that is raised about emphasis. -/
theorem filter_process_emphasis {p : Preparation} {doc : Document} {warnings : List Warning}
    (h : c.process spec = (.ok doc, warnings)) (hprepare : c.prepare spec = .ok p)
    (hq : PicksOnly .emphasis q) :
    warnings.filter q = (contentOf spec p).warnings.filter q := by
  rw [warnings_of_ok h hprepare, List.filter_append, List.filter_append, List.filter_append,
    spec.filter_findings_emphasis hq,
    (concerns_partFindings spec _ _ _).filter_eq_nil hq (by decide),
    (concerns_citationFindings spec _).filter_eq_nil hq (by decide), List.append_nil,
    List.append_nil, List.nil_append]

/-- What is said about the sources behind the text is all that is raised about citations. -/
theorem filter_process_citations {p : Preparation} {doc : Document} {warnings : List Warning}
    (h : c.process spec = (.ok doc, warnings)) (hprepare : c.prepare spec = .ok p)
    (hq : PicksOnly .citations q) :
    warnings.filter q = (citationFindings spec (contentOf spec p).cited).filter q := by
  have hfindings : spec.findings.filter q = [] := by
    rw [Specification.filter_findings spec hq]
    rfl
  have hcontent : (contentOf spec p).warnings.filter q = [] :=
    ((settingOf spec p).concerns_setBody spec.body).filter_eq_nil hq (by decide)
  rw [warnings_of_ok h hprepare, List.filter_append, List.filter_append, List.filter_append,
    hfindings, hcontent,
    (concerns_partFindings spec _ _ _).filter_eq_nil hq (by decide), List.nil_append,
    List.nil_append, List.nil_append]

end Compiler

end Manuscript
