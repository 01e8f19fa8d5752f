import Manuscript.Proofs.Compilation.Raised

/-!
# What depends on today's date

A compilation is given today's date for documents that declare no date of publication. A declared
date, even the declaration that there is none, keeps today's date out of everything. Without one,
today's date stands in for it, a warning says so, and apart from the texts that show a date nothing
in the document and no warning depends on the day.

* `prepare_undated`: what is prepared on another day has another date, and is the same otherwise.
* `alike_setElements`: other header lines change the blocks of the body and nothing else.
* `process_today`: two compilations of one specification on two days.
-/

namespace Manuscript

/-! ## Content with other header lines -/

/-- Two contents that are the same apart from the blocks of the body. -/
structure SetContent.Alike (c d : SetContent) : Prop where
  placed : d.placed = c.placed
  notes : d.notes = c.notes
  chapters : d.chapters = c.chapters
  cited : d.cited = c.cited
  warnings : d.warnings = c.warnings

theorem SetContent.Alike.append {c d e f : SetContent} (h : c.Alike d) (h' : e.Alike f) :
    (c.append e).Alike (d.append f) := by
  unfold SetContent.append
  constructor
  · rw [h.placed, h'.placed]
  · rw [h.notes, h'.notes]
  · rw [h.chapters, h'.chapters]
  · rw [h.cited, h'.cited]
  · rw [h.warnings, h'.warnings]

namespace Setting

variable (s : Setting) (lines : List String)

/-- Only the header elements show the header lines, and they go into the body. -/
theorem alike_setElement (n : Nat) (e : Element) :
    (s.setElement n e).Alike (setElement { s with headerLines := lines } n e) := by
  cases e with
  | content b =>
    have hagrees : s.Agrees { s with headerLines := lines } := ⟨rfl, fun _ => rfl⟩
    have hblock := hagrees.setBlock_eq n b
    show (s.setBlock n b).Alike (setBlock { s with headerLines := lines } n b)
    rw [hblock]
    exact ⟨rfl, rfl, rfl, rfl, rfl⟩
  | _ => exact ⟨rfl, rfl, rfl, rfl, rfl⟩

theorem alike_setElements (n : Nat) (es : List Element) :
    (s.setElements n es).Alike (setElements { s with headerLines := lines } n es) := by
  induction es generalizing n with
  | nil => exact ⟨rfl, rfl, rfl, rfl, rfl⟩
  | cons e rest ih =>
    have hfirst := s.alike_setElement lines n e
    unfold setElements
    dsimp only
    rw [hfirst.notes]
    exact hfirst.append (ih _)

end Setting

/-! ## Two days -/

namespace Compiler

variable {c : Compiler} {spec : Specification} {p : Preparation} {t : Date}

/-- What was prepared, with another date of the document. -/
def Preparation.dated (p : Preparation) (d : Date) : Preparation :=
  { p with metadata := { p.metadata with date := some (p.sheet.guide.date d) } }

/-- A declared date is the date of the document on every day. -/
theorem prepare_dated {l : Literal} (h : spec.publication.bind (·.date) = some l) :
    prepare { c with today := t } spec = c.prepare spec := by
  have hdate : dateOf { c with today := t } spec = c.dateOf spec := by
    unfold dateOf
    rw [h]
  unfold prepare
  rw [hdate]

/-- Without a declared date, what is prepared on another day has its date. -/
theorem prepare_undated (h : spec.publication.bind (·.date) = none) :
    prepare { c with today := t } spec = (fun p => p.dated t) <$> c.prepare spec := by
  have hdate (c : Compiler) : c.dateOf spec = .ok (some c.today) := by
    unfold dateOf
    rw [h]
  unfold prepare
  simp only [hdate, map_bind, map_pure]
  rfl

/-- Content set on another day has other header lines, and is the same otherwise. -/
theorem alike_contentOf (spec : Specification) (p : Preparation) (t : Date) :
    (contentOf spec p).Alike (contentOf spec (p.dated t)) :=
  (settingOf spec p).alike_setElements (headerLines spec (p.dated t).metadata) 0 spec.body.elements

/-- On every day there is material for the same. -/
theorem materialOf_dated (spec : Specification) (p : Preparation) (t : Date) :
    materialOf spec (contentOf spec (p.dated t)) p.works
      = materialOf spec (contentOf spec p) p.works := by
  unfold materialOf
  rw [(alike_contentOf spec p t).notes]

theorem partsFor_dated (spec : Specification) (p : Preparation) (t : Date) :
    partsFor spec (p.dated t) = partsFor spec p := by
  show p.sheet.partsOf (materialOf spec (contentOf spec (p.dated t)) p.works) = _
  rw [materialOf_dated]
  rfl

/-- The guide that a document is based on: the declared one or the default. -/
def baseGuide (c : Compiler) (spec : Specification) : Except Failure Guide :=
  Sheet.resolveName c.guides (c.guides.resolve c.defaultStyle none) (spec.style.bind (·.base))

end Compiler

/-- What two documents have in common that differ in the texts that show a date. -/
structure Document.SameApartFromDate (d e : Document) : Prop where
  compilerVersion : e.compilerVersion = d.compilerVersion
  style : e.style = d.style
  documentType : e.documentType = d.documentType
  title : e.metadata.title = d.metadata.title
  authors : e.metadata.authors = d.metadata.authors
  assessors : e.metadata.assessors = d.metadata.assessors
  page : e.page = d.page
  font : e.font = d.font
  numeration : e.numeration = d.numeration
  outline : e.outline = d.outline

namespace Compiler

variable {c : Compiler} {spec : Specification} {p : Preparation} {t : Date}

/-- The outcomes of one specification on two days: the same failure, or two documents that show the
day as the base guide writes dates, and have all else in common. -/
inductive OnBothDays (c : Compiler) (t : Date) (spec : Specification) :
    Except Failure Document → Except Failure Document → Prop where
  | failed (e : Failure) : OnBothDays c t spec (.error e) (.error e)
  | dated {guide : Guide} {doc other : Document} (hguide : c.baseGuide spec = .ok guide)
      (hdate : doc.metadata.date = some (guide.date c.today))
      (hother : other.metadata.date = some (guide.date t)) (hsame : doc.SameApartFromDate other) :
      OnBothDays c t spec (.ok doc) (.ok other)

/-- A style sheet is based on the base guide. -/
theorem baseGuide_of_prepare (h : c.prepare spec = .ok p) :
    c.baseGuide spec = .ok p.sheet.guide := by
  obtain ⟨type, -, hresolve⟩ := of_bind_ok (sheetOf_of_prepare h)
  exact (Sheet.frame_of_resolve hresolve).1

/-- Without a declared date, what is prepared has today's date. -/
theorem date_of_prepare (hundated : spec.publication.bind (·.date) = none)
    (h : c.prepare spec = .ok p) :
    p.metadata.date = some (p.sheet.guide.date c.today) := by
  have htoday : c.prepare spec = (fun p => p.dated c.today) <$> c.prepare spec :=
    prepare_undated hundated
  rw [h] at htoday
  have hp : p = p.dated c.today := Except.ok.inj htoday
  rw [hp]
  rfl

/-- The outcomes and the warnings on two days, of a specification that was prepared. -/
theorem process_dated (hgate : gate spec = .ok ())
    (hundated : spec.publication.bind (·.date) = none) (h : c.prepare spec = .ok p) :
    (process { c with today := t } spec).2 = (c.process spec).2
      ∧ OnBothDays c t spec (c.process spec).1 (process { c with today := t } spec).1 := by
  have hother : prepare { c with today := t } spec = .ok (p.dated t) := by
    rw [prepare_undated hundated, h]
    rfl
  have hcontent := alike_contentOf spec p t
  have hmaterial := materialOf_dated spec p t
  have hparts := partsFor_dated spec p t
  have hsheet : (p.dated t).sheet = p.sheet := rfl
  have hworks : (p.dated t).works = p.works := rfl
  rw [process_of_prepare spec hgate h, process_of_prepare spec hgate hother, hcontent.notes,
    hcontent.warnings, hcontent.cited, hparts, hsheet, hworks, hmaterial]
  cases checkOrder (partsFor spec p) p.sheet (!(contentOf spec p).notes.isEmpty) with
  | error e => exact ⟨rfl, .failed e⟩
  | ok _ =>
    refine ⟨rfl, .dated (baseGuide_of_prepare h) (date_of_prepare hundated h) rfl ?_⟩
    refine ⟨rfl, rfl, rfl, rfl, rfl, rfl, rfl, rfl, rfl, ?_⟩
    rw [outline_assemble, outline_assemble]

/-- Today's date goes into documents without a declared date only, and never silently. A declared
date, even the declaration that there is none, makes a compilation the same on every day. Without
one, a specification that passes the gate is warned about exactly once, today's date is the date of
its document, and the warnings, the rest of the metadata, the page, the font, the page numbers and
the outline do not depend on the day. -/
theorem process_today (c : Compiler) (t : Date) (spec : Specification) :
    (∀ l, spec.publication.bind (·.date) = some l →
      process { c with today := t } spec = c.process spec)
    ∧ (gate spec = .ok () → spec.publication.bind (·.date) = none →
      (c.process spec).2.filter Warning.saysNoDate
          = [⟨.noDate, spec.publication.map (·.position)⟩]
        ∧ (process { c with today := t } spec).2 = (c.process spec).2
        ∧ OnBothDays c t spec (c.process spec).1 (process { c with today := t } spec).1) := by
  constructor
  · intro l hl
    unfold process
    rw [prepare_dated hl]
  · intro hgate hundated
    constructor
    · rw [filter_process_publication hgate picks_noDate, spec.filter_findings_noDate, hundated]
      rfl
    · cases hprepare : c.prepare spec with
      | error e =>
        have hother : prepare { c with today := t } spec = .error e := by
          rw [prepare_undated hundated, hprepare]
          rfl
        unfold process
        rw [hgate, hprepare, hother]
        exact ⟨rfl, .failed e⟩
      | ok p => exact process_dated hgate hundated hprepare

/-- The annotated essay declares no date, the one that cites a periodical does. -/
theorem process_today_essays :
    let c : Compiler := { today := ⟨2024, 1, 1⟩ }
    (gate annotatedEssay = .ok () ∧ annotatedEssay.publication.bind (·.date) = none
      ∧ (c.process annotatedEssay).2.filter Warning.saysNoDate = [⟨.noDate, none⟩]
      ∧ (process { c with today := ⟨2025, 2, 28⟩ } annotatedEssay).2
          = (c.process annotatedEssay).2
      ∧ OnBothDays c ⟨2025, 2, 28⟩ annotatedEssay (c.process annotatedEssay).1
          (process { c with today := ⟨2025, 2, 28⟩ } annotatedEssay).1)
    ∧ citingPeriodical.publication.bind (·.date) = some ⟨"03/06/2023", ⟨5, 10⟩⟩
      ∧ process { c with today := ⟨2025, 2, 28⟩ } citingPeriodical
          = c.process citingPeriodical := by
  have hgate : gate annotatedEssay = .ok () := ok_of_isOk (by decide +kernel)
  exact ⟨⟨hgate, rfl, (process_today _ _ _).2 hgate rfl⟩, rfl, (process_today _ _ _).1 _ rfl⟩

end Compiler

end Manuscript
