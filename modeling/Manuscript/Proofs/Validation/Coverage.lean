import Mathlib.Data.List.Forall2
import Mathlib.Tactic.SplitIfs
import Manuscript.Compilation.Compile

/-!
# Validation covers processing

Values of a specification are read twice: when it is checked, and when the style sheet, the works
and the metadata are made. What was read by the check can be read again, so that a specification
without faults can only fail because of a guide that nobody registered or because of the order of
its parts.

* `succeeds_applyStyle`, `succeeds_ofSource`: what the checks of a style section and of a source
  make sure of.
* `process_covered`: all that is left to fail.
-/

namespace Manuscript

/-- The computation gives a value. -/
def Succeeds {ε α : Type} (x : Except ε α) : Prop := ∃ a, x = .ok a

/-! ## Computations that may fail -/

section Except

variable {ε α β : Type}

theorem succeeds_pure (a : α) : Succeeds (pure a : Except ε α) := ⟨a, rfl⟩

theorem Succeeds.bind {x : Except ε α} {f : α → Except ε β} (hx : Succeeds x)
    (hf : ∀ a, x = .ok a → Succeeds (f a)) : Succeeds (x >>= f) := by
  obtain ⟨a, rfl⟩ := hx
  exact hf a rfl

theorem Succeeds.map {x : Except ε α} (hx : Succeeds x) (f : α → β) : Succeeds (x.map f) := by
  obtain ⟨a, rfl⟩ := hx
  exact ⟨f a, rfl⟩

theorem succeeds_of_map {x : Except ε α} {f : α → β} {b : β} (h : x.map f = .ok b) :
    Succeeds x := by
  cases x with
  | error e => cases h
  | ok a => exact ⟨a, rfl⟩

/-- What a computation gave behind another one that gave something first. -/
theorem of_bind_ok {x : Except ε α} {f : α → Except ε β} {b : β} (h : x >>= f = .ok b) :
    ∃ a, x = .ok a ∧ f a = .ok b := by
  cases x with
  | error e => cases h
  | ok a => exact ⟨a, rfl, h⟩

/-- Two checks in a row passed if both did. -/
theorem of_seq_ok {x : Except ε Unit} {y : Except ε β} {b : β}
    (h : (x >>= fun _ => y) = .ok b) : x = .ok () ∧ y = .ok b := by
  obtain ⟨_, hx, hy⟩ := of_bind_ok h
  exact ⟨hx, hy⟩

/-- What fails behind a computation that succeeds. -/
theorem of_bind_error {x : Except ε α} {f : α → Except ε β} {e : ε} (hx : Succeeds x)
    (h : x >>= f = .error e) : ∃ a, x = .ok a ∧ f a = .error e := by
  obtain ⟨a, rfl⟩ := hx
  exact ⟨a, rfl, h⟩

theorem succeeds_of_isOk {x : Except ε α} (h : x.isOk = true) : Succeeds x := by
  cases x with
  | error e => cases h
  | ok a => exact ⟨a, rfl⟩

/-- A check that gives a value passed. -/
theorem ok_of_isOk {x : Except ε Unit} (h : x.isOk = true) : x = .ok () := by
  cases x with
  | error e => cases h
  | ok _ => rfl

theorem of_forM_ok {f : α → Except ε Unit} {as : List α} (h : as.forM f = .ok ()) :
    ∀ a ∈ as, f a = .ok () := by
  induction as with
  | nil => simp
  | cons a as ih =>
    obtain ⟨ha, has⟩ := of_seq_ok (show (f a >>= fun _ => as.forM f) = .ok () from h)
    intro x hx
    rcases List.mem_cons.mp hx with rfl | hx
    · exact ha
    · exact ih has x hx

theorem succeeds_mapM {f : α → Except ε β} {as : List α} (h : ∀ a ∈ as, Succeeds (f a)) :
    Succeeds (as.mapM f) := by
  induction as with
  | nil => exact succeeds_pure []
  | cons a as ih =>
    rw [List.mapM_cons]
    refine (h a List.mem_cons_self).bind fun b _ => ?_
    exact (ih fun x hx => h x (List.mem_cons_of_mem a hx)).bind fun bs _ => succeeds_pure _

/-- A list of computations gives a list of values if each of them gives the value in its place. -/
theorem mapM_ok_iff {f : α → Except ε β} {as : List α} {bs : List β} :
    as.mapM f = .ok bs ↔ List.Forall₂ (fun a b => f a = .ok b) as bs := by
  constructor
  · intro h
    induction as generalizing bs with
    | nil =>
      cases h
      exact .nil
    | cons a as ih =>
      rw [List.mapM_cons] at h
      obtain ⟨b, hb, h⟩ := of_bind_ok h
      obtain ⟨bs', hbs, h⟩ := of_bind_ok h
      cases h
      exact .cons hb (ih hbs)
  · intro h
    induction h with
    | nil => rfl
    | cons hb _ ih =>
      rw [List.mapM_cons, hb, ih]
      rfl

end Except

/-! ## Fields -/

theorem of_checkField {α : Type} {f : Literal → Except Fault α} {field : Option Literal}
    (h : checkField f field = .ok ()) : ∀ l ∈ field, Succeeds (f l) := by
  rintro l rfl
  exact succeeds_of_map h

theorem of_checkBlock {α : Type} {check : α → Except Fault Unit} {block : Option α}
    (h : checkBlock check block = .ok ()) : ∀ b ∈ block, check b = .ok () := by
  rintro b rfl
  exact h

theorem succeeds_readField {α : Type} {f : Literal → Except Fault α} {field : Option Literal}
    (h : ∀ l ∈ field, Succeeds (f l)) : Succeeds (readField f field) := by
  cases field with
  | none => exact ⟨none, rfl⟩
  | some l => exact (h l rfl).map some

theorem succeeds_replacing {α : Type} {f : Literal → Except Fault α} {field : Option Literal}
    (current : α) (h : ∀ l ∈ field, Succeeds (f l)) :
    Succeeds (Sheet.replacing current f field) := by
  cases field with
  | none => exact ⟨current, rfl⟩
  | some l => exact h l rfl

/-! ## The style section -/

namespace Sheet

variable (sheet : Sheet)

theorem succeeds_applyFont {b : FontBlock} (h : b.check = .ok ()) :
    Succeeds (sheet.applyFont b) := by
  obtain ⟨-, h⟩ := of_seq_ok h
  obtain ⟨hsize, hcolour⟩ := of_seq_ok h
  unfold applyFont
  refine (succeeds_replacing _ fun l _ => ⟨l.trimmed, rfl⟩).bind fun _ _ => ?_
  refine (succeeds_replacing _ (of_checkField hsize)).bind fun _ _ => ?_
  exact (succeeds_replacing _ (of_checkField hcolour)).bind fun _ _ => succeeds_pure _

theorem succeeds_applyLayout {b : LayoutBlock} (h : b.check = .ok ()) :
    Succeeds (sheet.applyLayout b) := by
  obtain ⟨hwidth, h⟩ := of_seq_ok h
  obtain ⟨hheight, h⟩ := of_seq_ok h
  obtain ⟨hmargin, hspacing⟩ := of_seq_ok h
  unfold applyLayout
  refine (succeeds_readField (of_checkField hwidth)).bind fun _ _ => ?_
  refine (succeeds_readField (of_checkField hheight)).bind fun _ _ => ?_
  refine (succeeds_replacing _ (of_checkField hmargin)).bind fun _ _ => ?_
  exact (succeeds_replacing _ (of_checkField hspacing)).bind fun _ _ => succeeds_pure _

theorem succeeds_applyParagraph {b : ParagraphBlock} (h : b.check = .ok ()) :
    Succeeds (sheet.applyParagraph b) := by
  unfold applyParagraph
  exact (succeeds_replacing _ (of_checkField h)).bind fun _ _ => succeeds_pure _

theorem succeeds_applySentence {b : SentenceBlock} (h : b.check = .ok ()) :
    Succeeds (sheet.applySentence b) := by
  obtain ⟨hwhitespace, h⟩ := of_seq_ok h
  obtain ⟨hbold, hitalic⟩ := of_seq_ok h
  unfold applySentence
  refine (succeeds_replacing _ fun l _ => ⟨l.value, rfl⟩).bind fun _ _ => ?_
  refine (succeeds_replacing _ (of_checkField hwhitespace)).bind fun _ _ => ?_
  refine (succeeds_replacing _ (of_checkField hbold)).bind fun _ _ => ?_
  exact (succeeds_replacing _ (of_checkField hitalic)).bind fun _ _ => succeeds_pure _

theorem succeeds_applyNumeration {b : NumerationBlock} (h : b.check = .ok ()) :
    Succeeds (sheet.applyNumeration b) := by
  obtain ⟨htype, h⟩ := of_seq_ok h
  obtain ⟨hdisplay, h⟩ := of_seq_ok h
  obtain ⟨hmargin, hskip⟩ := of_seq_ok h
  have hpages : Succeeds (b.skip.mapM (Literal.parse PageSpan.reader)) :=
    succeeds_mapM fun l hl => succeeds_of_map (of_forM_ok hskip l hl)
  unfold applyNumeration
  refine (succeeds_replacing _ (of_checkField htype)).bind fun _ _ => ?_
  refine (succeeds_replacing _ (of_checkField hdisplay)).bind fun _ _ => ?_
  refine (succeeds_replacing _ (of_checkField hmargin)).bind fun _ _ => ?_
  exact hpages.bind fun _ _ => succeeds_pure _

theorem succeeds_applyParts {list : PartList} (h : list.check = .ok ()) :
    Succeeds (sheet.applyParts list) := by
  obtain ⟨parts, hparts, -⟩ := of_bind_ok h
  exact Succeeds.bind ⟨parts, hparts⟩ fun _ _ => succeeds_pure _

theorem succeeds_applyEndnotes {b : EndnotesBlock} (h : b.check = .ok ()) :
    Succeeds (sheet.applyEndnotes b) := by
  obtain ⟨hallow, hbefore⟩ := of_seq_ok h
  unfold applyEndnotes
  refine (succeeds_replacing _ (of_checkField hallow)).bind fun _ _ => ?_
  refine (succeeds_replacing _ fun l hl => ?_).bind fun _ _ => succeeds_pure _
  exact (of_checkField hbefore l hl).map _

theorem succeeds_applyBlock {α : Type} {apply : Sheet → α → Except Fault Sheet}
    {check : α → Except Fault Unit} {block : Option α} (hblock : checkBlock check block = .ok ())
    (h : ∀ sheet b, check b = .ok () → Succeeds (apply sheet b)) :
    Succeeds (applyBlock apply block sheet) := by
  cases block with
  | none => exact ⟨sheet, rfl⟩
  | some b => exact h sheet b hblock

/-- A style section that passed its check can be applied to any sheet. -/
theorem succeeds_applyStyle {style : StyleBlock} (h : style.check = .ok ()) :
    Succeeds (sheet.applyStyle style) := by
  obtain ⟨hfont, h⟩ := of_seq_ok h
  obtain ⟨hlayout, h⟩ := of_seq_ok h
  obtain ⟨hparagraph, h⟩ := of_seq_ok h
  obtain ⟨hsentence, h⟩ := of_seq_ok h
  obtain ⟨hnumeration, h⟩ := of_seq_ok h
  obtain ⟨hparts, h⟩ := of_seq_ok h
  obtain ⟨hendnotes, -⟩ := of_seq_ok h
  unfold applyStyle
  refine (succeeds_applyBlock sheet hfont fun s b => s.succeeds_applyFont).bind fun s _ => ?_
  refine (succeeds_applyBlock s hlayout fun s b => s.succeeds_applyLayout).bind fun s _ => ?_
  refine (succeeds_applyBlock s hparagraph fun s b => s.succeeds_applyParagraph).bind fun s _ => ?_
  refine (succeeds_applyBlock s hsentence fun s b => s.succeeds_applySentence).bind fun s _ => ?_
  refine (succeeds_applyBlock s hnumeration fun s b => s.succeeds_applyNumeration).bind
    fun s _ => ?_
  refine (succeeds_applyBlock s hparts fun s b => s.succeeds_applyParts).bind fun s _ => ?_
  exact succeeds_applyBlock s hendnotes fun s b => s.succeeds_applyEndnotes

end Sheet

/-! ## Works -/

theorem succeeds_required {s : Source} {field : Option Literal} {name : String}
    (h : s.require field name = .ok ()) : Succeeds (Work.required s field name) := by
  cases field with
  | none => cases h
  | some l => exact ⟨l.trimmed, rfl⟩

theorem succeeds_readDate {field : Option Literal}
    (h : checkField Literal.requireDate field = .ok ()) : Succeeds (Work.readDate field) := by
  cases field with
  | none => exact ⟨none, rfl⟩
  | some l =>
    obtain ⟨_, hl⟩ := of_checkField h l rfl
    obtain ⟨d, hd, -⟩ := of_bind_ok hl
    exact ⟨d, hd⟩

/-- A source that passed its check is a work, whatever its kind. -/
theorem succeeds_ofSource {s : Source} (h : s.check = .ok ()) : Succeeds (Work.ofSource s) := by
  obtain ⟨-, h⟩ := of_seq_ok h
  obtain ⟨-, h⟩ := of_seq_ok h
  obtain ⟨htitle, h⟩ := of_seq_ok h
  obtain ⟨hkind, h⟩ := of_seq_ok h
  obtain ⟨hvolume, h⟩ := of_seq_ok h
  obtain ⟨hissue, h⟩ := of_seq_ok h
  obtain ⟨hedition, h⟩ := of_seq_ok h
  obtain ⟨hpages, haccessed⟩ := of_seq_ok h
  unfold Work.ofSource
  refine (succeeds_required htitle).bind fun _ _ => ?_
  refine Succeeds.bind ?_ fun _ _ => succeeds_pure _
  -- what a kind requires is checked for that kind only; the other fields are checked for all kinds
  unfold Source.checkKind at hkind
  unfold Work.detailsOf
  cases hs : s.kind with
  | book =>
    rw [hs] at hkind
    refine (succeeds_required hkind).bind fun _ _ => ?_
    exact (succeeds_readField (of_checkField hedition)).bind fun _ _ => succeeds_pure _
  | music => exact succeeds_pure _
  | periodical =>
    rw [hs] at hkind
    refine (succeeds_required hkind).bind fun _ _ => ?_
    refine (succeeds_readField (of_checkField hvolume)).bind fun _ _ => ?_
    refine (succeeds_readField (of_checkField hissue)).bind fun _ _ => ?_
    refine (succeeds_readField (of_checkField hpages)).bind fun _ _ => ?_
    exact (succeeds_readDate haccessed).bind fun _ _ => succeeds_pure _
  | poem =>
    refine (succeeds_readField (of_checkField hedition)).bind fun _ _ => ?_
    exact (succeeds_readField (of_checkField hpages)).bind fun _ _ => succeeds_pure _
  | videogame =>
    rw [hs] at hkind
    exact (succeeds_required hkind).bind fun _ _ => succeeds_pure _
  | webpage => exact (succeeds_readDate haccessed).bind fun _ _ => succeeds_pure _

/-! ## The whole specification -/

/-- Every check of a specification passed. -/
structure Specification.Passed (spec : Specification) : Prop where
  version : checkContent spec.version "version" = .ok ()
  title : spec.title.check = .ok ()
  authors : spec.authors.checkAuthors = .ok ()
  assessors : spec.assessors.checkAssessors = .ok ()
  publication : checkBlock Publication.check spec.publication = .ok ()
  style : checkBlock StyleBlock.check spec.style = .ok ()
  body : spec.body.check = .ok ()
  bibliography : checkBlock Bibliography.check spec.bibliography = .ok ()
  venue : spec.checkVenue = .ok ()
  citations : spec.checkCitations = .ok ()

theorem passed_of_check {spec : Specification} (h : spec.check = .ok ()) : spec.Passed := by
  obtain ⟨hversion, h⟩ := of_seq_ok h
  obtain ⟨htitle, h⟩ := of_seq_ok h
  obtain ⟨hauthors, h⟩ := of_seq_ok h
  obtain ⟨hassessors, h⟩ := of_seq_ok h
  obtain ⟨hpublication, h⟩ := of_seq_ok h
  obtain ⟨hstyle, h⟩ := of_seq_ok h
  obtain ⟨hbody, h⟩ := of_seq_ok h
  obtain ⟨hbibliography, h⟩ := of_seq_ok h
  obtain ⟨hvenue, hcitations⟩ := of_seq_ok h
  exact ⟨hversion, htitle, hauthors, hassessors, hpublication, hstyle, hbody, hbibliography,
    hvenue, hcitations⟩

/-- Everything that processing a specification reads from its literals can be read. -/
structure Readable (c : Compiler) (spec : Specification) : Prop where
  documentType : Succeeds spec.readDocumentType
  style : ∀ style ∈ spec.style, ∀ sheet : Sheet, Succeeds (sheet.applyStyle style)
  works : Succeeds (Compiler.worksOf spec)
  date : Succeeds (c.dateOf spec)

/-- A specification that passed its check is readable. -/
theorem readable_of_check (c : Compiler) {spec : Specification} (h : spec.check = .ok ()) :
    Readable c spec := by
  have hpassed := passed_of_check h
  constructor
  · obtain ⟨type, htype, -⟩ := of_bind_ok hpassed.venue
    exact ⟨type, htype⟩
  · exact fun style hs sheet => sheet.succeeds_applyStyle (of_checkBlock hpassed.style style hs)
  · refine succeeds_mapM fun s hs => succeeds_ofSource ?_
    cases hb : spec.bibliography with
    | none =>
      rw [hb] at hs
      cases hs
    | some b =>
      rw [hb] at hs
      exact of_forM_ok (of_seq_ok (of_checkBlock hpassed.bibliography b hb)).1 s hs
  · unfold Compiler.dateOf
    cases hp : spec.publication with
    | none => exact ⟨some c.today, rfl⟩
    | some p =>
      obtain ⟨-, hcheck⟩ := of_seq_ok (of_checkBlock hpassed.publication p hp)
      obtain ⟨hdate, -⟩ := of_seq_ok hcheck
      cases hd : p.date with
      | none => exact ⟨some c.today, by simp [hd]⟩
      | some l =>
        obtain ⟨d, hl⟩ := of_checkField hdate l hd
        exact ⟨d, by simp [hd, hl]⟩

/-! ## What is left to fail -/

/-- The guides that a document needs, by name: its own or the default, and that of its citations. -/
def Compiler.guideNames (c : Compiler) (spec : Specification) :
    List (String × Option Position) :=
  (spec.style.bind (·.base)).elim (c.defaultStyle, none) (fun l => (l.value, some l.position))
    :: ((spec.style.bind (·.citation)).map fun l => (l.value, some l.position)).toList

/-- Parts are in the wrong order, or there are endnotes that the sheet forbids. -/
def Failure.IsOrder (sheet : Sheet) : Failure → Prop
  | .partOrder _ _ => True
  | .invalid fault =>
    sheet.endnotes = .no
      ∧ (fault = ⟨.endnotesSectionForbidden, none⟩ ∨ fault = ⟨.notesForbidden, none⟩)
  | _ => False

/-- The failures of a specification without faults. -/
inductive Compiler.Remaining (c : Compiler) (spec : Specification) : Failure → Prop where
  /-- A guide that the document needs is not registered. -/
  | unknownGuide {name : String} {p : Option Position} (hname : (name, p) ∈ c.guideNames spec)
      (hfind : c.guides.find? name = none) : Remaining c spec (.unknownGuide name c.guides.names p)
  /-- The parts of the document are not in order. -/
  | order {p : Preparation} {m : Material} {e : Failure} (hprepare : c.prepare spec = .ok p)
      (hmaterial : m = materialOf spec (contentOf spec p) p.works)
      (hcheck : checkOrder (p.sheet.partsOf m) p.sheet m.hasNotes = .error e)
      (hkind : e.IsOrder p.sheet) : Remaining c spec e

theorem resolve_cases (t : GuideTable) (name : String) (p : Option Position) :
    Succeeds (t.resolve name p)
      ∨ t.find? name = none ∧ t.resolve name p = .error (.unknownGuide name t.names p) := by
  unfold GuideTable.resolve
  cases t.find? name with
  | none => exact .inr ⟨rfl, rfl⟩
  | some g => exact .inl ⟨g, rfl⟩

/-- A required part behind the endnotes is a failure of the order. -/
theorem isOrder_of_checkRequired {parts required : List Part} {e : Failure} (sheet : Sheet)
    (h : checkRequired parts required = .error e) : e.IsOrder sheet := by
  induction required with
  | nil => cases h
  | cons part rest ih =>
    unfold checkRequired at h
    split_ifs at h
    · cases h
      trivial
    · exact ih h

/-- The order of the parts fails for no other reason than the order and forbidden endnotes. -/
theorem isOrder_of_checkOrder {parts : List Part} {sheet : Sheet} {hasNotes : Bool} {e : Failure}
    (h : checkOrder parts sheet hasNotes = .error e) : e.IsOrder sheet := by
  unfold checkOrder at h
  split_ifs at h with hparts hno hnotes hno hnotes
  · obtain rfl := Except.error.inj h
    exact ⟨hno, .inl rfl⟩
  · obtain rfl := Except.error.inj h
    exact ⟨hno, .inl rfl⟩
  · -- endnotes are allowed: the parts that they need, and then their place
    cases hr : checkRequired parts sheet.guide.rules.beforeEndnotes with
    | error e' =>
      rw [hr] at h
      obtain rfl : e' = e := Except.error.inj h
      exact isOrder_of_checkRequired sheet hr
    | ok _ =>
      obtain ⟨_, -, h⟩ := of_bind_error ⟨_, hr⟩ h
      split at h
      · split_ifs at h
        · obtain rfl := Except.error.inj h
          trivial
        · cases h
      · cases h
  · obtain rfl := Except.error.inj h
    exact ⟨hno, .inr rfl⟩
  · cases h
  · cases h

/-- A guide is found, or it is one of those that the document needs and that are not registered. -/
theorem of_resolveName {c : Compiler} {spec : Specification} {otherwise : Except Failure Guide}
    {name : Option Literal} {e : Failure}
    (hname : ∀ l ∈ name, (l.value, some l.position) ∈ c.guideNames spec)
    (hother : name = none → otherwise = .error e → c.Remaining spec e)
    (h : Sheet.resolveName c.guides otherwise name = .error e) : c.Remaining spec e := by
  cases name with
  | none => exact hother rfl h
  | some l =>
    rcases resolve_cases c.guides l.value (some l.position) with ⟨g, hg⟩ | ⟨hfind, hg⟩
    · cases hg.symm.trans h
    · cases hg.symm.trans h
      exact .unknownGuide (hname l rfl) hfind

theorem of_orInvalid {α : Type} {x : Except Fault α} (hx : Succeeds x) :
    Succeeds (Sheet.orInvalid x) := by
  obtain ⟨a, rfl⟩ := hx
  exact ⟨a, rfl⟩

/-- The style sheet of a readable specification fails only for want of a guide. -/
theorem remaining_of_resolve {c : Compiler} {spec : Specification} (h : Readable c spec)
    {type : Option DocumentType} {e : Failure}
    (he : Sheet.resolve spec.style c.defaultStyle type c.guides = .error e) :
    c.Remaining spec e := by
  unfold Sheet.resolve at he
  cases hbase : Sheet.resolveName c.guides (c.guides.resolve c.defaultStyle none)
      (spec.style.bind (·.base)) with
  | error e' =>
    rw [hbase] at he
    obtain rfl : e' = e := Except.error.inj he
    refine of_resolveName (fun l hl => ?_) (fun hnone hdefault => ?_) hbase
    · rw [Option.mem_def] at hl
      simp [Compiler.guideNames, hl]
    · rcases resolve_cases c.guides c.defaultStyle none with ⟨g, hg⟩ | ⟨hfind, hg⟩
      · cases hg.symm.trans hdefault
      · cases hg.symm.trans hdefault
        exact .unknownGuide (by simp [Compiler.guideNames, hnone]) hfind
  | ok guide =>
    obtain ⟨guide, -, he⟩ := of_bind_error ⟨guide, hbase⟩ he
    cases hs : spec.style with
    | none =>
      rw [hs] at he
      cases he
    | some style =>
      rw [hs] at he
      change (Sheet.resolveName c.guides (.ok guide) style.citation >>= _) = .error e at he
      cases hcite : Sheet.resolveName c.guides (.ok guide) style.citation with
      | error e' =>
        rw [hcite] at he
        obtain rfl : e' = e := Except.error.inj he
        refine of_resolveName (fun l hl => ?_) (fun _ hok => ?_) hcite
        · rw [Option.mem_def] at hl
          simp [Compiler.guideNames, hs, hl]
        · cases hok
      | ok citation =>
        obtain ⟨citation, -, he⟩ := of_bind_error ⟨citation, hcite⟩ he
        obtain ⟨_, hsheet⟩ := of_orInvalid (h.style style hs _)
        cases hsheet.symm.trans he

/-- Nothing but an unknown guide fails when a readable specification is prepared. -/
theorem remaining_of_prepare {c : Compiler} {spec : Specification} (h : Readable c spec)
    {e : Failure} (he : c.prepare spec = .error e) : c.Remaining spec e := by
  unfold Compiler.prepare at he
  obtain ⟨type, -, he⟩ := of_bind_error (of_orInvalid h.documentType) he
  cases hr : Sheet.resolve spec.style c.defaultStyle type c.guides with
  | error e' =>
    rw [hr] at he
    obtain rfl : e' = e := Except.error.inj he
    exact remaining_of_resolve h hr
  | ok sheet =>
    obtain ⟨_, -, he⟩ := of_bind_error ⟨sheet, hr⟩ he
    obtain ⟨works, -, he⟩ := of_bind_error (of_orInvalid h.works) he
    obtain ⟨date, -, he⟩ := of_bind_error (of_orInvalid h.date) he
    cases he

/-! ## The outcome -/

/-- Validation covers processing: of a specification whose version is supported and which has no
faults, everything can be read, and it is processed, unless a guide is unknown or the parts are not
in order. -/
theorem process_covered (c : Compiler) {spec : Specification}
    (hversion : ∀ l ∈ spec.version, l.trimmed ∈ supportedVersions) (hcheck : spec.check = .ok ()) :
    Readable c spec
      ∧ (Succeeds (c.process spec).1
        ∨ ∃ e, (c.process spec).1 = .error e ∧ c.Remaining spec e) := by
  have hread := readable_of_check c hcheck
  refine ⟨hread, ?_⟩
  -- the gate asks for the version and for the check, and for nothing else
  have hgate : Compiler.gate spec = .ok () := by
    unfold Compiler.gate
    cases hv : spec.version with
    | none =>
      rw [hcheck]
      rfl
    | some l =>
      have hl : supportedVersions.contains l.trimmed = true := by simpa using hversion l hv
      have hok : checkVersion l.value (some l.position) = .ok () := if_pos hl
      dsimp only
      rw [hok, hcheck]
      rfl
  unfold Compiler.process
  rw [hgate]
  dsimp only
  cases hp : c.prepare spec with
  | error e => exact .inr ⟨e, rfl, remaining_of_prepare hread hp⟩
  | ok p =>
    dsimp only
    split
    · rename_i e he
      exact .inr ⟨e, rfl, .order hp rfl he (isOrder_of_checkOrder he)⟩
    · exact .inl ⟨_, rfl⟩

/-- A specification that cites a periodical, with a style of its own and a date of publication. -/
def citingPeriodical : Specification :=
  let text (line column : Nat) (value : String) : Option Literal := some ⟨value, ⟨line, column⟩⟩
  { version := text 1 9 " 1.0 "
    title := ⟨[.plain ⟨"On Ravens", ⟨2, 7⟩⟩], some ⟨2, 1⟩⟩
    authors := ⟨[.named ⟨"Jane Doe", ⟨3, 8⟩⟩], some ⟨3, 1⟩⟩
    publication := some { date := text 5 10 "03/06/2023", position := ⟨4, 1⟩ }
    style := some
      { base := text 7 8 "MLA9", position := ⟨6, 1⟩
        font := some { size := text 9 14 "12", position := ⟨8, 5⟩ } }
    body := ⟨[.content ⟨.paragraph, [⟨[.citation ⟨"r", ⟨11, 14⟩⟩ none], ⟨11, 5⟩⟩], ⟨10, 1⟩⟩]⟩
    bibliography := some
      ⟨[{ kind := .periodical, position := ⟨13, 5⟩
          id := text 14 12 "r", title := text 15 15 "Ravens"
          journal := text 16 17 "Birds", volume := text 17 16 "3", pages := text 18 15 "12-18"
          accessed := text 19 18 "01/02/2023" }], some ⟨12, 1⟩⟩ }

/-- The periodical passes the check, so that its specification is processed or fails for a reason
that is left. -/
theorem process_covered_periodical : citingPeriodical.check = .ok ()
    ∧ Readable { today := ⟨2024, 1, 1⟩ } citingPeriodical
    ∧ (Succeeds (Compiler.process { today := ⟨2024, 1, 1⟩ } citingPeriodical).1
      ∨ ∃ e, (Compiler.process { today := ⟨2024, 1, 1⟩ } citingPeriodical).1 = .error e
        ∧ Compiler.Remaining { today := ⟨2024, 1, 1⟩ } citingPeriodical e) := by
  have hversion : ∀ l ∈ citingPeriodical.version, l.trimmed ∈ supportedVersions := by
    decide +kernel
  have hcheck : citingPeriodical.check = .ok () := by
    have hok : citingPeriodical.check.isOk = true := by decide +kernel
    cases h : citingPeriodical.check with
    | error e =>
      rw [h] at hok
      cases hok
    | ok _ => rfl
  exact ⟨hcheck, process_covered _ hversion hcheck⟩

end Manuscript
