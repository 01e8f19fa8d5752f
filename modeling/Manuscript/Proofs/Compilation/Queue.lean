import Mathlib.Data.List.Basic
import Manuscript.Proofs.Compilation.Setting

/-!
# The queue is only added to

A compilation is handed a queue of warnings. It never looks at what is in there: what it gives, and
what it adds to the end of the queue, are the same for every queue, when it fails as well as when it
gives a document.

* `Raises`: what a computation gives and which warnings it adds, for every queue.
* `raises_layBody`: setting content adds the warnings of its pieces, run by run.
* `processOnto_eq`: the queue behind a compilation is the one before and what was raised.
-/

namespace Manuscript

open Raising

/-! ## Computations that add to a queue -/

/-- Whatever is in the queue, the computation gives a value and adds warnings to the end. -/
def Raises {α : Type} (p : Raising α) (a : α) (ws : List Warning) : Prop :=
  ∀ queue, p.run queue = (a, queue ++ ws)

namespace Raises

variable {α β : Type}

theorem pure (a : α) : Raises (Pure.pure a) a [] := by
  intro queue
  rw [List.append_nil]
  rfl

/-- What two computations in a row add stands in their order. -/
theorem bind {p : Raising α} {f : α → Raising β} {a : α} {b : β} {ws vs : List Warning}
    (hp : Raises p a ws) (hf : Raises (f a) b vs) : Raises (p >>= f) b (ws ++ vs) := by
  intro queue
  have hfirst : p queue = (a, queue ++ ws) := hp queue
  have hsecond : f a (queue ++ ws) = (b, queue ++ (ws ++ vs)) := by
    rw [← List.append_assoc]
    exact hf (queue ++ ws)
  show (match p queue with | (a, queue) => f a queue) = _
  rw [hfirst]
  exact hsecond

theorem push (w : Warning) : Raises (Raising.push w) () [w] := fun _ => rfl

/-- A computation for each item adds what the items raise. -/
theorem forM {ι : Type} {f : ι → Raising Unit} {raised : ι → List Warning}
    (h : ∀ i, Raises (f i) () (raised i)) (items : List ι) :
    Raises (items.forM f) () (items.flatMap raised) := by
  induction items with
  | nil => exact .pure ()
  | cons i items ih => exact (h i).bind ih

theorem pushAll (ws : List Warning) : Raises (Raising.pushAll ws) () ws := by
  have hall := forM (fun w => Raises.push w) ws
  rwa [List.flatMap_singleton'] at hall

theorem pushIf (b : Bool) (w : Warning) : Raises (Raising.pushIf b w) () (warnIf b w) := by
  unfold warnIf Raising.pushIf
  cases b with
  | true => exact .push w
  | false => exact .pure ()

end Raises

/-- The findings about a specification are raised in their order. -/
theorem raises_raiseFindings (spec : Specification) :
    Raises spec.raiseFindings () spec.findings := by
  have himages : Raises (spec.body.images.forM fun i => pushAll i.findings) ()
      spec.body.findings := .forM (fun i : Image => .pushAll i.findings) _
  have hsources : Raises
      ((spec.bibliography.elim [] Bibliography.sources).forM fun s => pushAll s.findings) ()
      (spec.bibliography.elim [] fun b => b.sources.flatMap Source.findings) := by
    cases spec.bibliography with
    | none => exact .pure ()
    | some b => exact .forM (fun s => .pushAll s.findings) b.sources
  have hedition : Raises
      ((spec.publication.bind (·.edition)).toList.forM fun l =>
        pushIf spec.isPaper (.found .paperEdition l.position)) ()
      ((spec.publication.bind (·.edition)).toList.flatMap fun l =>
        warnIf spec.isPaper (.found .paperEdition l.position)) :=
    .forM (fun l : Literal => .pushIf spec.isPaper (.found .paperEdition l.position)) _
  unfold Specification.findings
  simp only [List.append_assoc]
  exact (Raises.pushAll spec.title.findings).bind <|
    (Raises.pushAll (repeatedAuthors [] spec.authors.members)).bind <|
    (Raises.pushAll spec.assessors.roleFindings).bind <|
    (Raises.pushAll (spec.publication.elim [] Publication.findings)).bind <|
    (Raises.pushAll (spec.style.elim [] StyleBlock.findings)).bind <|
    himages.bind <| hsources.bind <| hedition.bind <|
    (Raises.pushIf spec.publication.isNone ⟨.noDate, none⟩).bind <|
    Raises.pushIf spec.body.blocks.isEmpty ⟨.noContent, none⟩

/-! ## Setting the content -/

/-- What a piece adds to the content that was set before; its warnings go into the queue. -/
def SetContent.with (c : SetContent) (set : SetRuns) : SetContent :=
  { c with notes := c.notes ++ set.notes, cited := c.cited ++ set.cited }

/-- Content without the warnings about it. -/
def SetContent.quiet (c : SetContent) : SetContent := { c with warnings := [] }

theorem SetContent.with_with (c : SetContent) (a b : SetRuns) :
    (c.with a).with b = c.with (a.append b) := by
  simp [SetContent.with, SetRuns.append]

theorem SetContent.notes_with (c : SetContent) (a : SetRuns) :
    (c.with a).notes.length = c.notes.length + a.notes.length := List.length_append

theorem SetContent.append_quiet_append (c a b : SetContent) :
    (c.append a.quiet).append b.quiet = c.append (a.append b).quiet := by
  simp [SetContent.append, SetContent.quiet]

theorem SetContent.notes_append_quiet (c a : SetContent) :
    (c.append a.quiet).notes.length = c.notes.length + a.notes.length := List.length_append

/-- Behind content that was set, a computation gives a value and other content, and raises warnings
whatever is in the queue. -/
def Typesets {α : Type} (p : Typesetting α) (c : SetContent) (a : α) (c' : SetContent)
    (ws : List Warning) : Prop := Raises (p.run c) (a, c') ws

namespace Typesets

variable {α β : Type} {c c' c'' : SetContent}

theorem pure (a : α) (c : SetContent) : Typesets (Pure.pure a) c a c [] := Raises.pure (a, c)

theorem bind {p : Typesetting α} {f : α → Typesetting β} {a : α} {b : β} {ws vs : List Warning}
    (hp : Typesets p c a c' ws) (hf : Typesets (f a) c' b c'' vs) :
    Typesets (p >>= f) c b c'' (ws ++ vs) := by
  unfold Typesets at *
  rw [StateT.run_bind]
  exact hp.bind hf

/-- The last of some computations raises nothing. -/
theorem andThen {p : Typesetting α} {f : α → Typesetting β} {a : α} {b : β} {ws : List Warning}
    (hp : Typesets p c a c' ws) (hf : Typesets (f a) c' b c'' []) :
    Typesets (p >>= f) c b c'' ws := by
  rw [← List.append_nil ws]
  exact hp.bind hf

/-- A change of what was set raises nothing. -/
theorem change (f : SetContent → SetContent) (c : SetContent) :
    Typesets (modify f) c () (f c) [] := Raises.pure ((), f c)

/-- Raising warnings leaves what was set as it is. -/
theorem lift {p : Raising α} {a : α} {ws : List Warning} (h : Raises p a ws) (c : SetContent) :
    Typesets (liftM p) c a c ws := by
  have hpair : Raises (p >>= fun a => Pure.pure (a, c)) (a, c) (ws ++ []) := h.bind (.pure _)
  rw [List.append_nil] at hpair
  exact hpair

end Typesets

namespace Setting

variable (s : Setting)

theorem typesets_layRun (r : Run) (c : SetContent) :
    Typesets (s.layRun r) c (s.setRun c.notes.length r).spans (c.with (s.setRun c.notes.length r))
      (s.setRun c.notes.length r).warnings := by
  have hpush : Typesets (pushAll (s.setRun c.notes.length r).warnings) c () c
      (s.setRun c.notes.length r).warnings := .lift (.pushAll _) c
  have hget : Typesets (get : Typesetting SetContent) c c c [] := Raises.pure (c, c)
  exact hget.bind (hpush.andThen ((Typesets.change _ c).andThen (.pure _ _)))

/-- The runs of a sentence are set behind each other. -/
theorem typesets_layRuns (rs : List Run) (c : SetContent) : ∃ spans,
    Typesets (rs.mapM s.layRun) c spans (c.with (s.setRuns c.notes.length rs))
      (s.setRuns c.notes.length rs).warnings
    ∧ spans.flatten = (s.setRuns c.notes.length rs).spans := by
  induction rs generalizing c with
  | nil =>
    refine ⟨[], ?_, rfl⟩
    have hsame : c.with (s.setRuns c.notes.length []) = c := by
      simp [SetContent.with, setRuns]
    rw [hsame]
    exact .pure [] c
  | cons r rs ih =>
    have hrun := s.typesets_layRun r c
    obtain ⟨spans, hrest, hspans⟩ := ih (c.with (s.setRun c.notes.length r))
    rw [SetContent.notes_with] at hrest hspans
    rw [SetContent.with_with] at hrest
    refine ⟨(s.setRun c.notes.length r).spans :: spans, ?_, ?_⟩
    · rw [List.mapM_cons]
      exact hrun.bind (hrest.andThen (.pure _ _))
    · rw [List.flatten_cons, hspans]
      rfl

theorem typesets_laySentence (sentence : Sentence) (c : SetContent) :
    Typesets (s.laySentence sentence) c (s.setRuns c.notes.length sentence.runs).spans
      (c.with (s.setRuns c.notes.length sentence.runs))
      (s.setRuns c.notes.length sentence.runs).warnings := by
  obtain ⟨spans, hruns, hspans⟩ := s.typesets_layRuns sentence.runs c
  rw [← hspans]
  exact hruns.andThen (.pure _ _)

/-- The sentences of a block are set behind each other. -/
theorem typesets_laySentences (ss : List Sentence) (c : SetContent) :
    Typesets (ss.mapM s.laySentence) c (s.setSentences c.notes.length ss).1
      (c.with (s.setSentences c.notes.length ss).2)
      (s.setSentences c.notes.length ss).2.warnings := by
  induction ss generalizing c with
  | nil =>
    have hsame : c.with (s.setSentences c.notes.length []).2 = c := by
      simp [SetContent.with, setSentences]
    rw [hsame]
    exact .pure [] c
  | cons sentence ss ih =>
    have hfirst := s.typesets_laySentence sentence c
    have hrest := ih (c.with (s.setRuns c.notes.length sentence.runs))
    rw [SetContent.notes_with, SetContent.with_with] at hrest
    rw [List.mapM_cons]
    exact hfirst.bind (hrest.andThen (.pure _ _))

theorem typesets_layBlock (b : ContentBlock) (c : SetContent) :
    Typesets (s.layBlock b) c () (c.append (s.setBlock c.notes.length b).quiet)
      (s.setBlock c.notes.length b).warnings := by
  have hsentences := s.typesets_laySentences b.sentences c
  unfold layBlock
  cases hpart : b.kind.part? with
  | some part =>
    -- the paragraph goes behind those that go into the same part
    have hplaced : c.append (s.setBlock c.notes.length b).quiet
        = { c.with (s.setSentences c.notes.length b.sentences).2 with
            placed := c.placed ++ [(part, .paragraph (s.sheet.setParagraph
              (s.setSentences c.notes.length b.sentences).1))] } := by
      rw [setBlock_of_part c.notes.length hpart]
      simp [SetContent.append, SetContent.quiet, SetContent.with]
    rw [hplaced, setBlock_of_part c.notes.length hpart]
    exact hsentences.andThen (.change _ _)
  | none =>
    have hkind : b.kind = .paragraph := by
      cases hk : b.kind <;> simp [hk, ContentKind.part?] at hpart ⊢
    have hbody : c.append (s.setBlock c.notes.length b).quiet
        = { c.with (s.setSentences c.notes.length b.sentences).2 with
            body := c.body ++ [.paragraph (s.sheet.setParagraph
              (s.setSentences c.notes.length b.sentences).1)] } := by
      rw [setBlock_of_paragraph c.notes.length hkind]
      simp [SetContent.append, SetContent.quiet, SetContent.with]
    rw [hbody, setBlock_of_paragraph c.notes.length hkind]
    exact hsentences.andThen (.change _ _)

theorem typesets_layElement (e : Element) (c : SetContent) :
    Typesets (s.layElement e) c () (c.append (s.setElement c.notes.length e).quiet)
      (s.setElement c.notes.length e).warnings := by
  cases e with
  | content b => exact s.typesets_layBlock b c
  | _ => exact .change _ c

/-- The elements are set behind each other. -/
theorem typesets_layElements (es : List Element) (c : SetContent) :
    Typesets (es.forM s.layElement) c () (c.append (s.setElements c.notes.length es).quiet)
      (s.setElements c.notes.length es).warnings := by
  induction es generalizing c with
  | nil =>
    have hsame : c.append (s.setElements c.notes.length []).quiet = c := by
      simp [SetContent.append, SetContent.quiet, setElements]
    rw [hsame]
    exact .pure () c
  | cons e es ih =>
    have hfirst := s.typesets_layElement e c
    have hrest := ih (c.append (s.setElement c.notes.length e).quiet)
    rw [SetContent.notes_append_quiet, SetContent.append_quiet_append] at hrest
    exact hfirst.bind hrest

/-- Setting the content gives what its elements contribute and raises their warnings. -/
theorem typesets_layBody (b : Body) :
    Typesets (s.layBody b) {} () (s.setBody b).quiet (s.setBody b).warnings := by
  have helements := s.typesets_layElements b.elements {}
  have hempty : SetContent.append {} (s.setBody b).quiet = (s.setBody b).quiet := by
    simp [SetContent.append, SetContent.quiet]
  rw [← hempty]
  exact helements

end Setting

/-! ## The whole compilation -/

/-- Whatever is in the queue, the computation gives a value or a failure and adds warnings. -/
def Leaves {α : Type} (p : ExceptT Failure Raising α) (r : Except Failure α) (ws : List Warning) :
    Prop := Raises p.run r ws

namespace Leaves

variable {α β : Type} {p : ExceptT Failure Raising α} {f : α → ExceptT Failure Raising β}
  {ws vs : List Warning}

theorem pure (a : α) : Leaves (Pure.pure a) (.ok a) [] := Raises.pure (Except.ok (ε := Failure) a)

theorem bind {a : α} {r : Except Failure β} (hp : Leaves p (.ok a) ws) (hf : Leaves (f a) r vs) :
    Leaves (p >>= f) r (ws ++ vs) := by
  unfold Leaves at *
  rw [ExceptT.run_bind]
  exact hp.bind hf

/-- The first of some computations raises nothing. -/
theorem quietly {a : α} {r : Except Failure β} (hp : Leaves p (.ok a) [])
    (hf : Leaves (f a) r vs) : Leaves (p >>= f) r vs := hp.bind hf

/-- What was raised before a failure stays in the queue. -/
theorem stop {e : Failure} (hp : Leaves p (.error e) ws) : Leaves (p >>= f) (.error e) ws := by
  unfold Leaves at *
  rw [ExceptT.run_bind, ← List.append_nil ws]
  exact hp.bind (.pure _)

/-- A computation that does not know the queue raises nothing. -/
theorem ofExcept {x r : Except Failure α} (h : x = r) : Leaves (liftM x) r [] := by
  subst h
  exact Raises.pure x

theorem lift {p : Raising α} {a : α} (h : Raises p a ws) : Leaves (liftM p) (.ok a) ws := by
  have hok : Raises (p >>= fun a => Pure.pure (Except.ok (ε := Failure) a)) (.ok a) (ws ++ []) :=
    h.bind (.pure _)
  rw [List.append_nil] at hok
  exact hok

end Leaves

namespace Compiler

variable (c : Compiler) (spec : Specification)

/-- The content is set first, and what follows sees it without its warnings. -/
theorem leaves_content (p : Preparation) :
    Leaves (liftM (((settingOf spec p).layBody spec.body).run {}))
      (.ok ((), (contentOf spec p).quiet)) (contentOf spec p).warnings :=
  .lift ((settingOf spec p).typesets_layBody spec.body)

/-- Behind parts in a wrong order the warnings of the content are left. -/
theorem leaves_building_misplaced {p : Preparation} {e : Failure}
    (h : checkOrder (p.sheet.partsOf (materialOf spec (contentOf spec p) p.works)) p.sheet
      (materialOf spec (contentOf spec p) p.works).hasNotes = .error e) :
    Leaves (building spec p) (.error e) (contentOf spec p).warnings := by
  rw [← List.append_nil (contentOf spec p).warnings]
  exact (leaves_content spec p).bind (.stop (.ofExcept h))

/-- Behind a document all warnings about its outcome are left. -/
theorem leaves_building {p : Preparation}
    (h : checkOrder (p.sheet.partsOf (materialOf spec (contentOf spec p) p.works)) p.sheet
      (materialOf spec (contentOf spec p) p.works).hasNotes = .ok ()) :
    Leaves (building spec p)
      (.ok (assemble spec p (contentOf spec p)
        (p.sheet.partsOf (materialOf spec (contentOf spec p) p.works))))
      ((contentOf spec p).warnings
        ++ (partFindings spec p.sheet
            (p.sheet.partsOf (materialOf spec (contentOf spec p) p.works))
            (materialOf spec (contentOf spec p) p.works)
          ++ citationFindings spec (contentOf spec p).cited)) := by
  have hparts := Leaves.lift (.pushAll (partFindings spec p.sheet
    (p.sheet.partsOf (materialOf spec (contentOf spec p) p.works))
    (materialOf spec (contentOf spec p) p.works)))
  have hcitations := Leaves.lift (.pushAll (citationFindings spec (contentOf spec p).cited))
  rw [← List.append_nil (citationFindings spec (contentOf spec p).cited)]
  refine (leaves_content spec p).bind (.quietly (.ofExcept h) ?_)
  exact hparts.bind (hcitations.bind (.pure _))

/-- A compilation gives the document of its specification, and raises the warnings about it. -/
theorem leaves_processing :
    Leaves (c.processing spec) (c.process spec).1 (c.process spec).2 := by
  have hfindings : Leaves (liftM spec.raiseFindings) (.ok ()) spec.findings :=
    .lift (raises_raiseFindings spec)
  unfold process processing
  cases hg : gate spec with
  | error e => exact (Leaves.ofExcept rfl).stop
  | ok u =>
    refine .quietly (.ofExcept rfl) ?_
    cases hp : c.prepare spec with
    | error e =>
      rw [← List.append_nil spec.findings]
      exact hfindings.bind (.stop (.ofExcept rfl))
    | ok p =>
      dsimp only
      cases ho : checkOrder (p.sheet.partsOf (materialOf spec (contentOf spec p) p.works)) p.sheet
          (materialOf spec (contentOf spec p) p.works).hasNotes with
      | error e =>
        exact hfindings.bind (.quietly (.ofExcept rfl) (leaves_building_misplaced spec ho))
      | ok u =>
        dsimp only
        rw [List.append_assoc, List.append_assoc]
        exact hfindings.bind (.quietly (.ofExcept rfl) (leaves_building spec ho))

/-- The queue behind a compilation is the one before, with what the compilation raised at its
end. -/
theorem processOnto_eq (queue : List Warning) :
    c.processOnto spec queue = ((c.process spec).1, queue ++ (c.process spec).2) :=
  c.leaves_processing spec queue

/-- What a compilation gives does not depend on the warnings that are in its queue: it adds the same
ones to every queue, whether it fails or not, and none if the specification is refused. -/
theorem processOnto_frame (queue : List Warning) :
    (c.processOnto spec queue).1 = (c.processOnto spec []).1
    ∧ (c.processOnto spec queue).2 = queue ++ (c.processOnto spec []).2
    ∧ ∀ e, gate spec = .error e → c.processOnto spec queue = (.error e, queue) := by
  rw [processOnto_eq, processOnto_eq]
  refine ⟨rfl, rfl, ?_⟩
  intro e he
  unfold process
  rw [he]
  simp

/-- A specification of another version leaves the warning of an earlier compilation alone. -/
theorem processOnto_frame_otherVersion :
    processOnto { today := ⟨2024, 1, 1⟩ } { version := some ⟨"2.0", ⟨1, 9⟩⟩ } [⟨.noContent, none⟩]
      = (.error (.unsupportedVersion "2.0" supportedVersions (some ⟨1, 9⟩)),
        [⟨.noContent, none⟩]) := by
  have hgate : gate { version := some ⟨"2.0", ⟨1, 9⟩⟩ }
      = .error (.unsupportedVersion "2.0" supportedVersions (some ⟨1, 9⟩)) := by
    rfl
  exact (processOnto_frame { today := ⟨2024, 1, 1⟩ } { version := some ⟨"2.0", ⟨1, 9⟩⟩ }
    [⟨.noContent, none⟩]).2.2 _ hgate

end Compiler

end Manuscript
