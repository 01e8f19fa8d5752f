import Manuscript.Compilation.Content
import Manuscript.Validation.Findings

/-!
# The queue of warnings

A compilation is handed a queue and puts its warnings at the end of it, from the first look at the
title to the last look at the citations. The same queue goes through the findings about the
specification, the setting of its content and the checks of the outcome.
-/

namespace Manuscript

/-- A computation that puts warnings at the end of a queue. -/
abbrev Raising := StateM (List Warning)

namespace Raising

/-- Put a warning at the end of the queue. -/
def push (w : Warning) : Raising Unit := modify fun queue => queue ++ [w]

/-- Put a warning at the end of the queue if a condition holds. -/
def pushIf (condition : Bool) (w : Warning) : Raising Unit :=
  if condition then push w else pure ()

/-- Put warnings at the end of the queue, one after the other. -/
def pushAll (ws : List Warning) : Raising Unit := ws.forM push

end Raising

open Raising

/-- Raise everything worth saying about a specification, section by section. What concerns the whole
specification comes last. -/
def Specification.raiseFindings (spec : Specification) : Raising Unit := do
  pushAll spec.title.findings
  pushAll (repeatedAuthors [] spec.authors.members)
  pushAll spec.assessors.roleFindings
  pushAll (spec.publication.elim [] Publication.findings)
  pushAll (spec.style.elim [] StyleBlock.findings)
  spec.body.images.forM fun i => pushAll i.findings
  (spec.bibliography.elim [] Bibliography.sources).forM fun s => pushAll s.findings
  (spec.publication.bind (·.edition)).toList.forM fun l =>
    pushIf spec.isPaper (.found .paperEdition l.position)
  pushIf spec.publication.isNone ⟨.noDate, none⟩
  pushIf spec.body.blocks.isEmpty ⟨.noContent, none⟩

/-! ## Setting the content -/

/-- The setting of content: what was set before is at hand, and warnings are raised on the way. -/
abbrev Typesetting := StateT SetContent Raising

namespace Setting

/-- Set a run behind what was set before. The value are its spans. -/
def layRun (s : Setting) (r : Run) : Typesetting (List Span) := do
  let set := s.setRun (← get).notes.length r
  pushAll set.warnings
  modify fun c => { c with notes := c.notes ++ set.notes, cited := c.cited ++ set.cited }
  return set.spans

/-- Set the runs of a sentence one after the other. -/
def laySentence (s : Setting) (sentence : Sentence) : Typesetting (List Span) := do
  return (← sentence.runs.mapM s.layRun).flatten

/-- Set a block of sentences as a paragraph of the body or of a part. -/
def layBlock (s : Setting) (b : ContentBlock) : Typesetting Unit := do
  let sentences ← b.sentences.mapM s.laySentence
  let paragraph := Block.paragraph (s.sheet.setParagraph sentences)
  match b.kind.part? with
  | some part => modify fun c => { c with placed := c.placed ++ [(part, paragraph)] }
  | none => modify fun c => { c with body := c.body ++ [paragraph] }

/-- Set an element of the text behind what was set before. -/
def layElement (s : Setting) (e : Element) : Typesetting Unit := do
  match e with
  | .content b => s.layBlock b
  | e => modify fun c => c.append (s.setElement c.notes.length e)

/-- Set the whole content. -/
def layBody (s : Setting) (b : Body) : Typesetting Unit := b.elements.forM s.layElement

end Setting

end Manuscript
