import Manuscript.Document.Model
import Manuscript.Style.Sheet

/-!
# The order of parts

Which parts a document has and how they are ordered. The order is the declared one, or that of the
style guide without the parts that there is nothing for. The body stands in front of the first part
of the back matter. Endnotes have rules about what stands before them.
-/

namespace Manuscript

/-- What there is material for. -/
structure Material where
  hasAbstract : Bool := false
  hasPreface : Bool := false
  hasAcknowledgements : Bool := false
  hasAppendix : Bool := false
  hasNotes : Bool := false
  hasSources : Bool := false
  hasAssessors : Bool := false
deriving DecidableEq

namespace Material

/-- There is something to show in a part. Some parts are made of what every document has. -/
def fills (m : Material) : Part → Bool
  | .abstract => m.hasAbstract
  | .preface => m.hasPreface
  | .acknowledgements => m.hasAcknowledgements
  | .appendix => m.hasAppendix
  | .endnotes => m.hasNotes
  | .bibliography => m.hasSources
  | .tables | .figures | .abbreviations | .glossary => false
  | .titlePage | .tableOfContents | .blankPage | .academicIntegrity => true

end Material

namespace Sheet

/-- A candidate of the guide becomes a part of the document. -/
def admits (sheet : Sheet) (m : Material) : Part → Bool
  | .endnotes =>
    match sheet.endnotes with
    | .yes => true
    | .ifNecessary => m.hasNotes
    | .no => false
  | .academicIntegrity =>
    sheet.guide == .house && sheet.documentType == .paper && m.hasAssessors
  | .titlePage | .tableOfContents => true
  | other => m.fills other

/-- The parts of a document that declares no order. -/
def defaultParts (sheet : Sheet) (m : Material) : List Part :=
  (sheet.guide.candidates sheet.documentType).filter (sheet.admits m)

/-- The parts of a document, in order. -/
def partsOf (sheet : Sheet) (m : Material) : List Part := sheet.parts.getD (sheet.defaultParts m)

end Sheet

/-- The sections of a document: its parts, and the body in front of the back matter. -/
def outlineOf : List Part → List SectionKind
  | [] => [.body]
  | part :: rest =>
    if part.isBackMatter then .body :: .part part :: rest.map .part
    else .part part :: outlineOf rest

/-! ## The place of the endnotes -/

/-- Some later part of the list is the given one. -/
def standsBehind (part anchor : Part) (parts : List Part) : Bool :=
  (parts.dropWhile (· != anchor)).drop 1 |>.contains part

/-- Some part in front of the first anchor is the given one. -/
def standsBefore (part anchor : Part) (parts : List Part) : Bool :=
  (parts.takeWhile (· != anchor)).contains part

/-- The first required part that stands behind the endnotes is a failure. -/
def checkRequired (parts : List Part) : List Part → Except Failure Unit
  | [] => .ok ()
  | required :: rest =>
    if standsBehind required .endnotes parts then .error (.partOrder required .endnotes)
    else checkRequired parts rest

/-- Endnotes are there only if the style allows them, behind the parts that the guide wants in front
of them and before the part that the sheet names. -/
def checkOrder (parts : List Part) (sheet : Sheet) (hasNotes : Bool) : Except Failure Unit := do
  if sheet.endnotes = .no then
    if parts.contains .endnotes then throw (.invalid ⟨.endnotesSectionForbidden, none⟩)
    if hasNotes then throw (.invalid ⟨.notesForbidden, none⟩)
  if parts.contains .endnotes then
    checkRequired parts sheet.guide.rules.beforeEndnotes
    match sheet.endnotesBefore with
    | some (anchor, _) =>
      if standsBefore anchor .endnotes parts then throw (.partOrder .endnotes anchor)
    | none => return ()

end Manuscript
