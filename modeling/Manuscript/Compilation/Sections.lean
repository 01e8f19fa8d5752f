import Manuscript.Compilation.Content
import Manuscript.Compilation.Outline
import Manuscript.Specification.Tree

/-!
# Building the sections

The sections of a document are built in the order of its outline. Content that was set in advance is
handed out once: to the first section that asks for it. The table of contents is filled in last,
from the headings behind it.
-/

namespace Manuscript

/-! ## Lines about the document -/

/-- The trimmed text of a field, as a list of at most one line. -/
def fieldLine (field : Option Literal) : List String := (field.map (·.trimmed)).toList

/-- An assessor on the title page, behind the role if there is one. -/
def assessorLine (p : Person) : String :=
  match p.role with
  | some role => role.trimmed ++ ": " ++ p.fullName
  | none => p.fullName

/-- The lines of the title page. -/
def titlePageLines (spec : Specification) (m : Metadata) : List String :=
  [m.title] ++ m.authors ++ spec.assessors.members.map assessorLine
    ++ spec.publication.elim [] (fun p =>
      [p.title, p.institution, p.chair, p.venue, p.semester].flatMap fieldLine)
    ++ m.date.toList

/-- The lines that a header element shows: institution and chair, the people, the title, and the
date or the semester. -/
def headerLines (spec : Specification) (m : Metadata) : List String :=
  spec.publication.elim [] (fun p => fieldLine p.institution ++ fieldLine p.chair)
    ++ m.authors ++ m.assessors ++ [m.title]
    ++ match m.date with
      | some date => [date]
      | none => spec.publication.elim [] fun p => fieldLine p.semester

/-- The heading on the first page of a document without a title page, in the MLA form. -/
def firstPageHeading (spec : Specification) (m : Metadata) : List String :=
  m.authors ++ m.assessors ++ spec.publication.elim [] (fun p => fieldLine p.title)
    ++ m.date.toList

/-- The blocks of the declaration of academic integrity. -/
def integrityBlocks (sheet : Sheet) (m : Metadata) : List Block :=
  let statement :=
    sheet.guide.integrityStatement (Text.joinWith " and " m.authors) sheet.documentType
  .paragraph (sheet.setParagraph [[Span.regular statement]])
    :: (m.date.toList ++ m.authors).map .line

/-! ## Sections -/

/-- What the sections of a document are built from and do not use up. -/
structure Plan where
  spec : Specification
  sheet : Sheet
  metadata : Metadata
  /-- The document has a title page. -/
  hasTitlePage : Bool

/-- Content that waits to be placed in a section. -/
structure Supply where
  body : List Block
  placed : List (Part × Block)
  notes : List Block
  entries : List Entry
deriving DecidableEq

namespace Plan

/-- The heading of a part. -/
def headingOf (plan : Plan) (supply : Supply) : Part → Option String
  | .endnotes => some plan.sheet.guide.endnotesTitle
  | .bibliography => some (plan.sheet.citation.bibliographyTitle supply.entries.length)
  | other => other.heading

/-- The blocks of a part, and what is left for the sections behind it. -/
def blocksOf (plan : Plan) (supply : Supply) : Part → List Block × Supply
  | .titlePage => ((titlePageLines plan.spec plan.metadata).map .line, supply)
  | .endnotes => (supply.notes, { supply with notes := [] })
  | .bibliography => (supply.entries.map .entry, { supply with entries := [] })
  | .academicIntegrity => (integrityBlocks plan.sheet plan.metadata, supply)
  | other =>
    (supply.placed.filterMap fun (part, block) => if part = other then some block else none,
      { supply with placed := supply.placed.filter fun (part, _) => part != other })

/-- One section, and what is left for the sections behind it. -/
def build (plan : Plan) (supply : Supply) : SectionKind → Section × Supply
  | .body =>
    (⟨.body, if plan.hasTitlePage then none else some plan.metadata.title, plan.sheet.numeration,
      supply.body⟩, { supply with body := [] })
  | .part part =>
    let (blocks, left) := plan.blocksOf supply part
    (⟨.part part, plan.headingOf supply part, plan.sheet.numerationOf part, blocks⟩, left)

/-- The sections of an outline. -/
def sections (plan : Plan) (supply : Supply) : List SectionKind → List Section
  | [] => []
  | kind :: rest =>
    let (built, left) := plan.build supply kind
    built :: plan.sections left rest

end Plan

/-! ## Table of contents -/

/-- The lines of the table of contents about a section: its heading, and the chapters of the body.
-/
def contentsLines (s : Section) : List Block :=
  (s.heading.toList.map .line)
    ++ if s.kind = .body then
        s.blocks.filterMap fun
          | .heading text _ => some (.line text)
          | _ => none
      else []

/-- Fill the first table of contents with the sections behind it. -/
def fillContents : List Section → List Section
  | [] => []
  | s :: rest =>
    if s.kind = .part .tableOfContents then
      { s with blocks := rest.flatMap contentsLines } :: rest
    else s :: fillContents rest

end Manuscript
