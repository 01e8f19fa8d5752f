import Manuscript.Citation.Entry
import Manuscript.Style.Choice
import Manuscript.Style.Measure
import Manuscript.Typeset.Span

/-!
# Documents

A finished document: every text is set, every length is in points, and every section stands in its
place. What is left to do is to lay it out on pages.
-/

namespace Manuscript

open Manuscript.Number (Binary32)

/-- A placed image. A scale, in percent of the image's own size, excludes a width and a height. -/
structure PlacedImage where
  id : String
  alignment : Alignment
  scale : Option Nat
  width : Option Binary32
  height : Option Binary32
deriving DecidableEq

/-- A block of a section. -/
inductive Block where
  | heading (text : String) (level : Nat)
  /-- A line of its own, on the title page and in the table of contents. -/
  | line (text : String)
  | paragraph (paragraph : Paragraph)
  | note (number : Nat) (paragraph : Paragraph)
  | entry (entry : Entry)
  /-- The heading lines of the document. -/
  | header (lines : List String)
  | blankPage
  | image (image : PlacedImage)
deriving DecidableEq

/-- What a section is. -/
inductive SectionKind where
  | part (part : Part)
  | body
deriving DecidableEq

/-- The part that a section is. -/
def SectionKind.part? : SectionKind → Option Part
  | part p => some p
  | body => none

/-- A section of a document. -/
structure Section where
  kind : SectionKind
  heading : Option String
  numeration : Numeration
  blocks : List Block
deriving DecidableEq

namespace Section

/-- The texts of the paragraphs of a section. -/
def paragraphTexts (s : Section) : List String :=
  s.blocks.filterMap fun
    | .paragraph p => some p.text
    | _ => none

/-- The texts of the lines of a section. -/
def lineTexts (s : Section) : List String :=
  s.blocks.filterMap fun
    | .line text => some text
    | _ => none

end Section

/-- What a document says about itself. -/
structure Metadata where
  title : String
  authors : List String
  assessors : List String
  date : Option String
deriving DecidableEq

/-- The page. -/
structure PageGeometry where
  format : PageFormat
  margin : Binary32
  lineSpacing : Binary32
deriving DecidableEq

/-- The font. -/
structure FontData where
  name : String
  size : Nat
  colour : Colour
deriving DecidableEq

/-- The page numbers. -/
structure PageNumbers where
  body : Numeration
  frontMatter : Numeration
  place : NumberPlace
  margin : Binary32
  skippedPages : List Nat
deriving DecidableEq

/-- A finished document. -/
structure Document where
  compilerVersion : String
  style : String
  documentType : DocumentType
  metadata : Metadata
  page : PageGeometry
  font : FontData
  numeration : PageNumbers
  /-- The heading on the first page of a document without a title page. -/
  heading : List String
  sections : List Section
deriving DecidableEq

namespace Document

/-- The section that is a part, if the document has it. -/
def section? (d : Document) (part : Part) : Option Section :=
  d.sections.find? fun s => s.kind == .part part

/-- The body. -/
def body? (d : Document) : Option Section := d.sections.find? fun s => s.kind == .body

/-- The kinds of the sections, in order. -/
def outline (d : Document) : List SectionKind := d.sections.map Section.kind

/-- The texts of all bibliography entries, in order. -/
def entryTexts (d : Document) : List String :=
  (d.sections.flatMap Section.blocks).filterMap fun
    | .entry e => some e.text
    | _ => none

end Document

end Manuscript
