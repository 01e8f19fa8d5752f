import Manuscript.Document.Json
import Manuscript.Document.Model
import Manuscript.Number.Decimal
import Manuscript.Warning

/-!
# Documents as JSON

The members of every part of a document, in the order in which files have them. A length that is too
large to be written is null.
-/

namespace Manuscript

open Manuscript.Number (Binary32)

/-- A number of points, or null if it is infinite. -/
def encodeBinary32 (x : Binary32) : Json := .option .number x.layout?

/-- A span. -/
def Span.encode (s : Span) : Json :=
  .object [("text", .string s.text), ("emphasis", .string s.emphasis.name)]

/-- The members of a paragraph. -/
def Paragraph.members (p : Paragraph) : List (String × Json) :=
  [("indentation", encodeBinary32 p.indentation), ("spans", .array (p.spans.map Span.encode))]

/-- A paragraph. -/
def Paragraph.encode (p : Paragraph) : Json := .object p.members

/-- The members of a bibliography entry. -/
def Entry.members (e : Entry) : List (String × Json) :=
  [("id", .option .string e.id), ("spans", .array (e.spans.map Span.encode))]

/-- A bibliography entry. -/
def Entry.encode (e : Entry) : Json := .object e.members

/-- The members of a placed image. -/
def PlacedImage.members (i : PlacedImage) : List (String × Json) :=
  [("id", .string i.id), ("alignment", .string i.alignment.name), ("scale", .option .nat i.scale),
    ("width", .option encodeBinary32 i.width), ("height", .option encodeBinary32 i.height)]

/-- A block. Its type comes first. -/
def Block.encode (b : Block) : Json :=
  let tagged (type : String) (members : List (String × Json)) : Json :=
    .object (("type", .string type) :: members)
  match b with
  | .heading text level => tagged "heading" [("text", .string text), ("level", .nat level)]
  | .line text => tagged "line" [("text", .string text)]
  | .paragraph p => tagged "paragraph" p.members
  | .note number p => tagged "note" [("number", .nat number), ("paragraph", p.encode)]
  | .entry e => tagged "entry" e.members
  | .header lines => tagged "header" [("lines", .strings lines)]
  | .blankPage => tagged "blank_page" []
  | .image i => tagged "image" i.members

/-- The kind of a section. -/
def SectionKind.encode : SectionKind → Json
  | part p => .object [("kind", .string "structure"), ("structure", .string p.tag)]
  | body => .object [("kind", .string "body")]

/-- A section. -/
def Section.encode (s : Section) : Json :=
  .object
    [("kind", s.kind.encode), ("heading", .option .string s.heading),
      ("numeration", .string s.numeration.name), ("blocks", .array (s.blocks.map Block.encode))]

/-- What a document says about itself. -/
def Metadata.encode (m : Metadata) : Json :=
  .object
    [("title", .string m.title), ("authors", .strings m.authors),
      ("assessors", .strings m.assessors), ("date", .option .string m.date)]

/-- A page format. -/
def PageFormat.encode (f : PageFormat) : Json :=
  .object
    [("name", .string f.name), ("width", encodeBinary32 f.width),
      ("height", encodeBinary32 f.height)]

/-- The page. -/
def PageGeometry.encode (g : PageGeometry) : Json :=
  .object
    [("format", g.format.encode), ("margin", encodeBinary32 g.margin),
      ("line_spacing", encodeBinary32 g.lineSpacing)]

/-- The font. -/
def FontData.encode (f : FontData) : Json :=
  .object
    [("name", .string f.name), ("size", .nat f.size), ("colour", .string f.colour.display)]

/-- The page numbers. -/
def PageNumbers.encode (n : PageNumbers) : Json :=
  .object
    [("body", .string n.body.name), ("front_matter", .string n.frontMatter.name),
      ("position", .string n.place.name), ("margin", encodeBinary32 n.margin),
      ("skipped_pages", .array (n.skippedPages.map .nat))]

/-- A document. -/
def Document.encode (d : Document) : Json :=
  .object
    [("compiler_version", .string d.compilerVersion), ("style", .string d.style),
      ("document_type", .string d.documentType.name), ("metadata", d.metadata.encode),
      ("page", d.page.encode), ("font", d.font.encode), ("numeration", d.numeration.encode),
      ("heading", .strings d.heading), ("sections", .array (d.sections.map Section.encode))]

/-- The text of a document file, on one line or indented. -/
def Document.toText (d : Document) (indented : Bool) : String :=
  if indented then d.encode.pretty 0 else d.encode.compact

/-- A warning, without its position. -/
def Warning.encode (w : Warning) : Json :=
  .object
    [("kind", .string w.finding.kind.tag), ("severity", .string w.severity.spelling),
      ("message", .string w.finding.message)]

end Manuscript
