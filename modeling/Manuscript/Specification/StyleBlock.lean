import Manuscript.Specification.Fields

/-!
# The style section

A style section names a style guide and replaces single settings of it. The settings are kept as
they were written.
-/

namespace Manuscript

/-- Settings of the font. -/
structure FontBlock where
  name : Option Literal := none
  size : Option Literal := none
  colour : Option Literal := none
  position : Position
deriving DecidableEq

namespace FontBlock

/-- The keywords of the font settings. -/
def keywords : List Keyword := [.name, .size, .colour]

/-- The settings that a block of fields declares. -/
def ofFields (fields : Fields) (position : Position) : FontBlock :=
  { name := fields.get .name, size := fields.get .size, colour := fields.get .colour, position }

/-- The settings under their names. -/
def fields (b : FontBlock) : List (String × Option Literal) :=
  [("name", b.name), ("size", b.size), ("colour", b.colour)]

end FontBlock

/-- Settings of the page. -/
structure LayoutBlock where
  width : Option Literal := none
  height : Option Literal := none
  margin : Option Literal := none
  spacing : Option Literal := none
  position : Position
deriving DecidableEq

namespace LayoutBlock

/-- The keywords of the page settings. -/
def keywords : List Keyword := [.width, .height, .margin, .spacing]

/-- The settings that a block of fields declares. -/
def ofFields (fields : Fields) (position : Position) : LayoutBlock :=
  { width := fields.get .width, height := fields.get .height, margin := fields.get .margin
    spacing := fields.get .spacing, position }

/-- The settings under their names. -/
def fields (b : LayoutBlock) : List (String × Option Literal) :=
  [("width", b.width), ("height", b.height), ("margin", b.margin), ("spacing", b.spacing)]

end LayoutBlock

/-- Settings of paragraphs. -/
structure ParagraphBlock where
  indentation : Option Literal := none
  position : Position
deriving DecidableEq

namespace ParagraphBlock

/-- The keywords of the paragraph settings. -/
def keywords : List Keyword := [.indentation]

/-- The settings that a block of fields declares. -/
def ofFields (fields : Fields) (position : Position) : ParagraphBlock :=
  { indentation := fields.get .indentation, position }

/-- The settings under their names. -/
def fields (b : ParagraphBlock) : List (String × Option Literal) :=
  [("indentation", b.indentation)]

end ParagraphBlock

/-- Settings of sentences. -/
structure SentenceBlock where
  prefixText : Option Literal := none
  whitespace : Option Literal := none
  bold : Option Literal := none
  italic : Option Literal := none
  position : Position
deriving DecidableEq

namespace SentenceBlock

/-- The keywords of the sentence settings. -/
def keywords : List Keyword := [.prefixText, .whitespace, .bold, .italic]

/-- The settings that a block of fields declares. -/
def ofFields (fields : Fields) (position : Position) : SentenceBlock :=
  { prefixText := fields.get .prefixText, whitespace := fields.get .whitespace
    bold := fields.get .bold, italic := fields.get .italic, position }

/-- The settings under their names. -/
def fields (b : SentenceBlock) : List (String × Option Literal) :=
  [("prefix", b.prefixText), ("whitespace", b.whitespace), ("bold", b.bold), ("italic", b.italic)]

end SentenceBlock

/-- Settings of page numbers, and the pages that have none. -/
structure NumerationBlock where
  type : Option Literal := none
  display : Option Literal := none
  margin : Option Literal := none
  skip : List Literal := []
  position : Position
deriving DecidableEq

namespace NumerationBlock

/-- The keywords of the numeration settings that take one value. -/
def keywords : List Keyword := [.type, .display, .margin]

/-- The settings that a block of fields and a list of pages declare. -/
def ofFields (fields : Fields) (skip : List Literal) (position : Position) : NumerationBlock :=
  { type := fields.get .type, display := fields.get .display, margin := fields.get .margin
    skip, position }

/-- The settings that take one value, under their names. -/
def fields (b : NumerationBlock) : List (String × Option Literal) :=
  [("type", b.type), ("display", b.display), ("margin", b.margin)]

end NumerationBlock

/-- Settings of endnotes. -/
structure EndnotesBlock where
  allow : Option Literal := none
  before : Option Literal := none
  position : Position
deriving DecidableEq

namespace EndnotesBlock

/-- The keywords of the endnotes settings. -/
def keywords : List Keyword := [.allow, .before]

/-- The settings that a block of fields declares. -/
def ofFields (fields : Fields) (position : Position) : EndnotesBlock :=
  { allow := fields.get .allow, before := fields.get .before, position }

/-- The settings under their names. -/
def fields (b : EndnotesBlock) : List (String × Option Literal) :=
  [("allow", b.allow), ("before", b.before)]

end EndnotesBlock

/-- A declared order of the parts of the document. -/
structure PartList where
  parts : List Literal := []
  position : Position
deriving DecidableEq

/-- The style section. -/
structure StyleBlock where
  /-- The guide that the settings build on. -/
  base : Option Literal := none
  font : Option FontBlock := none
  layout : Option LayoutBlock := none
  paragraph : Option ParagraphBlock := none
  sentence : Option SentenceBlock := none
  numeration : Option NumerationBlock := none
  parts : Option PartList := none
  /-- The guide for citations, where it is another one. -/
  citation : Option Literal := none
  endnotes : Option EndnotesBlock := none
  position : Position
deriving DecidableEq

/-- The style section that only names a guide. -/
def StyleBlock.named (base : Literal) : StyleBlock :=
  { base := some base, position := base.position }

/-- Every length that the section declares. -/
def StyleBlock.lengths (style : StyleBlock) : List Literal :=
  let ofLayout := style.layout.elim [] fun b =>
    b.width.toList ++ b.height.toList ++ b.margin.toList
  let ofParagraph := style.paragraph.elim [] fun b => b.indentation.toList
  let ofNumeration := style.numeration.elim [] fun b => b.margin.toList
  ofLayout ++ ofParagraph ++ ofNumeration

end Manuscript
