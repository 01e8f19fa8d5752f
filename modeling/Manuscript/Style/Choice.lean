import Manuscript.Number.Natural
import Manuscript.Style.Part
import Manuscript.Style.Reader

/-!
# Choices of a style

The settings that are a choice from a short list: the type of document, the numbering of pages, the
alignment of images, and what the style allows.
-/

namespace Manuscript

/-! ## Documents and parts -/

/-- The type of a document. -/
inductive DocumentType where
  | paper
  | book
deriving DecidableEq

namespace DocumentType

/-- The spelling of a type of document. -/
def name : DocumentType → String
  | paper => "paper"
  | book => "book"

/-- How types of documents are read. -/
def reader : Reader DocumentType :=
  .choice "document type (Paper, Book)" [("paper", paper), ("book", book)]

end DocumentType

/-- How parts of a document are read. -/
def Part.reader : Reader Part := .choice "structure section" (Part.all.map fun p => (p.name, p))

/-! ## Page numbers -/

/-- The numerals of page numbers. -/
inductive Numeration where
  | arabic
  | roman
deriving DecidableEq

namespace Numeration

/-- The spelling of a kind of numerals. -/
def name : Numeration → String
  | arabic => "arabic"
  | roman => "roman"

/-- How kinds of numerals are read. -/
def reader : Reader Numeration :=
  .choice "numeration type (Arabic, Roman)" [("arabic", arabic), ("roman", roman)]

/-- A page number in these numerals. -/
def render : Numeration → Nat → String
  | arabic, n => toString n
  | roman, n => String.ofList (Number.roman n)

end Numeration

/-- Where page numbers stand on the page. -/
inductive NumberPlace where
  | top
  | bottom
  | topLeft
  | topRight
  | bottomLeft
  | bottomRight
deriving DecidableEq

namespace NumberPlace

/-- The spelling of a place. -/
def name : NumberPlace → String
  | top => "top"
  | bottom => "bottom"
  | topLeft => "top_left"
  | topRight => "top_right"
  | bottomLeft => "bottom_left"
  | bottomRight => "bottom_right"

/-- How places are read. -/
def reader : Reader NumberPlace :=
  .choice "numeration position"
    [("top", top), ("bottom", bottom), ("topleft", topLeft), ("topright", topRight),
      ("bottomleft", bottomLeft), ("bottomright", bottomRight)]

end NumberPlace

/-! ## Images -/

/-- Where an image stands between the margins. -/
inductive Alignment where
  | left
  | centre
  | right
deriving DecidableEq

namespace Alignment

/-- The spelling of an alignment. -/
def name : Alignment → String
  | left => "left"
  | centre => "centre"
  | right => "right"

/-- How alignments are read. -/
def reader : Reader Alignment :=
  .choice "alignment (Left, Center, Right)"
    [("left", left), ("center", centre), ("centre", centre), ("right", right)]

end Alignment

/-! ## What a style allows -/

/-- Whether a style allows something. -/
inductive Allowance where
  | yes
  | no
  | ifNecessary
deriving DecidableEq

namespace Allowance

/-- The spelling of an allowance. -/
def name : Allowance → String
  | yes => "yes"
  | no => "no"
  | ifNecessary => "if_necessary"

/-- How allowances are read. -/
def reader : Reader Allowance :=
  .choice "allowance (Yes, No, If Necessary)"
    [("yes", yes), ("no", no), ("ifnecessary", ifNecessary)]

/-- It is allowed at least where it is necessary. -/
def permits (a : Allowance) : Bool := a != no

end Allowance

/-- What becomes of the white space in a text. -/
inductive WhitespacePolicy where
  /-- It is kept as written. -/
  | yes
  /-- Every run of it becomes one space. -/
  | no
  /-- Runs of spaces become one space; line feeds and tabs, which were escaped, are kept. -/
  | escaped
deriving DecidableEq

namespace WhitespacePolicy

/-- The spelling of a policy. -/
def name : WhitespacePolicy → String
  | yes => "yes"
  | no => "no"
  | escaped => "escaped"

/-- How policies are read. -/
def reader : Reader WhitespacePolicy :=
  .choice "whitespace allowance (Yes, No, Escaped)"
    [("yes", yes), ("no", no), ("escaped", escaped)]

end WhitespacePolicy

end Manuscript
