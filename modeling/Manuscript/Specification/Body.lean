import Manuscript.Specification.Fields
import Manuscript.Style.Part

/-!
# Content

Chapters, paragraphs, images and the other elements of the running text, in the order they were
declared. A paragraph is a list of sentences, and a sentence is a list of runs.
-/

namespace Manuscript

/-- A stretch of a sentence. -/
inductive Run where
  | text (text : Literal)
  | emphasise (text : Literal)
  | bold (text : Literal)
  /-- The title of a work. -/
  | work (text : Literal)
  | quote (text : Literal)
  /-- The text of an endnote; the sentence shows its marker here. -/
  | note (text : Literal)
  /-- A reference to the source with this id. -/
  | citation (source : Literal) (page : Option Literal)
deriving DecidableEq

namespace Run

/-- The main literal of a run. -/
def literal : Run → Literal
  | text l | emphasise l | bold l | work l | quote l | note l => l
  | citation source _ => source

/-- The text of a note. -/
def note? : Run → Option Literal
  | note l => some l
  | _ => none

/-- The source that a citation names. -/
def cited? : Run → Option Literal
  | citation source _ => some source
  | _ => none

end Run

/-- A sentence; the position is that of its first token. -/
structure Sentence where
  runs : List Run
  position : Position
deriving DecidableEq

namespace Sentence

/-- The notes of a sentence. -/
def notes (s : Sentence) : List Literal := s.runs.filterMap Run.note?

/-- The sources that a sentence cites. -/
def citations (s : Sentence) : List Literal := s.runs.filterMap Run.cited?

end Sentence

/-- What a block of sentences is. -/
inductive ContentKind where
  /-- A paragraph of the body. -/
  | paragraph
  | abstract
  | preface
  | acknowledgements
  | appendix
deriving DecidableEq

namespace ContentKind

/-- The part of the document that the content goes into; a paragraph stays in the body. -/
def part? : ContentKind → Option Part
  | paragraph => none
  | abstract => some .abstract
  | preface => some .preface
  | acknowledgements => some .acknowledgements
  | appendix => some .appendix

/-- The kind of content, as inspection output names it. -/
def name : ContentKind → String
  | paragraph => "Paragraph"
  | abstract => "Abstract"
  | preface => "Preface"
  | acknowledgements => "Acknowledgements"
  | appendix => "Appendix"

/-- The kind of content, as messages name it. -/
def word : ContentKind → String
  | paragraph => "paragraph"
  | abstract => "abstract"
  | preface => "preface"
  | acknowledgements => "acknowledgements"
  | appendix => "appendix"

end ContentKind

/-- A block of sentences. -/
structure ContentBlock where
  kind : ContentKind
  sentences : List Sentence
  position : Position
deriving DecidableEq

/-- An image in the running text. -/
structure Image where
  /-- The name of the file. -/
  id : Option Literal := none
  width : Option Literal := none
  height : Option Literal := none
  /-- A size relative to the image's own. -/
  size : Option Literal := none
  display : Option Literal := none
  position : Position
deriving DecidableEq

namespace Image

/-- The keywords of an image's fields. -/
def keywords : List Keyword := [.id, .width, .height, .size, .display]

/-- The image that a block of fields describes. -/
def ofFields (fields : Fields) (position : Position) : Image :=
  { id := fields.get .id, width := fields.get .width, height := fields.get .height
    size := fields.get .size, display := fields.get .display, position }

/-- The image that a list of values describes: an id, then a size or a width and a height. -/
def ofValues? (position : Position) : List Literal → Option Image
  | [id] => some { id := some id, position }
  | [id, size] => some { id := some id, size := some size, position }
  | [id, width, height] =>
      some { id := some id, width := some width, height := some height, position }
  | _ => none

/-- The fields under their names. -/
def fields (i : Image) : List (String × Option Literal) :=
  [("id", i.id), ("width", i.width), ("height", i.height), ("size", i.size),
    ("display", i.display)]

end Image

/-- An element of the running text. -/
inductive Element where
  | chapter (heading : Literal)
  | content (block : ContentBlock)
  /-- The heading lines of the document, repeated here. -/
  | header (position : Position)
  /-- A page left empty on purpose. -/
  | blank (position : Position)
  | image (image : Image)
deriving DecidableEq

namespace Element

/-- The block of sentences, if the element is one. -/
def block? : Element → Option ContentBlock
  | content block => some block
  | _ => none

/-- The image, if the element is one. -/
def image? : Element → Option Image
  | image i => some i
  | _ => none

end Element

/-- All content of a specification, in the order of declaration. -/
structure Body where
  elements : List Element := []
deriving DecidableEq

namespace Body

/-- The blocks of sentences. -/
def blocks (b : Body) : List ContentBlock := b.elements.filterMap Element.block?

/-- The blocks of one kind. -/
def blocksOf (b : Body) (kind : ContentKind) : List ContentBlock :=
  b.blocks.filter fun block => block.kind == kind

/-- There is content of one kind. -/
def hasContent (b : Body) (kind : ContentKind) : Bool := !(b.blocksOf kind).isEmpty

/-- All sentences. -/
def sentences (b : Body) : List Sentence := b.blocks.flatMap ContentBlock.sentences

/-- Some sentence has a note. -/
def hasNotes (b : Body) : Bool := b.sentences.any fun s => !s.notes.isEmpty

/-- All images. -/
def images (b : Body) : List Image := b.elements.filterMap Element.image?

end Body

end Manuscript
