/-!
# Keywords

The closed vocabulary of the specification language. A word of a source is a keyword when it is
spelled exactly like one; a longer word that begins with a keyword is not.
-/

namespace Manuscript

/-- Every keyword of the language. -/
inductive Keyword where
  | version | type | title | author | assessor | publication | style | chapter | paragraph
  | abstract | preface | acknowledgements | appendix | bibliography | header | blank | image
  | name | firstname | lastname | role | institution
  | venue | date | edition | chair | semester
  | of | font | size | colour | layout | width | height | margin | spacing | indentation
  | sentence | prefixText | whitespace | bold | italic | numeration | display | skip
  | sectionOrder | citation | endnotes | allow | before
  | emphasise | work | quote | note | page
  | id | book | music | periodical | poem | videogame | webpage
  | publisher | year | container | journal | volume | issue | pages | album | label | platform
  | website | url | accessed
deriving DecidableEq

namespace Keyword

/-- The word that spells the keyword. -/
def spelling : Keyword → String
  | version => "version" | type => "type" | title => "title" | author => "author"
  | assessor => "assessor" | publication => "publication" | style => "style"
  | chapter => "chapter" | paragraph => "paragraph" | abstract => "abstract"
  | preface => "preface" | acknowledgements => "acknowledgements" | appendix => "appendix"
  | bibliography => "bibliography" | header => "header" | blank => "blank" | image => "image"
  | name => "name" | firstname => "firstname" | lastname => "lastname" | role => "role"
  | institution => "institution" | venue => "venue" | date => "date" | edition => "edition"
  | chair => "chair" | semester => "semester" | of => "of" | font => "font" | size => "size"
  | colour => "colour" | layout => "layout" | width => "width" | height => "height"
  | margin => "margin" | spacing => "spacing" | indentation => "indentation"
  | sentence => "sentence" | prefixText => "prefix" | whitespace => "whitespace"
  | bold => "bold" | italic => "italic" | numeration => "numeration" | display => "display"
  | skip => "skip" | sectionOrder => "structure" | citation => "citation"
  | endnotes => "endnotes" | allow => "allow" | before => "before" | emphasise => "emphasise"
  | work => "work" | quote => "quote" | note => "note" | page => "page" | id => "id"
  | book => "book" | music => "music" | periodical => "periodical" | poem => "poem"
  | videogame => "videogame" | webpage => "webpage" | publisher => "publisher"
  | year => "year" | container => "container" | journal => "journal" | volume => "volume"
  | issue => "issue" | pages => "pages" | album => "album" | label => "label"
  | platform => "platform" | website => "website" | url => "url" | accessed => "accessed"

/-- The vocabulary, in the order of the sections that use it. -/
def all : List Keyword :=
  [version, type, title, author, assessor, publication, style, chapter, paragraph, abstract,
    preface, acknowledgements, appendix, bibliography, header, blank, image, name, firstname,
    lastname, role, institution, venue, date, edition, chair, semester, of, font, size, colour,
    layout, width, height, margin, spacing, indentation, sentence, prefixText, whitespace, bold,
    italic, numeration, display, skip, sectionOrder, citation, endnotes, allow, before, emphasise,
    work, quote, note, page, id, book, music, periodical, poem, videogame, webpage, publisher,
    year, container, journal, volume, issue, pages, album, label, platform, website, url, accessed]

/-- The keyword that a word spells. -/
def ofWord? (word : String) : Option Keyword := all.find? fun k => k.spelling == word

/-- The keyword may open a section of its own. -/
def opensSection : Keyword → Bool
  | version | type | title | author | assessor | publication | style | chapter | paragraph
  | abstract | preface | acknowledgements | appendix | bibliography | header | blank | image => true
  | _ => false

/-- The section that the keyword opens may be declared more than once. -/
def isRepeatable : Keyword → Bool
  | author | assessor | chapter | paragraph | header | blank | image => true
  | _ => false

/-- The keyword introduces a run inside a sentence. -/
def opensRun : Keyword → Bool
  | emphasise | bold | work | quote | note | citation => true
  | _ => false

end Keyword

end Manuscript
