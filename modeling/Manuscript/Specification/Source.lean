import Manuscript.Specification.Fields

/-!
# Bibliography sources

The sources of a document as they were declared. Each kind of source accepts a fixed set of fields.
-/

namespace Manuscript

/-- The kinds of sources. -/
inductive SourceKind where
  | book
  | music
  | periodical
  | poem
  | videogame
  | webpage
deriving DecidableEq

namespace SourceKind

/-- Every kind of source. -/
def all : List SourceKind := [book, music, periodical, poem, videogame, webpage]

/-- The kind that a keyword opens. -/
def ofKeyword? : Keyword → Option SourceKind
  | .book => some book
  | .music => some music
  | .periodical => some periodical
  | .poem => some poem
  | .videogame => some videogame
  | .webpage => some webpage
  | _ => none

/-- The name of a kind. -/
def name : SourceKind → String
  | book => "book"
  | music => "music"
  | periodical => "periodical"
  | poem => "poem"
  | videogame => "videogame"
  | webpage => "webpage"

/-- The keywords of the fields that only some kinds have. -/
def ownFields : SourceKind → List Keyword
  | book => [.publisher, .edition]
  | music => [.album, .label]
  | periodical => [.journal, .volume, .issue, .pages, .accessed]
  | poem => [.container, .publisher, .edition, .pages]
  | videogame => [.publisher, .platform]
  | webpage => [.website, .accessed]

/-- A source of this kind may have a field with this keyword. -/
def accepts (kind : SourceKind) (k : Keyword) : Bool :=
  [Keyword.id, .author, .title, .year, .url].contains k || kind.ownFields.contains k

end SourceKind

/-- A declared source. -/
structure Source where
  kind : SourceKind
  id : Option Literal := none
  authors : List Literal := []
  title : Option Literal := none
  publisher : Option Literal := none
  year : Option Literal := none
  edition : Option Literal := none
  container : Option Literal := none
  journal : Option Literal := none
  volume : Option Literal := none
  issue : Option Literal := none
  pages : Option Literal := none
  album : Option Literal := none
  label : Option Literal := none
  platform : Option Literal := none
  website : Option Literal := none
  url : Option Literal := none
  accessed : Option Literal := none
  position : Position
deriving DecidableEq

namespace Source

/-- The keywords of the fields that take one value. -/
def keywords : List Keyword :=
  [.id, .title, .publisher, .year, .edition, .container, .journal, .volume, .issue, .pages,
    .album, .label, .platform, .website, .url, .accessed]

/-- The source that a list of authors and a block of fields describe. -/
def ofFields (kind : SourceKind) (authors : List Literal) (fields : Fields)
    (position : Position) : Source :=
  { kind, authors, position
    id := fields.get .id, title := fields.get .title, publisher := fields.get .publisher
    year := fields.get .year, edition := fields.get .edition
    container := fields.get .container, journal := fields.get .journal
    volume := fields.get .volume, issue := fields.get .issue, pages := fields.get .pages
    album := fields.get .album, label := fields.get .label, platform := fields.get .platform
    website := fields.get .website, url := fields.get .url, accessed := fields.get .accessed }

/-- The fields that take one value, under their names. -/
def fields (s : Source) : List (String × Option Literal) :=
  [("id", s.id), ("title", s.title), ("publisher", s.publisher), ("year", s.year),
    ("edition", s.edition), ("container", s.container), ("journal", s.journal),
    ("volume", s.volume), ("issue", s.issue), ("pages", s.pages), ("album", s.album),
    ("label", s.label), ("platform", s.platform), ("website", s.website), ("url", s.url),
    ("accessed", s.accessed)]

/-- The id by which the text cites the source. -/
def citedAs (s : Source) : Option String := s.id.map Literal.trimmed

end Source

/-- The sources of a document, in the order of declaration. -/
structure Bibliography where
  sources : List Source := []
  position : Option Position := none
deriving DecidableEq

/-- The first source with an id. -/
def Bibliography.find? (b : Bibliography) (id : String) : Option Source :=
  b.sources.find? fun s => s.citedAs == some id

end Manuscript
