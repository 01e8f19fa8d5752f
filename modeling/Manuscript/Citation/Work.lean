import Manuscript.Citation.Name
import Manuscript.Guide.Wording
import Manuscript.Specification.Source
import Manuscript.Text.Case
import Manuscript.Validation.Reading

/-!
# Works

A declared source whose values were read: what every work has, and what works of its kind have
besides. Works know how they are sorted and how the text refers to them.
-/

namespace Manuscript

/-- What only works of one kind have. -/
inductive WorkDetails where
  | book (publisher : String) (edition : Option Nat)
  | music (album label : Option String)
  | periodical (journal : String) (volume issue : Option Nat) (pages : Option PageSpan)
      (accessed : Option Date)
  | poem (container publisher : Option String) (edition : Option Nat) (pages : Option PageSpan)
  | videogame (publisher : String) (platform : Option String)
  | webpage (website : Option String) (accessed : Option Date)
deriving DecidableEq

/-- A source as the bibliography prints it. -/
structure Work where
  id : Option String
  authors : List PersonalName
  title : String
  year : Option String
  url : Option String
  details : WorkDetails
deriving DecidableEq

namespace Work

/-! ## Reading a source -/

/-- The text of a field that the kind of source requires. -/
def required (s : Source) (field : Option Literal) (name : String) : Except Fault String :=
  match field with
  | some l => .ok l.trimmed
  | none => .error (.found (.noSourceField s.kind name) s.position)

/-- The date of a field; a field that says there is none has none. -/
def readDate (field : Option Literal) : Except Fault (Option Date) :=
  match field with
  | some l => l.date
  | none => .ok none

/-- The values that only sources of one kind have. -/
def detailsOf (s : Source) : Except Fault WorkDetails := do
  match s.kind with
  | .book =>
    return .book (← required s s.publisher "publisher")
      (← readField (Literal.positive "edition") s.edition)
  | .music => return .music (s.album.map (·.trimmed)) (s.label.map (·.trimmed))
  | .periodical =>
    return .periodical (← required s s.journal "journal")
      (← readField (Literal.positive "volume") s.volume)
      (← readField (Literal.positive "issue") s.issue)
      (← readField (Literal.parse PageSpan.reader) s.pages)
      (← readDate s.accessed)
  | .poem =>
    return .poem (s.container.map (·.trimmed)) (s.publisher.map (·.trimmed))
      (← readField (Literal.positive "edition") s.edition)
      (← readField (Literal.parse PageSpan.reader) s.pages)
  | .videogame =>
    return .videogame (← required s s.publisher "publisher") (s.platform.map (·.trimmed))
  | .webpage => return .webpage (s.website.map (·.trimmed)) (← readDate s.accessed)

/-- The work that a source declares. -/
def ofSource (s : Source) : Except Fault Work := do
  let title ← required s s.title "title"
  return {
    id := s.citedAs
    authors := s.authors.map fun l => PersonalName.ofText l.value
    title
    year := s.year.map (·.trimmed)
    url := s.url.map (·.trimmed)
    details := ← detailsOf s }

/-! ## Properties of works -/

/-- The larger work that this one is part of. -/
def container? (w : Work) : Option String :=
  match w.details with
  | .music album _ => album
  | .periodical journal .. => some journal
  | .poem container .. => container
  | .webpage website _ => website
  | .book .. | .videogame .. => none

/-- The work is not part of a larger one, so that its title is set in italics. -/
def standsAlone (w : Work) : Bool := w.container?.isNone

/-- What works are sorted by: the surname of the first author, or the title where there is none, and
then the title, in small letters. -/
def sortKey (w : Work) : String × String :=
  let title := Text.lowercase w.title
  match w.authors.head? with
  | some author => (Text.lowercase author.surname, title)
  | none => (title, title)

/-- The reference to the work in a text. -/
def reference (w : Work) (g : Guide) (page : Option String) : String :=
  g.reference w.authors w.title page

end Work

end Manuscript
