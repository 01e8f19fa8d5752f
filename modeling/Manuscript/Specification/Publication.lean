import Manuscript.Specification.Fields

/-!
# Publication details

Where, when and in which edition the document appears.
-/

namespace Manuscript

/-- The publication section. -/
structure Publication where
  title : Option Literal := none
  venue : Option Literal := none
  date : Option Literal := none
  edition : Option Literal := none
  institution : Option Literal := none
  chair : Option Literal := none
  semester : Option Literal := none
  position : Position
deriving DecidableEq

namespace Publication

/-- The keywords of the publication's fields. -/
def keywords : List Keyword := [.title, .venue, .date, .edition, .institution, .chair, .semester]

/-- The publication that a block of fields describes. -/
def ofFields (fields : Fields) (position : Position) : Publication :=
  { title := fields.get .title, venue := fields.get .venue, date := fields.get .date
    edition := fields.get .edition, institution := fields.get .institution
    chair := fields.get .chair, semester := fields.get .semester, position }

/-- The fields under their names, in the order they are checked and shown. -/
def fields (p : Publication) : List (String × Option Literal) :=
  [("title", p.title), ("venue", p.venue), ("date", p.date), ("edition", p.edition),
    ("institution", p.institution), ("chair", p.chair), ("semester", p.semester)]

end Publication

end Manuscript
