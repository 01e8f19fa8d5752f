import Manuscript.Position
import Manuscript.Specification.Source
import Manuscript.Specification.Body

/-!
# Faults

What makes a specification unusable although it follows the grammar. A fault belongs to one of four
kinds, says in words which rule is violated, and knows where if a position can be named.
-/

namespace Manuscript

/-- The kinds of faults. -/
inductive FaultKind where
  /-- A required section is absent. -/
  | missingSection
  /-- A value or combination that is not allowed. -/
  | illegal
  /-- A required field is absent or blank. -/
  | missingField
  /-- A value that cannot be read. -/
  | badFormat
deriving DecidableEq

namespace FaultKind

/-- The number of a kind. -/
def code : FaultKind → Nat
  | missingSection => 30
  | illegal => 31
  | missingField => 32
  | badFormat => 33

/-- The name of a kind. -/
def name : FaultKind → String
  | missingSection => "missing configuration"
  | illegal => "illegal configuration"
  | missingField => "missing member"
  | badFormat => "incorrect format"

end FaultKind

/-- The rules that a specification can violate. -/
inductive Violation where
  /-- A text is blank. -/
  | blankText (field : String)
  | noTitle
  | noAuthor
  | nameAndParts
  | noLastname
  | noFirstname
  | noName
  | chairAlone
  | noSentences (kind : ContentKind)
  | noImageId
  | noSourceField (kind : SourceKind) (field : String)
  | noWebLocation
  | noVenue
  | unknownCitation (id : String)
  /-- A text is no value of the type that a reader complains about. -/
  | unreadable (complaint : String)
  | notPositive (found field : String)
  | badSpacing (found : String)
  | badDate (found : String)
  | undatedAccess
  | repeatedPart (part : Part)
  | repeatedSource (id : String) (first : Position)
  | endnotesSectionForbidden
  | notesForbidden
deriving DecidableEq

namespace Violation

/-- The kind of fault that a violation is. -/
def kind : Violation → FaultKind
  | noTitle | noAuthor => .missingSection
  | nameAndParts | repeatedPart _ | repeatedSource _ _ | endnotesSectionForbidden
  | notesForbidden => .illegal
  | blankText _ | noLastname | noFirstname | noName | chairAlone | noSentences _ | noImageId
  | noSourceField _ _ | noWebLocation | noVenue | unknownCitation _ => .missingField
  | unreadable _ | notPositive _ _ | badSpacing _ | badDate _ | undatedAccess => .badFormat

/-- The violation in words. -/
def message : Violation → String
  | blankText field => "A text component cannot be blank (" ++ field ++ ")"
  | noTitle => "A title is required"
  | noAuthor => "At least one author is required"
  | nameAndParts => "Use either name or firstname and lastname, not both"
  | noLastname => "A lastname is required when a firstname is given"
  | noFirstname => "A firstname is required when a lastname is given"
  | noName => "A person requires a name"
  | chairAlone => "A chair requires the institution it belongs to"
  | noSentences kind => "The " ++ kind.word ++ " section has no sentences"
  | noImageId => "An image needs an id"
  | noSourceField kind field => "A " ++ kind.name ++ " source requires a " ++ field
  | noWebLocation => "A webpage source requires a website or a url"
  | noVenue => "A book requires a publication venue"
  | unknownCitation id => "The citation \"" ++ id ++ "\" names no bibliography source"
  | unreadable complaint => complaint
  | notPositive found field =>
      "\"" ++ found ++ "\" is not a valid " ++ field ++ " (a positive whole number)"
  | badSpacing found => "\"" ++ found ++ "\" is not a valid line spacing (a positive number)"
  | badDate found => "\"" ++ found ++ "\" is not a valid date (dd/mm/yyyy or None)"
  | undatedAccess => "An access date must be a date (dd/mm/yyyy)"
  | repeatedPart part => "The " ++ part.name ++ " section is declared more than once"
  | repeatedSource id first =>
      "The source id \"" ++ id ++ "\" is already used at " ++ first.display
  | endnotesSectionForbidden =>
      "The style forbids endnotes but the structure contains an endnotes section"
  | notesForbidden => "The style forbids endnotes but the document contains notes"

end Violation

/-- A violation and where it was found. -/
structure Fault where
  violation : Violation
  position : Option Position := none
deriving DecidableEq

namespace Fault

/-- A violation at a known position. -/
def found (violation : Violation) (position : Position) : Fault := ⟨violation, some position⟩

/-- The fault in words, with its kind and position. -/
def display (f : Fault) : String :=
  f.violation.kind.name ++ " [E" ++ toString f.violation.kind.code ++ "]: "
    ++ f.violation.message ++ Position.suffix f.position

end Fault

end Manuscript
