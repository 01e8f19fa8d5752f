import Manuscript.Position
import Manuscript.Specification.Source
import Manuscript.Style.Part
import Manuscript.Text.Words

/-!
# Warnings

What a compilation finds worth saying without letting it stand in the way of the document. A warning
is a finding and, where one can be named, a position. Warnings are kept in the order they were
raised.
-/

namespace Manuscript

/-! ## Severities and kinds -/

/-- How much a warning matters. -/
inductive Severity where
  | low
  | high
  | critical
deriving DecidableEq

namespace Severity

/-- The name of a severity in messages. -/
def name : Severity → String
  | low => "LOW"
  | high => "HIGH"
  | critical => "CRITICAL"

/-- The spelling of a severity in settings. -/
def spelling : Severity → String
  | low => "low"
  | high => "high"
  | critical => "critical"

/-- The rank of a severity. -/
def rank : Severity → Nat
  | low => 0
  | high => 1
  | critical => 2

/-- The greater of two severities. -/
def max (s t : Severity) : Severity := if s.rank ≤ t.rank then t else s

end Severity

/-- What a warning is about. -/
inductive WarningKind where
  /-- Values contradict each other. -/
  | inconsistency
  /-- Something that one expects is absent. -/
  | missingMember
  /-- A value is allowed but improbable. -/
  | unlikeliness
  /-- The author should look at something again. -/
  | selfCheck
deriving DecidableEq

namespace WarningKind

/-- The number of a kind. -/
def code : WarningKind → Nat
  | inconsistency => 1
  | missingMember => 2
  | unlikeliness => 3
  | selfCheck => 4

/-- The name of a kind. -/
def name : WarningKind → String
  | inconsistency => "inconsistency"
  | missingMember => "missing member"
  | unlikeliness => "unlikeliness"
  | selfCheck => "self check"

/-- The spelling of a kind in files. -/
def tag : WarningKind → String
  | inconsistency => "inconsistency"
  | missingMember => "missing_member"
  | unlikeliness => "unlikeliness"
  | selfCheck => "self_check"

end WarningKind

/-! ## Findings -/

/-- What a warning says. -/
inductive Finding where
  | titleWithFullStop
  | repeatedAuthor (name : String)
  | partialRoles
  | oddSemester (found : String)
  | noDate
  | largeFont (points : Nat)
  | smallFont (points : Nat)
  | mixedUnits
  | sizeOverLengths
  /-- A source without authors; `label` is the source as messages name it. -/
  | noSourceAuthor (kind : SourceKind) (label : String)
  | noAccessDate (label : String)
  | paperEdition
  | noContent
  | italicsIfNecessary
  | boldForbidden
  | emptyPart (part : Part)
  | unplacedContent (part : Part)
  | unplacedSources
  | neverCited (label : String)
  /-- A finding in words of its own. -/
  | stated (kind : WarningKind) (severity : Severity) (message : String)
deriving DecidableEq

namespace Finding

/-- The kind of a finding. -/
def kind : Finding → WarningKind
  | partialRoles | mixedUnits | sizeOverLengths | boldForbidden => .inconsistency
  | noDate | noSourceAuthor _ _ | noAccessDate _ | noContent | emptyPart _ | unplacedContent _
  | unplacedSources => .missingMember
  | titleWithFullStop | repeatedAuthor _ | largeFont _ | smallFont _ | paperEdition =>
      .unlikeliness
  | oddSemester _ | italicsIfNecessary | neverCited _ => .selfCheck
  | stated kind _ _ => kind

/-- The severity of a finding. -/
def severity : Finding → Severity
  | repeatedAuthor _ => .critical
  | partialRoles | largeFont _ | noContent | boldForbidden | unplacedContent _
  | unplacedSources => .high
  | stated _ severity _ => severity
  | _ => .low

/-- The finding in words. -/
def message : Finding → String
  | titleWithFullStop => "Titles rarely end with a full stop"
  | repeatedAuthor name => "The author \"" ++ name ++ "\" is listed more than once"
  | partialRoles => "Some assessors have a role and others do not"
  | oddSemester found =>
      "The semester \"" ++ found ++ "\" does not follow the form WS yyyy or SS yyyy"
  | noDate => "No publication date is given; today's date is used"
  | largeFont points => "A font size of " ++ toString points ++ " is unusually large"
  | smallFont points => "A font size of " ++ toString points ++ " is unusually small"
  | mixedUnits => "The style mixes lengths in inches and millimetres"
  | sizeOverLengths => "The image size takes precedence over its width and height"
  | noSourceAuthor kind label =>
      "The " ++ kind.name ++ " source " ++ label ++ " names no author"
  | noAccessDate label => "The webpage " ++ label ++ " has no access date"
  | paperEdition => "Papers rarely have an edition"
  | noContent => "The document has no content"
  | italicsIfNecessary => "The style allows italics only where necessary"
  | boldForbidden => "The style does not allow bold text; it is printed regular"
  | emptyPart part => "The " ++ part.name ++ " section is declared but has no content"
  | unplacedContent part =>
      "The document has " ++ part.name ++ " content but no " ++ part.name ++ " section"
  | unplacedSources => "The document lists sources but has no bibliography section"
  | neverCited label => "The source \"" ++ label ++ "\" is never cited"
  | stated _ _ message => message

end Finding

/-! ## Warnings -/

/-- A finding and where it was made. -/
structure Warning where
  finding : Finding
  position : Option Position := none
deriving DecidableEq

namespace Warning

/-- A finding at a known position. -/
def found (finding : Finding) (position : Position) : Warning := ⟨finding, some position⟩

/-- The severity of a warning. -/
def severity (w : Warning) : Severity := w.finding.severity

/-- The warning as it is printed. -/
def display (w : Warning) : String :=
  "(" ++ w.severity.name ++ "): " ++ w.finding.message ++ Position.suffix w.position

/-- The warnings that matter at least as much as a severity. -/
def atLeast (severity : Severity) (ws : List Warning) : List Warning :=
  ws.filter fun w => severity.rank ≤ w.severity.rank

/-- The greatest severity among warnings. -/
def highest? : List Warning → Option Severity
  | [] => none
  | w :: ws => some (ws.foldl (fun s w => s.max w.severity) w.severity)

/-- Warnings as they are printed, one a line. -/
def listing (ws : List Warning) : String := String.join (ws.map fun w => w.display ++ "\n")

end Warning

end Manuscript
