import Manuscript.Character.Letter
import Manuscript.Specification.Tree
import Manuscript.Style.Choice
import Manuscript.Style.Measure
import Manuscript.Text.Case
import Manuscript.Validation.Check
import Manuscript.Validation.Reading
import Manuscript.Warning

/-!
# Findings about a specification

What can be said about a specification without processing it and without refusing it. The findings
are made in the order of the sections; those about the whole specification come last.
-/

namespace Manuscript

/-- A warning if a condition holds. -/
def warnIf (condition : Bool) (w : Warning) : List Warning := if condition then [w] else []

/-! ## Title, people and publication -/

/-- A title rarely ends with a full stop. -/
def Title.findings (t : Title) : List Warning :=
  warnIf (t.text.toList.getLast? == some '.') ⟨.titleWithFullStop, t.position⟩

/-- An author has the name of one seen before, whatever the case of its letters. -/
def repeatedAuthors (seen : List String) : List Person → List Warning
  | [] => []
  | p :: rest =>
    let key := Text.lowercase p.fullName
    warnIf (seen.contains key) (.found (.repeatedAuthor p.fullName) p.position)
      ++ repeatedAuthors (key :: seen) rest

/-- Either all assessors have a role or none has. -/
def People.roleFindings (assessors : People) : List Warning :=
  let withRole := assessors.members.filter fun p => p.role.isSome
  warnIf (!withRole.isEmpty && withRole.length < assessors.members.length)
    ⟨.partialRoles, assessors.position⟩

/-- The form of a semester: the letters of a term, a space and a year. -/
def isSemester : List Char → Bool
  | term :: 'S' :: ' ' :: year =>
      (term == 'W' || term == 'S') && year.length == 4 && year.all Character.isDecimalDigit
  | _ => false

/-- The semester has an odd form, or there is no date. -/
def Publication.findings (p : Publication) : List Warning :=
  (p.semester.toList.flatMap fun l =>
    warnIf (!isSemester l.trimmedChars) (.found (.oddSemester l.value) l.position))
  ++ warnIf p.date.isNone (.found .noDate p.position)

/-! ## Style -/

/-- The largest font size that raises no warning. -/
def largestLikelyFont : Nat := 96

/-- The smallest font size that raises no warning. -/
def smallestLikelyFont : Nat := 6

/-- The font is unusually large or small. -/
def FontBlock.findings (b : FontBlock) : List Warning :=
  b.size.toList.flatMap fun l =>
    match l.positive "font size" with
    | .error _ => []
    | .ok points =>
      warnIf (largestLikelyFont < points) (.found (.largeFont points) l.position)
      ++ warnIf (points < smallestLikelyFont) (.found (.smallFont points) l.position)

/-- The units of the lengths that are greater than zero. -/
def StyleBlock.units (style : StyleBlock) : List LengthUnit :=
  style.lengths.filterMap fun l =>
    (Length.reader.read? l.value).bind fun length =>
      if length.value.isPositive then some length.unit else none

/-- The font has an unusual size, or the lengths have different units. -/
def StyleBlock.findings (style : StyleBlock) : List Warning :=
  style.font.elim [] FontBlock.findings
  ++ warnIf (style.units.contains .inch && style.units.contains .millimetre)
    (.found .mixedUnits style.position)

/-! ## Content and bibliography -/

/-- The image has a size and also a width or a height. -/
def Image.findings (i : Image) : List Warning :=
  warnIf (i.size.isSome && (i.width.isSome || i.height.isSome)) (.found .sizeOverLengths i.position)

/-- The findings about all images. -/
def Body.findings (b : Body) : List Warning := b.images.flatMap Image.findings

/-- The source as messages name it: by its id, its title or its position. -/
def Source.designation (s : Source) : String :=
  match s.id, s.title with
  | some id, _ => "\"" ++ id.value ++ "\""
  | none, some title => "\"" ++ title.value ++ "\""
  | none, none => "at " ++ s.position.display

/-- The source has no author, or it is a webpage without a date of access. -/
def Source.findings (s : Source) : List Warning :=
  warnIf s.authors.isEmpty (.found (.noSourceAuthor s.kind s.designation) s.position)
  ++ warnIf (s.kind == .webpage && s.accessed.isNone)
    (.found (.noAccessDate s.designation) s.position)

/-! ## The whole specification -/

namespace Specification

/-- The document is declared to be a paper, or its type is left open. -/
def isPaper (spec : Specification) : Bool :=
  match spec.readDocumentType with
  | .ok type => type != some .book
  | .error _ => false

/-- Everything worth saying about a specification. -/
def findings (spec : Specification) : List Warning :=
  spec.title.findings
  ++ repeatedAuthors [] spec.authors.members
  ++ spec.assessors.roleFindings
  ++ spec.publication.elim [] Publication.findings
  ++ spec.style.elim [] StyleBlock.findings
  ++ spec.body.findings
  ++ spec.bibliography.elim [] (fun b => b.sources.flatMap Source.findings)
  ++ ((spec.publication.bind (·.edition)).toList.flatMap fun l =>
    warnIf spec.isPaper (.found .paperEdition l.position))
  ++ warnIf spec.publication.isNone ⟨.noDate, none⟩
  ++ warnIf spec.body.blocks.isEmpty ⟨.noContent, none⟩

end Specification

end Manuscript
