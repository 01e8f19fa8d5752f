import Manuscript.Specification.Tree
import Manuscript.Text.Quoted

/-!
# Listing a specification

The tree of a specification on a few lines, one for each section, as the inspection command prints
it. Fields that were not declared are left out.
-/

namespace Manuscript

open Manuscript.Text (quoted quotedList joinWith)

/-- A name with its children between square brackets. -/
def bracketed (name : String) (children : List String) : String :=
  name ++ "[" ++ joinWith ", " children ++ "]"

/-- A name with its children between parentheses. -/
def parenthesized (name : String) (children : List String) : String :=
  name ++ "(" ++ joinWith ", " children ++ ")"

/-- The declared fields with their names. -/
def displayFields (fields : List (String × Option Literal)) : List String :=
  fields.filterMap fun (name, field) => field.map fun l => name ++ ": " ++ quoted l.value

/-! ## Title, people and publication -/

/-- A fragment of a title. -/
def TitleFragment.listing : TitleFragment → String
  | plain text => "Plain(" ++ quoted text.value ++ ")"
  | work title => "Cited(" ++ quoted title.value ++ ")"

/-- The title. -/
def Title.listing (t : Title) : String :=
  bracketed "Title" (t.fragments.map TitleFragment.listing)

/-- A person. -/
def Person.listing (p : Person) : String :=
  parenthesized "Person" (displayFields
    [("name", p.name), ("firstname", p.firstname), ("lastname", p.lastname), ("role", p.role),
      ("institution", p.institution)])

/-- The publication. -/
def Publication.listing (p : Publication) : String :=
  parenthesized "Publication" (displayFields p.fields)

/-! ## Style -/

/-- The numeration settings. The pages without a number come last. -/
def NumerationBlock.listing (b : NumerationBlock) : String :=
  let skip := b.skip.map (·.value)
  parenthesized "Numeration"
    (displayFields b.fields ++ if skip.isEmpty then [] else ["skip: " ++ quotedList skip])

/-- The style section. -/
def StyleBlock.listing (style : StyleBlock) : String :=
  let name (field : String) (l : Option Literal) := displayFields [(field, l)]
  parenthesized "Style"
    (name "of" style.base
      ++ (style.font.map fun b => parenthesized "Font" (displayFields b.fields)).toList
      ++ (style.layout.map fun b => parenthesized "Layout" (displayFields b.fields)).toList
      ++ (style.paragraph.map fun b => parenthesized "Paragraph" (displayFields b.fields)).toList
      ++ (style.sentence.map fun b => parenthesized "Sentence" (displayFields b.fields)).toList
      ++ (style.numeration.map NumerationBlock.listing).toList
      ++ (style.parts.map fun list =>
        parenthesized "Structure" (list.parts.map (·.value))).toList
      ++ name "citation" style.citation
      ++ (style.endnotes.map fun b => parenthesized "Endnotes" (displayFields b.fields)).toList)

/-! ## Content -/

/-- A run of a sentence. -/
def Run.listing : Run → String
  | text l => quoted l.value
  | emphasise l => "emphasise " ++ quoted l.value
  | bold l => "bold " ++ quoted l.value
  | work l => "work " ++ quoted l.value
  | quote l => "quote " ++ quoted l.value
  | note l => "note " ++ quoted l.value
  | citation source none => "citation " ++ quoted source.value
  | citation source (some page) =>
      "citation " ++ quoted source.value ++ " page " ++ quoted page.value

/-- A sentence. -/
def Sentence.listing (s : Sentence) : String :=
  parenthesized "Sentence" (s.runs.map Run.listing)

/-- An element of the running text. -/
def Element.listing : Element → String
  | chapter heading => "Chapter(" ++ quoted heading.value ++ ")"
  | content b => bracketed b.kind.name (b.sentences.map Sentence.listing)
  | header _ => "Header"
  | blank _ => "Blank"
  | image i => bracketed "Image" (displayFields i.fields)

/-- The content. -/
def Body.listing (b : Body) : String := bracketed "Body" (b.elements.map Element.listing)

/-! ## Bibliography -/

/-- A source. Its authors come first. -/
def Source.listing (s : Source) : String :=
  let authors := s.authors.map (·.value)
  parenthesized ("Source::" ++ s.kind.name)
    ((if authors.isEmpty then [] else ["author: " ++ quotedList authors])
      ++ displayFields s.fields)

/-- The bibliography. -/
def Bibliography.listing (b : Bibliography) : String :=
  bracketed "Bibliography" (b.sources.map Source.listing)

/-! ## The whole specification -/

/-- The specification, a section on each line. -/
def Specification.listing (spec : Specification) : String :=
  joinWith "\n"
    ((spec.version.map fun l => "Version(" ++ quoted l.value ++ ")").toList
      ++ (spec.documentType.map fun l => "Type(" ++ quoted l.value ++ ")").toList
      ++ [spec.title.listing, bracketed "Authors" (spec.authors.members.map Person.listing)]
      ++ (if spec.assessors.members.isEmpty then []
        else [bracketed "Assessors" (spec.assessors.members.map Person.listing)])
      ++ (spec.publication.map Publication.listing).toList
      ++ (spec.style.map StyleBlock.listing).toList
      ++ [spec.body.listing]
      ++ (spec.bibliography.map Bibliography.listing).toList)

end Manuscript
