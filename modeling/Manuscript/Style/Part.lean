/-!
# Parts of a document

Apart from its body, a document is made of parts: the title page, the abstract, the bibliography and
so on. Parts in front of the body are front matter, parts behind it are back matter.
-/

namespace Manuscript

/-- A part of a document other than its body. -/
inductive Part where
  | titlePage
  | abstract
  | preface
  | acknowledgements
  | tableOfContents
  | tables
  | figures
  | abbreviations
  | glossary
  | appendix
  | endnotes
  | bibliography
  | blankPage
  | academicIntegrity
deriving DecidableEq

namespace Part

/-- Every part. -/
def all : List Part :=
  [titlePage, abstract, preface, acknowledgements, tableOfContents, tables, figures,
    abbreviations, glossary, appendix, endnotes, bibliography, blankPage, academicIntegrity]

/-- The spelling of a part in a specification and in messages. -/
def name : Part → String
  | titlePage => "titlepage"
  | abstract => "abstract"
  | preface => "preface"
  | acknowledgements => "acknowledgements"
  | tableOfContents => "tableofcontents"
  | tables => "tables"
  | figures => "figures"
  | abbreviations => "abbreviations"
  | glossary => "glossary"
  | appendix => "appendix"
  | endnotes => "endnotes"
  | bibliography => "bibliography"
  | blankPage => "blankpage"
  | academicIntegrity => "academicintegrity"

/-- The spelling of a part in a finished document. -/
def tag : Part → String
  | titlePage => "title_page"
  | tableOfContents => "table_of_contents"
  | blankPage => "blank_page"
  | academicIntegrity => "academic_integrity"
  | other => other.name

/-- The heading of a part, unless the style guide has another one for it. -/
def heading : Part → Option String
  | titlePage | blankPage => none
  | abstract => some "Abstract"
  | preface => some "Preface"
  | acknowledgements => some "Acknowledgements"
  | tableOfContents => some "Table of Contents"
  | tables => some "List of Tables"
  | figures => some "List of Figures"
  | abbreviations => some "List of Abbreviations"
  | glossary => some "Glossary"
  | appendix => some "Appendix"
  | endnotes => some "Notes"
  | bibliography => some "Bibliography"
  | academicIntegrity => some "Declaration of Academic Integrity"

/-- The part stands behind the body. -/
def isBackMatter : Part → Bool
  | appendix | endnotes | bibliography | academicIntegrity => true
  | _ => false

/-- The pages of the part carry the numbers of the front matter. -/
def isFrontMatter (p : Part) : Bool := !p.isBackMatter && p != blankPage

/-- The part may stand more than once. Only blank pages may. -/
def isRepeatable (p : Part) : Bool := p == blankPage

end Part

end Manuscript
