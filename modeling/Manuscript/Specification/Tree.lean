import Manuscript.Specification.Title
import Manuscript.Specification.People
import Manuscript.Specification.Publication
import Manuscript.Specification.StyleBlock
import Manuscript.Specification.Body
import Manuscript.Specification.Source

/-!
# Specifications

A specification is everything that a source declares: who wrote what, how it is to look, and the
text itself. It is put together from declarations, one for each section of the source.
-/

namespace Manuscript

/-- All that a source declares. -/
structure Specification where
  version : Option Literal := none
  documentType : Option Literal := none
  title : Title := {}
  authors : People := {}
  assessors : People := {}
  publication : Option Publication := none
  style : Option StyleBlock := none
  body : Body := {}
  bibliography : Option Bibliography := none
deriving DecidableEq

/-- What one section of a source declares. -/
inductive Declaration where
  | version (text : Literal)
  | documentType (text : Literal)
  | title (fragments : List TitleFragment) (position : Position)
  | authors (members : List Person) (position : Position)
  | assessors (members : List Person) (position : Position)
  | publication (publication : Publication)
  | style (style : StyleBlock)
  | element (element : Element)
  | bibliography (sources : List Source) (position : Position)
deriving DecidableEq

namespace Specification

/-- The specification with one more declaration. -/
def declare (spec : Specification) : Declaration → Specification
  | .version text => { spec with version := some text }
  | .documentType text => { spec with documentType := some text }
  | .title fragments position => { spec with title := ⟨fragments, some position⟩ }
  | .authors members position => { spec with authors := spec.authors.join members position }
  | .assessors members position => { spec with assessors := spec.assessors.join members position }
  | .publication publication => { spec with publication := some publication }
  | .style style => { spec with style := some style }
  | .element element => { spec with body := ⟨spec.body.elements ++ [element]⟩ }
  | .bibliography sources position =>
      { spec with bibliography := some ⟨sources, some position⟩ }

/-- The specification that a list of declarations amounts to. -/
def ofDeclarations (ds : List Declaration) : Specification := ds.foldl declare {}

end Specification

end Manuscript
