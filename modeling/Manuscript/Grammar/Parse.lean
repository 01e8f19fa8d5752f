import Manuscript.Grammar.Settings
import Manuscript.Grammar.Content

/-!
# Parsing a source

A source is a sequence of sections. A section that does not follow the grammar is reported, and
reading goes on at the next line that starts with a keyword at depth 0, so that one pass reports
every broken section. A lexical error ends the pass, because there are no tokens behind it.
-/

namespace Manuscript.Grammar

open Production

/-! ## Sections -/

/-- The keyword of a token that may open a section. -/
def sectionKeyword? (t : Token) : Option Keyword :=
  t.keyword?.filter fun k => k.opensSection && t.indent == 0

/-- The keywords of sections that may stand once and were met, after one more section began. -/
def seenAfter (seen : List Keyword) (t : Token) : List Keyword :=
  match sectionKeyword? t with
  | some k => if k.isRepeatable || seen.contains k then seen else k :: seen
  | none => seen

/-- The rest of a section behind its keyword. `first` says that no section was read before it. -/
def sectionBody (first : Bool) (k : Keyword) (opener : Token) : Production Declaration := do
  match k with
  | .version =>
    if first then return .version (← literalLine "a version text") else fail (.lateVersion opener)
  | .type => return .documentType (← literalLine "a document type")
  | .title => return .title (← titleSection opener) opener.position
  | .author => return .authors (← peopleSection opener) opener.position
  | .assessor => return .assessors (← peopleSection opener) opener.position
  | .publication => return .publication (← publicationSection opener)
  | .style => return .style (← styleSection opener)
  | .chapter => return .element (.chapter (← literalLine "a chapter heading"))
  | .paragraph => return .element (.content (← contentSection .paragraph opener))
  | .abstract => return .element (.content (← contentSection .abstract opener))
  | .preface => return .element (.content (← contentSection .preface opener))
  | .acknowledgements => return .element (.content (← contentSection .acknowledgements opener))
  | .appendix => return .element (.content (← contentSection .appendix opener))
  | .bibliography => return .bibliography (← bibliographySection opener) opener.position
  | .header =>
    lineEnd
    return .element (.header opener.position)
  | .blank =>
    lineEnd
    return .element (.blank opener.position)
  | .image => return .element (.image (← imageSection opener))
  | _ => fail (.unexpected "a section keyword" opener)

/-- The section that begins with a token that was taken. -/
def sectionFrom (seen : List Keyword) (first : Bool) (opener : Token) : Production Declaration :=
  match sectionKeyword? opener with
  | none => fail (.unexpected "a section keyword at the start of a line" opener)
  | some k =>
    if !k.isRepeatable && seen.contains k then fail (.repeatedSection k opener)
    else sectionBody first k opener

/-! ## The whole source -/

/-- Skip to the next line that starts with a keyword at depth 0, but not to the token that the
broken section itself started with. -/
def resynchronize (start : Position) : Production Unit :=
  atLineStart fun atStart => do
    let stopsAt (atStart : Bool) (t : Token) : Bool :=
      atStart && t.isKeyword && t.indent == 0 && t.position != start
    let _ ← repeatWhile atStart (fun atStart t => !stopsAt atStart t) fun _ t => done t.isLineEnd

/-- What was read so far. -/
structure Progress where
  /-- The declarations of the sections that follow the grammar. -/
  declarations : List Declaration := []
  /-- The errors of the others. -/
  errors : List SyntaxError := []
  /-- The keywords of sections that may stand once and were met. -/
  seen : List Keyword := []
deriving DecidableEq

/-- One section, from its first token on, which was taken. -/
def step (progress : Progress) (t : Token) : Production Progress := do
  let seen := seenAfter progress.seen t
  match ← outcome (sectionFrom progress.seen progress.declarations.isEmpty t) with
  | .ok d => return { progress with declarations := progress.declarations ++ [d], seen }
  | .error e =>
    resynchronize t.position
    return { progress with errors := progress.errors ++ [e], seen }

/-- Every section up to the end of the source. -/
def sections : Production Progress := repeatWhile {} (fun _ _ => true) step

end Manuscript.Grammar
