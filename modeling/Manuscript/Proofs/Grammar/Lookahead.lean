import Manuscript.Compilation.Compile

/-!
# Reading with lookahead

The parser with loops that take nothing by themselves: a section, a line of a block and a sentence
are handed a token that was only looked at, and have to take it. Nothing bounds these loops but
their own progress.

* `Reading`: what reads from a cursor and may halt, by an error or without progress.
* `rounds`: a loop. A round that neither stops the loop nor takes a token leaves the reading stuck,
  because nothing would keep the next round from doing the same.
* `block`, `sentenceLine`, `resynchronize` and `sections`: the loops of the parser.
* `parse`: what the parser gives.
-/

namespace Manuscript.Grammar

open Production

namespace Ahead

/-! ## Readings -/

/-- Why a reading halts. -/
inductive Halt where
  /-- An error stopped it. -/
  | stopped (stop : Stop)
  /-- A round of a loop went on without having taken a token. -/
  | stuck

/-- What reads from a cursor. -/
abbrev Reading : Type → Type := EStateM Halt Cursor

/-- What a production reads, if none of its loops hands out a token that was only looked at. -/
def lift {α : Type} (p : Production α) : Reading α := fun c =>
  match p.run c with
  | (.ok a, c) => .ok a c
  | (.error e, c) => .error (.stopped e) c

/-- The next token. -/
def shown : Reading (Option Token) := lift (peekAt 0)

/-- Take the next token. -/
def advance : Reading Unit := lift skip

/-- The next token, or the end of the source, is not what was expected. -/
def refused {α : Type} (expected : String) : Reading α := lift (refuse expected)

/-- Nothing can be read. -/
def failed {α : Type} (error : SyntaxError) : Reading α := lift (fail error)

/-- Round after round, until one stops. Each round that goes on must have taken a token. -/
def rounds {σ : Type} (round : σ → Reading (ForInStep σ)) (state : σ) (c : Cursor) :
    EStateM.Result Halt Cursor σ :=
  match round state c with
  | .error e c' => .error e c'
  | .ok (.done state') c' => .ok state' c'
  | .ok (.yield state') c' =>
    if c'.window.queue.length < c.window.queue.length then rounds round state' c'
    else .error .stuck c'
termination_by c.window.queue.length

/-- A loop whose state starts as given. -/
def loop {σ : Type} (state : σ) (round : σ → Reading (ForInStep σ)) : Reading σ :=
  rounds round state

/-- The outcome of a reading that may be stopped by a syntax error. -/
def outcome {α : Type} (r : Reading α) : Reading (Except SyntaxError α) := fun c =>
  match r c with
  | .ok a c => .ok (.ok a) c
  | .error (.stopped (.byGrammar e)) c => .ok (.error e) c
  | .error e c => .error e c

/-! ## Blocks -/

/-- The first token of the next line of a block, which is not taken; there is none behind the
block. -/
def nextMember (depth : Nat) : Reading (Option Token) := do
  match ← shown with
  | some t =>
    if t.isIndent then refused ("a line at indentation depth " ++ toString depth)
    else if depth ≤ t.indent then return some t
    else return none
  | none => return none

/-- The lines of a block. Each line is read by `member`, which is handed its first token and has to
take it. -/
def block {σ : Type} (opener : Token) (state : σ) (member : σ → Token → Reading σ) :
    Reading σ := do
  let depth ← lift (openBlock opener)
  loop state fun s => do
    match ← nextMember depth with
    | some t => return .yield (← member s t)
    | none => return .done s

/-- The keyword that a line of a block starts with, taken if it is one of those that may stand
there. -/
def memberKeyword (member : Token) (expected : String) (accepts : Keyword → Bool) :
    Reading Keyword := do
  let k ← lift (Grammar.memberKeyword member expected accepts)
  advance
  return k

/-- A block of fields with the given keywords, each at most once. -/
def fieldBlock (opener : Token) (expected : String) (keywords : List Keyword) : Reading Fields :=
  block opener [] fun fields member => do
    let k ← memberKeyword member expected keywords.contains
    lift (do addField fields member k (← fieldValue k))

/-! ## Sections about the document -/

/-- The fragments of a title: on one line, or a list of them on each line of a block. -/
def titleSection (opener : Token) : Reading (List TitleFragment) := do
  if ← lift opensBlock then
    block opener [] fun fragments _ => do
      let first ← lift fragment
      lift (do
        let fragments ← moreFragments (fragments ++ [first])
        lineEnd
        return fragments)
  else
    lift (do
      let fragments ← moreFragments [← fragment]
      lineEnd
      return fragments)

/-- Names on one line, or one person described field by field. -/
def peopleSection (opener : Token) : Reading (List Person) := do
  if ← lift opensBlock then
    let fields ← fieldBlock opener
      "a person field (name, firstname, lastname, role, institution)" Person.keywords
    return [Person.ofFields fields opener.position]
  else lift (do return (← literalsLine "a name").map Person.named)

/-- The publication details. -/
def publicationSection (opener : Token) : Reading Publication := do
  let fields ← fieldBlock opener
    "a publication field (title, venue, date, edition, institution, chair, semester)"
    Publication.keywords
  return Publication.ofFields fields opener.position

/-- A reading that is refused if what it declares was declared before. -/
def once {α β : Type} (declared : Option α) (member : Token) (r : Reading β) : Reading β :=
  if declared.isSome then failed (.repeated member) else r

/-- The settings of page numbers. -/
def numerationBlock (opener : Token) : Reading NumerationBlock := do
  let start : Fields × List Literal := ([], [])
  let keywords := Keyword.skip :: NumerationBlock.keywords
  let (fields, skip) ← block opener start fun (fields, skip) member => do
    let k ← memberKeyword member numerationMember keywords.contains
    lift (do
      if k = .skip then
        if skip.isEmpty then return (fields, ← literalsLine "a page or page span")
        else fail (.repeated member)
      else return (← addField fields member k (← fieldValue k), skip))
  return NumerationBlock.ofFields fields skip opener.position

/-- An order of parts: on one line, or a list of them on each line of a block. -/
def partList (opener : Token) : Reading PartList := do
  let expected := "a section name"
  if ← lift opensBlock then
    let parts ← block opener [] fun parts _ => do
      let first ← lift (literal expected)
      lift (do
        let parts ← moreLiterals expected (parts ++ [first])
        lineEnd
        return parts)
    return ⟨parts, opener.position⟩
  else lift (do return ⟨← literalsLine expected, opener.position⟩)

/-- One line of a style section behind its keyword, with the block that it may open. -/
def styleSetting (style : StyleBlock) (member : Token) (k : Keyword) : Reading StyleBlock := do
  match k with
  | .of => lift (do return { style with base := ← nameOnce style.base member })
  | .citation => lift (do return { style with citation := ← nameOnce style.citation member })
  | .font => once style.font member do
      let fields ← fieldBlock member "a font setting (name, size, colour)" FontBlock.keywords
      return { style with font := some (FontBlock.ofFields fields member.position) }
  | .layout => once style.layout member do
      let fields ← fieldBlock member "a layout setting (width, height, margin, spacing)"
        LayoutBlock.keywords
      return { style with layout := some (LayoutBlock.ofFields fields member.position) }
  | .paragraph => once style.paragraph member do
      let fields ← fieldBlock member "a paragraph setting (indentation)" ParagraphBlock.keywords
      return { style with paragraph := some (ParagraphBlock.ofFields fields member.position) }
  | .sentence => once style.sentence member do
      let fields ← fieldBlock member "a sentence setting (prefix, whitespace, bold, italic)"
        SentenceBlock.keywords
      return { style with sentence := some (SentenceBlock.ofFields fields member.position) }
  | .numeration => once style.numeration member do
      return { style with numeration := some (← numerationBlock member) }
  | .sectionOrder => once style.parts member do
      return { style with parts := some (← partList member) }
  | .endnotes => once style.endnotes member do
      let fields ← fieldBlock member "an endnotes setting (allow, before)" EndnotesBlock.keywords
      return { style with endnotes := some (EndnotesBlock.ofFields fields member.position) }
  | _ => failed (.unexpected styleMember member)

/-- The style: the name of a guide on one line, or a block of settings. -/
def styleSection (opener : Token) : Reading StyleBlock := do
  if ← lift opensBlock then
    block opener { position := opener.position } fun style member => do
      styleSetting style member (← memberKeyword member styleMember styleKeywords.contains)
  else lift (do return StyleBlock.named (← literalLine "a style name"))

/-! ## Sections of content -/

/-- One token of a sentence, with what belongs to it. The end of the line is the last one. -/
def sentenceRound (runs : List Run) : Reading (ForInStep (List Run)) := do
  match ← shown with
  | none => return .done runs
  | some t =>
    if t.isLineEnd then
      advance
      return .done runs
    else if t.isSeparator then
      advance
      return .yield runs
    else if t.isText then
      return .yield (runs ++ [.text (← lift (literal "a text"))])
    else
      match t.keyword? with
      | some k =>
        if k.opensRun then
          advance
          return .yield (runs ++ [← lift (runOf k)])
        else failed (.unexpected sentenceContent t)
      | none => failed (.unexpected sentenceContent t)

/-- The sentence that begins with a token that was looked at, up to the end of its line. -/
def sentenceLine (first : Token) : Reading Sentence := do
  let runs ← loop [] sentenceRound
  if runs.isEmpty then failed (.unexpected sentenceContent first)
  else return ⟨runs, first.position⟩

/-- One sentence on the line of the keyword, or one on each line of a block. -/
def contentSection (kind : ContentKind) (opener : Token) : Reading ContentBlock := do
  if ← lift opensBlock then
    let sentences ← block opener [] fun sentences first => do
      return sentences ++ [← sentenceLine first]
    return ⟨kind, sentences, opener.position⟩
  else
    match ← shown with
    | some first => return ⟨kind, [← sentenceLine first], opener.position⟩
    | none => refused sentenceContent

/-- An image: its values on one line, or a block of fields. -/
def imageSection (opener : Token) : Reading Image := do
  if ← lift opensBlock then
    let fields ← fieldBlock opener "an image setting (id, width, height, size, display)"
      Image.keywords
    return Image.ofFields fields opener.position
  else
    lift (do
      match Image.ofValues? opener.position (← literals "an image id") with
      | some image =>
        lineEnd
        return image
      | none => fail (.imageValues opener))

/-- The fields of a source; its authors are a list on one line. -/
def source (kind : SourceKind) (opener : Token) : Reading Source := do
  let expected := "a field of a " ++ kind.name ++ " source"
  let (authors, fields) ← block opener (([], []) : List Literal × Fields)
    fun (authors, fields) member => do
      let k ← memberKeyword member expected kind.accepts
      lift (do
        if k = .author then
          if authors.isEmpty then return (← literalsLine "an author name", fields)
          else fail (.repeated member)
        else return (authors, ← addField fields member k (← fieldValue k)))
  return Source.ofFields kind authors fields opener.position

/-- The sources of a bibliography, one block each. -/
def bibliographySection (opener : Token) : Reading (List Source) :=
  block opener [] fun sources member => do
    let k ← memberKeyword member sourceMember fun k => (SourceKind.ofKeyword? k).isSome
    match SourceKind.ofKeyword? k with
    | some kind => return sources ++ [← source kind member]
    | none => failed (.unexpected sourceMember member)

/-! ## The whole source -/

/-- The rest of a section behind its keyword. A section that is one line is read by its
production. -/
def sectionBody (first : Bool) (k : Keyword) (opener : Token) : Reading Declaration := do
  match k with
  | .title => return .title (← titleSection opener) opener.position
  | .author => return .authors (← peopleSection opener) opener.position
  | .assessor => return .assessors (← peopleSection opener) opener.position
  | .publication => return .publication (← publicationSection opener)
  | .style => return .style (← styleSection opener)
  | .paragraph => return .element (.content (← contentSection .paragraph opener))
  | .abstract => return .element (.content (← contentSection .abstract opener))
  | .preface => return .element (.content (← contentSection .preface opener))
  | .acknowledgements => return .element (.content (← contentSection .acknowledgements opener))
  | .appendix => return .element (.content (← contentSection .appendix opener))
  | .bibliography => return .bibliography (← bibliographySection opener) opener.position
  | .image => return .element (.image (← imageSection opener))
  | k => lift (Grammar.sectionBody first k opener)

/-- The section that begins with a token that was looked at. -/
def sectionFrom (seen : List Keyword) (first : Bool) (opener : Token) : Reading Declaration :=
  match sectionKeyword? opener with
  | none => refused "a section keyword at the start of a line"
  | some k => do
    advance
    if !k.isRepeatable && seen.contains k then failed (.repeatedSection k opener)
    else sectionBody first k opener

/-- A token at which the next section may begin behind a broken one. -/
def stops (start : Position) (atLineStart : Bool) (t : Token) : Bool :=
  atLineStart && t.isKeyword && t.indent == 0 && t.position != start

/-- Skip to the next line that starts with a keyword at depth 0, but not to the token that the
broken section itself started with. -/
def resynchronize (start : Position) : Reading Unit :=
  loop () fun _ => do
    match ← shown with
    | some t =>
      if stops start (← lift (atLineStart done)) t then return .done ()
      else
        advance
        return .yield ()
    | none => return .done ()

/-- One section, with what is skipped behind one that is broken. -/
def step (progress : Progress) (t : Token) : Reading Progress := do
  let seen := seenAfter progress.seen t
  match ← outcome (sectionFrom progress.seen progress.declarations.isEmpty t) with
  | .ok d => return { progress with declarations := progress.declarations ++ [d], seen }
  | .error e =>
    resynchronize t.position
    return { progress with errors := progress.errors ++ [e], seen }

/-- Every section up to the end of the source. -/
def sections : Reading Progress :=
  loop {} fun progress => do
    match ← shown with
    | some t => return .yield (← step progress t)
    | none => return .done progress

/-- What a source declares, or every error in it. -/
def parse : Reading (Except Failure Specification) := do
  let progress ← sections
  if progress.errors.isEmpty then return .ok (.ofDeclarations progress.declarations)
  else return .error (.grammar progress.errors)

end Ahead

end Manuscript.Grammar
