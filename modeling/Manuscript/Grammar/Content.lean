import Manuscript.Grammar.Block
import Manuscript.Specification.Tree

/-!
# Sections of content

Sentences, images and the bibliography. A block of sentences has one sentence a line; a single
sentence may stand on the line of its keyword.
-/

namespace Manuscript.Grammar

open Production

/-! ## Sentences -/

/-- What a sentence is made of, as messages say it. -/
def sentenceContent : String :=
  "sentence content (a text, emphasise, bold, work, quote, note or citation)"

/-- The runs of a line, and whether the end of the line was met. -/
structure SentenceLine where
  runs : List Run := []
  ended : Bool := false

/-- The page of a citation, if one follows. -/
def citedPage : Production (Option Literal) := do
  match ← peekAt 0 with
  | some t =>
    if t.keyword? = some .page then
      skip
      return some (← literal "a page after `page`")
    else return none
  | none => return none

/-- The run that a keyword introduces. -/
def runOf (k : Keyword) : Production Run := do
  let value ← literal ("a text after `" ++ k.spelling ++ "`")
  match k with
  | .emphasise => return .emphasise value
  | .bold => return .bold value
  | .work => return .work value
  | .quote => return .quote value
  | .note => return .note value
  | _ => return .citation value (← citedPage)

/-- What a token that was taken adds to a sentence. Separators between runs say nothing. -/
def sentenceStep (line : SentenceLine) (t : Token) : Production SentenceLine :=
  if t.isLineEnd then done { line with ended := true }
  else if t.isSeparator then done line
  else if t.isText then done { line with runs := line.runs ++ [.text ⟨t.value, t.position⟩] }
  else
    match t.keyword? with
    | some k =>
      if k.opensRun then do
        return { line with runs := line.runs ++ [← runOf k] }
      else fail (.unexpected sentenceContent t)
    | none => fail (.unexpected sentenceContent t)

/-- The sentence that begins with a token that was taken, up to the end of its line. -/
def sentenceFrom (first : Token) : Production Sentence := do
  let line ← repeatWhile (← sentenceStep {} first) (fun line _ => !line.ended) sentenceStep
  if line.runs.isEmpty then fail (.unexpected sentenceContent first)
  else return ⟨line.runs, first.position⟩

/-- One sentence on the line of the keyword, or one on each line of a block. -/
def contentSection (kind : ContentKind) (opener : Token) : Production ContentBlock := do
  if ← opensBlock then
    let sentences ← block opener [] fun sentences first => do
      return sentences ++ [← sentenceFrom first]
    return ⟨kind, sentences, opener.position⟩
  else
    match ← peekAt 0 with
    | some first =>
      skip
      return ⟨kind, [← sentenceFrom first], opener.position⟩
    | none => refuse sentenceContent

/-! ## Images -/

/-- An image: its values on one line, or a block of fields. -/
def imageSection (opener : Token) : Production Image := do
  if ← opensBlock then
    let fields ← fieldBlock opener "an image setting (id, width, height, size, display)"
      Image.keywords
    return Image.ofFields fields opener.position
  else
    match Image.ofValues? opener.position (← literals "an image id") with
    | some image =>
      lineEnd
      return image
    | none => fail (.imageValues opener)

/-! ## Bibliography -/

/-- What a line of a bibliography is called in messages. -/
def sourceMember : String := "a source kind (book, music, periodical, poem, videogame, webpage)"

/-- The fields of a source; its authors are a list on one line. -/
def source (kind : SourceKind) (opener : Token) : Production Source := do
  let expected := "a field of a " ++ kind.name ++ " source"
  let (authors, fields) ← block opener (([], []) : List Literal × Fields)
    fun (authors, fields) member => do
      let k ← memberKeyword member expected kind.accepts
      if k = .author then
        if authors.isEmpty then return (← literalsLine "an author name", fields)
        else fail (.repeated member)
      else return (authors, ← addField fields member k (← fieldValue k))
  return Source.ofFields kind authors fields opener.position

/-- The sources of a bibliography, one block each. -/
def bibliographySection (opener : Token) : Production (List Source) :=
  block opener [] fun sources member => do
    let k ← memberKeyword member sourceMember fun k => (SourceKind.ofKeyword? k).isSome
    match SourceKind.ofKeyword? k with
    | some kind => return sources ++ [← source kind member]
    | none => fail (.unexpected sourceMember member)

end Manuscript.Grammar
