import Manuscript.Grammar.Block
import Manuscript.Specification.Tree

/-!
# Sections about the document

The title, the people, the publication and the style. Most of them are a text on the line of their
keyword, or a block of fields below it.
-/

namespace Manuscript.Grammar

open Production

/-! ## Title -/

/-- What a fragment of a title is called in messages. -/
def titleFragment : String := "a title text or `work`"

/-- The token is one that a fragment of a title begins with. -/
def beginsFragment (t : Token) : Bool := t.isText || t.keyword? == some .work

/-- The fragment that begins with a token that was taken. -/
def fragmentFrom (first : Token) : Production TitleFragment :=
  if first.isText then done (.plain ⟨first.value, first.position⟩)
  else if first.keyword? = some .work then do
    return .work (← literal "the title of the cited work")
  else fail (.unexpected titleFragment first)

/-- A fragment of a title. -/
def fragment : Production TitleFragment := do
  match ← peekAt 0 with
  | some t =>
    if beginsFragment t then
      skip
      fragmentFrom t
    else refuse titleFragment
  | none => refuse titleFragment

/-- Fragments with separators between them, after those read so far. -/
def moreFragments (fragments : List TitleFragment) : Production (List TitleFragment) :=
  repeatWhile fragments (fun _ t => t.isSeparator) fun fragments _ => do
    return fragments ++ [← fragment]

/-- The fragments of a title: on one line, or a list of them on each line of a block. -/
def titleSection (opener : Token) : Production (List TitleFragment) := do
  if ← opensBlock then
    block opener [] fun fragments first => do
      let fragments ← moreFragments (fragments ++ [← fragmentFrom first])
      lineEnd
      return fragments
  else
    let fragments ← moreFragments [← fragment]
    lineEnd
    return fragments

/-! ## People and publication -/

/-- Names on one line, or one person described field by field. -/
def peopleSection (opener : Token) : Production (List Person) := do
  if ← opensBlock then
    let fields ← fieldBlock opener
      "a person field (name, firstname, lastname, role, institution)" Person.keywords
    return [Person.ofFields fields opener.position]
  else return (← literalsLine "a name").map Person.named

/-- The publication details. -/
def publicationSection (opener : Token) : Production Publication := do
  let fields ← fieldBlock opener
    "a publication field (title, venue, date, edition, institution, chair, semester)"
    Publication.keywords
  return Publication.ofFields fields opener.position

/-! ## Style -/

/-- What a line of a style section is called in messages. -/
def styleMember : String :=
  "a style setting (of, font, layout, paragraph, sentence, numeration, structure, citation, " ++
    "endnotes)"

/-- The keywords that a line of a style section may start with. -/
def styleKeywords : List Keyword :=
  [.of, .font, .layout, .paragraph, .sentence, .numeration, .sectionOrder, .citation, .endnotes]

/-- A production that is refused if what it declares was declared before. -/
def once {α β : Type} (declared : Option α) (member : Token) (p : Production β) : Production β :=
  if declared.isSome then fail (.repeated member) else p

/-- A text that is refused, once it was read, if it was declared before. -/
def nameOnce (declared : Option Literal) (member : Token) : Production (Option Literal) := do
  let name ← literalLine "a style name"
  if declared.isSome then fail (.repeated member) else return some name

/-- What a line of a numeration block is called in messages. -/
def numerationMember : String := "a numeration setting (type, display, margin, skip)"

/-- The settings of page numbers. -/
def numerationBlock (opener : Token) : Production NumerationBlock := do
  let start : Fields × List Literal := ([], [])
  let keywords := Keyword.skip :: NumerationBlock.keywords
  let (fields, skip) ← block opener start fun (fields, skip) member => do
    let k ← memberKeyword member numerationMember keywords.contains
    if k = .skip then
      if skip.isEmpty then return (fields, ← literalsLine "a page or page span")
      else fail (.repeated member)
    else return (← addField fields member k (← fieldValue k), skip)
  return NumerationBlock.ofFields fields skip opener.position

/-- An order of parts: on one line, or a list of them on each line of a block. -/
def partList (opener : Token) : Production PartList := do
  let expected := "a section name"
  if ← opensBlock then
    let parts ← block opener [] fun parts first => do
      if first.isText then
        let parts ← moreLiterals expected (parts ++ [⟨first.value, first.position⟩])
        lineEnd
        return parts
      else fail (.unexpected expected first)
    return ⟨parts, opener.position⟩
  else return ⟨← literalsLine expected, opener.position⟩

/-- One line of a style section, with the block that it may open. -/
def styleLine (style : StyleBlock) (member : Token) : Production StyleBlock := do
  match ← memberKeyword member styleMember styleKeywords.contains with
  | .of => return { style with base := ← nameOnce style.base member }
  | .citation => return { style with citation := ← nameOnce style.citation member }
  | .font => once style.font member do
      let fields ← fieldBlock member "a font setting (name, size, colour)" FontBlock.keywords
      return { style with font := some (FontBlock.ofFields fields member.position) }
  | .layout => once style.layout member do
      let fields ← fieldBlock member "a layout setting (width, height, margin, spacing)"
        LayoutBlock.keywords
      return { style with layout := some (LayoutBlock.ofFields fields member.position) }
  | .paragraph => once style.paragraph member do
      let fields ← fieldBlock member "a paragraph setting (indentation)" ParagraphBlock.keywords
      return { style with paragraph := some (ParagraphBlock.ofFields fields member.position) }
  | .sentence => once style.sentence member do
      let fields ← fieldBlock member "a sentence setting (prefix, whitespace, bold, italic)"
        SentenceBlock.keywords
      return { style with sentence := some (SentenceBlock.ofFields fields member.position) }
  | .numeration => once style.numeration member do
      return { style with numeration := some (← numerationBlock member) }
  | .sectionOrder => once style.parts member do
      return { style with parts := some (← partList member) }
  | .endnotes => once style.endnotes member do
      let fields ← fieldBlock member "an endnotes setting (allow, before)" EndnotesBlock.keywords
      return { style with endnotes := some (EndnotesBlock.ofFields fields member.position) }
  | _ => fail (.unexpected styleMember member)

/-- The style: the name of a guide on one line, or a block of settings. -/
def styleSection (opener : Token) : Production StyleBlock := do
  if ← opensBlock then block opener { position := opener.position } styleLine
  else return StyleBlock.named (← literalLine "a style name")

end Manuscript.Grammar
