import Manuscript.Grammar.Production
import Manuscript.Specification.Fields

/-!
# Lines and blocks

The productions that all sections are made of: texts, lists of texts, the ends of lines, and blocks
of indented lines. A block is opened by the keyword in front of it; its lines stand one level
deeper, and it is over at the first token of a lower depth.
-/

namespace Manuscript.Grammar

open Production

/-! ## Texts and lines -/

/-- A text, where the grammar asks for what `expected` says. -/
def literal (expected : String) : Production Literal := do
  match ← peekAt 0 with
  | some t =>
    if t.isText then
      skip
      return ⟨t.value, t.position⟩
    else refuse expected
  | none => refuse expected

/-- Texts with separators between them, after the texts read so far. -/
def moreLiterals (expected : String) (items : List Literal) : Production (List Literal) :=
  repeatWhile items (fun _ t => t.isSeparator) fun items _ => do
    return items ++ [← literal expected]

/-- One or more texts with separators between them. -/
def literals (expected : String) : Production (List Literal) := do
  moreLiterals expected [← literal expected]

/-- The end of a line, or of the source. -/
def lineEnd : Production Unit := do
  match ← peekAt 0 with
  | none => return ()
  | some t => if t.isLineEnd then skip else refuse "the end of the line"

/-- A text that is the last of its line. -/
def literalLine (expected : String) : Production Literal := do
  let l ← literal expected
  lineEnd
  return l

/-- Texts that are the last of their line. -/
def literalsLine (expected : String) : Production (List Literal) := do
  let ls ← literals expected
  lineEnd
  return ls

/-! ## Blocks -/

/-- The next line is indented deeper, so that the keyword in front of it opens a block. -/
def opensBlock : Production Bool := do
  match ← peekAt 0 with
  | some t =>
    if t.isLineEnd then
      match ← peekAt 1 with
      | some marker => return marker.isIndent
      | none => return false
    else return false
  | none => return false

/-- The line end and the indentation behind the keyword that opens a block. The value is the depth
of the block's lines. -/
def openBlock (opener : Token) : Production Nat := do
  let depth := opener.indent + 1
  let expected := "an indented block after `" ++ opener.value ++ "`"
  match ← peekAt 0 with
  | some t => if t.isLineEnd then skip else refuse expected
  | none => refuse expected
  match ← peekAt 0 with
  | some t => if t.isIndent && t.value == toString depth then skip else refuse expected
  | none => refuse expected
  return depth

/-- The lines of a block. Each line is read by `member` from its first token on, which was taken,
and adds to the state. -/
def block {σ : Type} (opener : Token) (state : σ) (member : σ → Token → Production σ) :
    Production σ := do
  let depth ← openBlock opener
  repeatWhile state (fun _ t => t.isIndent || depth ≤ t.indent) fun s t =>
    if t.isIndent then
      fail (.unexpected ("a line at indentation depth " ++ toString depth) t)
    else member s t

/-- The keyword that a line of a block starts with, if it is one of those that may stand there. -/
def memberKeyword (member : Token) (expected : String) (accepts : Keyword → Bool) :
    Production Keyword :=
  match member.keyword? with
  | some k => if accepts k then done k else fail (.unexpected expected member)
  | none => fail (.unexpected expected member)

/-- One more field, unless its keyword was declared before. -/
def addField (fields : Fields) (member : Token) (k : Keyword) (value : Literal) :
    Production Fields :=
  if fields.declares k then fail (.repeated member) else done (fields.add k value)

/-- The text after a field's keyword, as the rest of the line. -/
def fieldValue (k : Keyword) : Production Literal :=
  literalLine ("a text after `" ++ k.spelling ++ "`")

/-- A block of fields with the given keywords, each at most once. -/
def fieldBlock (opener : Token) (expected : String) (keywords : List Keyword) :
    Production Fields :=
  block opener [] fun fields member => do
    let k ← memberKeyword member expected keywords.contains
    addField fields member k (← fieldValue k)

end Manuscript.Grammar
