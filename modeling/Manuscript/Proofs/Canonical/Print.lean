import Manuscript.Proofs.Canonical.Tree
import Manuscript.Proofs.Specification.Unplaced

/-!
# The canonical form of a specification

How a specification is written down again: the version first, one section for each thing that was
declared, blocks of fields where there are any, a sentence on each line.

* `Specification.canonical` is the text.
* `unplaced_declarations`: the sections that are written declare the specification, up to positions.
-/

namespace Manuscript

/-- The keyword that opens a source of a kind. -/
def SourceKind.keyword : SourceKind → Keyword
  | book => .book
  | music => .music
  | periodical => .periodical
  | poem => .poem
  | videogame => .videogame
  | webpage => .webpage

namespace Canonical

/-! ## Lines of fields and lists -/

/-- The line of a field. -/
def fieldTree (f : Keyword × Literal) : Tree := .line (.word f.1) [.text f.2.value] []

/-- A keyword with a block below it. -/
def blockTree (k : Keyword) (below : List Tree) : Tree := .line (.word k) [] below

/-- A keyword with the fields of a record below it. -/
def recordTree {α : Type} [Fielded α] (k : Keyword) (a : α) : Tree :=
  blockTree k ((Fielded.declared a).map fieldTree)

/-- The items of a list, with commas between them. -/
def separated : List (List Lexeme) → List Lexeme
  | [] => []
  | x :: xs => x ++ xs.flatMap fun y => .comma :: y

/-- Texts with commas between them. -/
def listLexemes (ls : List Literal) : List Lexeme := separated (ls.map fun l => [.text l.value])

/-- A list of texts behind a keyword, if there are any. -/
def listTrees (k : Keyword) (ls : List Literal) : List Tree :=
  if ls.isEmpty then [] else [.line (.word k) (listLexemes ls) []]

/-! ## Sections -/

/-- A fragment of a title. -/
def fragmentLexemes : TitleFragment → List Lexeme
  | .plain text => [.text text.value]
  | .work title => [.word .work, .text title.value]

/-- The settings of page numbers. -/
def numerationTree (b : NumerationBlock) : Tree :=
  blockTree .numeration ((Fielded.declared b).map fieldTree ++ listTrees .skip b.skip)

/-- The settings of a style section. -/
def styleTrees (s : StyleBlock) : List Tree :=
  (s.base.map fun l => fieldTree (.of, l)).toList
    ++ (s.font.map (recordTree .font)).toList
    ++ (s.layout.map (recordTree .layout)).toList
    ++ (s.paragraph.map (recordTree .paragraph)).toList
    ++ (s.sentence.map (recordTree .sentence)).toList
    ++ (s.numeration.map numerationTree).toList
    ++ (s.parts.map fun l => .line (.word .sectionOrder) (listLexemes l.parts) []).toList
    ++ (s.citation.map fun l => fieldTree (.citation, l)).toList
    ++ (s.endnotes.map (recordTree .endnotes)).toList

/-- A run of a sentence. -/
def runLexemes : Run → List Lexeme
  | .text l => [.text l.value]
  | .emphasise l => [.word .emphasise, .text l.value]
  | .bold l => [.word .bold, .text l.value]
  | .work l => [.word .work, .text l.value]
  | .quote l => [.word .quote, .text l.value]
  | .note l => [.word .note, .text l.value]
  | .citation source none => [.word .citation, .text source.value]
  | .citation source (some page) =>
    [.word .citation, .text source.value, .word .page, .text page.value]

/-- The line of a sentence. A sentence without runs, which the grammar does not have, is an empty
text. -/
def sentenceTree (s : Sentence) : Tree :=
  match s.runs.flatMap runLexemes with
  | [] => .line (.text "") [] []
  | x :: xs => .line x xs []

/-- An element of the running text. -/
def elementTree : Element → Tree
  | .chapter heading => fieldTree (.chapter, heading)
  | .content block => blockTree block.kind.keyword (block.sentences.map sentenceTree)
  | .header _ => blockTree .header []
  | .blank _ => blockTree .blank []
  | .image i => recordTree .image i

/-- A source with its authors and its fields. -/
def sourceTree (s : Source) : Tree :=
  blockTree s.kind.keyword (listTrees .author s.authors ++ (Fielded.declared s).map fieldTree)

/-- A section. People are written in one section each. -/
def declarationTree : Declaration → Tree
  | .version text => fieldTree (.version, text)
  | .documentType text => fieldTree (.type, text)
  | .title fragments _ => .line (.word .title) (separated (fragments.map fragmentLexemes)) []
  | .authors members _ =>
    blockTree .author (members.flatMap fun p => (Fielded.declared p).map fieldTree)
  | .assessors members _ =>
    blockTree .assessor (members.flatMap fun p => (Fielded.declared p).map fieldTree)
  | .publication p => recordTree .publication p
  | .style s => blockTree .style (styleTrees s)
  | .element e => elementTree e
  | .bibliography sources _ => blockTree .bibliography (sources.map sourceTree)

end Canonical

/-! ## The whole specification -/

theorem foldl_concat {α β : Type} (f : α → β) (as : List α) (bs : List β) :
    as.foldl (fun bs a => bs ++ [f a]) bs = bs ++ as.map f := by
  rw [List.foldl_append_eq_append, ← List.flatMap_def, ← List.map_eq_flatMap]

theorem foldl_toList {α β : Type} (f : α → β) (o : Option α) :
    o.toList.foldl (fun _ a => some (f a)) none = o.map f := by
  cases o <;> rfl

namespace Specification

open Canonical

/-- The sections of the canonical form, in order. -/
def declarations (spec : Specification) : List Declaration :=
  spec.version.toList.map .version
    ++ spec.documentType.toList.map .documentType
    ++ (if spec.title.fragments.isEmpty then [] else [.title spec.title.fragments .origin])
    ++ spec.authors.members.map (fun p => .authors [p] .origin)
    ++ spec.assessors.members.map (fun p => .assessors [p] .origin)
    ++ spec.publication.toList.map .publication
    ++ spec.style.toList.map .style
    ++ spec.body.elements.map .element
    ++ spec.bibliography.toList.map fun b => .bibliography b.sources .origin

/-- The canonical form of a specification. -/
def canonical (spec : Specification) : String :=
  String.ofList ((linesOf 0 (spec.declarations.map declarationTree)).flatMap Line.chars)

/-! ### Declaring the sections again -/

/-- The sections of some values go into one field, which is read by `get` and replaced by `set`.
What a section does to the field is `add`. Positions are left out. -/
structure FillsField {α β : Type} (wrap : α → Declaration) (get : Specification → β)
    (set : Specification → β → Specification) (add : β → α → β) : Prop where
  declare : ∀ (spec : Specification) a,
      (spec.declare (wrap a)).unplaced = set spec.unplaced (add (get spec.unplaced) a) := by
    intro spec a
    rfl
  keep : ∀ spec : Specification, set spec.unplaced (get spec.unplaced) = spec.unplaced := by
    intro spec
    rfl
  read : ∀ spec b, get (set spec b) = b := by
    intro spec b
    rfl
  replace : ∀ spec b b', set (set spec b) b' = set spec b' := by
    intro spec b b'
    rfl

/-- Sections that go into one field, one behind the other. -/
theorem FillsField.foldl {α β : Type} {wrap : α → Declaration} {get : Specification → β}
    {set : Specification → β → Specification} {add : β → α → β} (h : FillsField wrap get set add)
    (as : List α) (spec : Specification) :
    ((as.map wrap).foldl Specification.declare spec).unplaced
      = set spec.unplaced (as.foldl add (get spec.unplaced)) := by
  induction as generalizing spec with
  | nil => exact (h.keep spec).symm
  | cons a as ih =>
    rw [List.map_cons, List.foldl_cons, List.foldl_cons, ih, h.declare, h.read, h.replace]

variable (spec : Specification)

/-- A title is written if it has fragments. -/
theorem unplaced_foldl_title (fragments : List TitleFragment) :
    ((if fragments.isEmpty then [] else [.title fragments .origin]).foldl declare spec).unplaced
      = { spec.unplaced with
          title := if fragments.isEmpty then spec.unplaced.title
            else ⟨fragments.map TitleFragment.unplaced, none⟩ } := by
  split_ifs
  · rfl
  · rfl

/-- What was declared is declared again, up to positions. -/
theorem unplaced_declarations : (ofDeclarations spec.declarations).unplaced = spec.unplaced := by
  -- a value that is there is written once
  have hversion : FillsField .version (·.version) (fun s v => { s with version := v })
    fun _ l => some l.unplaced := {}
  have htype : FillsField .documentType (·.documentType) (fun s t => { s with documentType := t })
    fun _ l => some l.unplaced := {}
  have hpublication : FillsField .publication (·.publication)
    (fun s p => { s with publication := p }) fun _ p => some p.unplaced := {}
  have hstyle : FillsField .style (·.style) (fun s b => { s with style := b })
    fun _ b => some b.unplaced := {}
  have hbibliography : FillsField (fun b : Bibliography => .bibliography b.sources .origin)
    (·.bibliography) (fun s b => { s with bibliography := b }) fun _ b => some b.unplaced := {}
  -- people and elements are written one by one
  have hauthors : FillsField (fun p => .authors [p] .origin) (·.authors.members)
      (fun s ms => { s with authors := ⟨ms, none⟩ }) fun ms p => ms ++ [p.unplaced] :=
    { declare := by simp [unplaced, declare, People.unplaced, People.join] }
  have hassessors : FillsField (fun p => .assessors [p] .origin) (·.assessors.members)
      (fun s ms => { s with assessors := ⟨ms, none⟩ }) fun ms p => ms ++ [p.unplaced] :=
    { declare := by simp [unplaced, declare, People.unplaced, People.join] }
  have helements : FillsField .element (·.body.elements)
      (fun s es => { s with body := ⟨es⟩ }) fun es e => es ++ [e.unplaced] :=
    { declare := by simp [unplaced, declare, Body.unplaced] }
  have htitle : (if spec.title.fragments.isEmpty then (Title.mk [] none)
      else ⟨spec.title.fragments.map TitleFragment.unplaced, none⟩) = spec.title.unplaced := by
    unfold Title.unplaced
    split_ifs with h
    · rw [List.isEmpty_iff.mp h]
      rfl
    · rfl
  have hempty : ({} : Specification).unplaced = {} := rfl
  unfold ofDeclarations declarations
  simp only [List.foldl_append, hbibliography.foldl, helements.foldl, hstyle.foldl,
    hpublication.foldl, hassessors.foldl, hauthors.foldl, unplaced_foldl_title, htype.foldl,
    hversion.foldl, hempty, foldl_concat, foldl_toList, List.nil_append, htitle]
  rfl

end Specification

/-- One person, a style with a nested block and a sentence with an escaped text. -/
example : Specification.canonical
    { version := some ⟨"1.0", .origin⟩
      authors := ⟨[.named ⟨"Ada \"A\" Smith", .origin⟩], none⟩
      style := some
        { base := some ⟨"MLA9", .origin⟩, position := .origin
          font := some { size := some ⟨"12", .origin⟩, position := .origin } }
      body := ⟨[.content ⟨.paragraph, [⟨[.text ⟨"On", .origin⟩, .work ⟨"Emma", .origin⟩], .origin⟩],
        .origin⟩]⟩ }
    = "version \"1.0\"\nauthor\n    name \"Ada \\\"A\\\" Smith\"\nstyle\n    of \"MLA9\"\n"
      ++ "    font\n        size \"12\"\nparagraph\n    \"On\" work \"Emma\"\n" := by
  decide +kernel

end Manuscript
