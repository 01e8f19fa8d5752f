import Mathlib.Algebra.Order.Group.Multiset
import Mathlib.Tactic.Abel
import Manuscript.Proofs.Specification.Records

/-!
# The literals of a specification

All literals that stand anywhere in a specification, as a list. The order of the list says nothing;
what counts is which literals it holds and how often.

* `literals_declare`: a declaration adds its literals to a specification, if it is not the second
  one of a section that may stand once.
* `has_declare`: a declaration adds no other section than its own.
-/

namespace Manuscript

/-! ## Nodes -/

/-- The literals of a run. -/
def Run.literals : Run → List Literal
  | .citation source page => source :: page.toList
  | r => [r.literal]

/-- The literals of a sentence. -/
def Sentence.literals (s : Sentence) : List Literal := s.runs.flatMap Run.literals

/-- The literals of a block of sentences. -/
def ContentBlock.literals (b : ContentBlock) : List Literal :=
  b.sentences.flatMap Sentence.literals

/-- The literals of an element of the running text. -/
def Element.literals : Element → List Literal
  | .chapter heading => [heading]
  | .content block => block.literals
  | .header _ => []
  | .blank _ => []
  | .image i => Fielded.literals i

/-- The literals of the numeration settings: the fields, and the pages without a number. -/
def NumerationBlock.literals (b : NumerationBlock) : List Literal := Fielded.literals b ++ b.skip

/-- The literals of a style section. -/
def StyleBlock.literals (s : StyleBlock) : List Literal :=
  s.base.toList ++ s.font.toList.flatMap Fielded.literals
    ++ s.layout.toList.flatMap Fielded.literals ++ s.paragraph.toList.flatMap Fielded.literals
    ++ s.sentence.toList.flatMap Fielded.literals
    ++ s.numeration.toList.flatMap NumerationBlock.literals
    ++ s.parts.toList.flatMap PartList.parts ++ s.citation.toList
    ++ s.endnotes.toList.flatMap Fielded.literals

/-- The literals of a source: the authors and the fields. -/
def Source.literals (s : Source) : List Literal := s.authors ++ Fielded.literals s

/-- The literals of a bibliography. -/
def Bibliography.literals (b : Bibliography) : List Literal := b.sources.flatMap Source.literals

/-- All literals of a specification. -/
def Specification.literals (spec : Specification) : List Literal :=
  spec.version.toList ++ spec.documentType.toList
    ++ spec.title.fragments.map TitleFragment.literal
    ++ spec.authors.members.flatMap Fielded.literals
    ++ spec.assessors.members.flatMap Fielded.literals
    ++ spec.publication.toList.flatMap Fielded.literals
    ++ spec.style.toList.flatMap StyleBlock.literals
    ++ spec.body.elements.flatMap Element.literals
    ++ spec.bibliography.toList.flatMap Bibliography.literals

/-! ## Declarations -/

/-- The keyword that opens a kind of content. -/
def ContentKind.keyword : ContentKind → Keyword
  | .paragraph => .paragraph
  | .abstract => .abstract
  | .preface => .preface
  | .acknowledgements => .acknowledgements
  | .appendix => .appendix

/-- The keyword that opens an element. -/
def Element.keyword : Element → Keyword
  | .chapter _ => .chapter
  | .content block => block.kind.keyword
  | .header _ => .header
  | .blank _ => .blank
  | .image _ => .image

/-- An element is not a version. -/
theorem Element.keyword_ne_version (e : Element) : e.keyword ≠ .version := by
  rcases e with _ | ⟨kind, _, _⟩ | _ | _ | _
  case content => cases kind <;> exact nofun
  all_goals exact nofun

namespace Declaration

/-- The keyword that opens the section of a declaration. -/
def keyword : Declaration → Keyword
  | .version _ => .version
  | .documentType _ => .type
  | .title _ _ => .title
  | .authors _ _ => .author
  | .assessors _ _ => .assessor
  | .publication _ => .publication
  | .style _ => .style
  | .element e => e.keyword
  | .bibliography _ _ => .bibliography

/-- The literals of a declaration. -/
def literals : Declaration → List Literal
  | .version text => [text]
  | .documentType text => [text]
  | .title fragments _ => fragments.map TitleFragment.literal
  | .authors members _ => members.flatMap Fielded.literals
  | .assessors members _ => members.flatMap Fielded.literals
  | .publication p => Fielded.literals p
  | .style s => s.literals
  | .element e => e.literals
  | .bibliography sources _ => sources.flatMap Source.literals

end Declaration

namespace Specification

/-- The section that a keyword opens and that may stand once was declared. -/
def has (spec : Specification) : Keyword → Bool
  | .version => spec.version.isSome
  | .type => spec.documentType.isSome
  | .title => !spec.title.fragments.isEmpty
  | .publication => spec.publication.isSome
  | .style => spec.style.isSome
  | .abstract => spec.body.hasContent .abstract
  | .preface => spec.body.hasContent .preface
  | .acknowledgements => spec.body.hasContent .acknowledgements
  | .appendix => spec.body.hasContent .appendix
  | .bibliography => spec.bibliography.isSome
  | _ => false

/-- Only sections that may stand once are asked for. -/
theorem has_of_isRepeatable (spec : Specification) {k : Keyword} (h : k.isRepeatable = true) :
    spec.has k = false := by
  cases k <;> first | rfl | exact absurd h Bool.false_ne_true

/-- Only the version section declares a version. -/
theorem version_declare (spec : Specification) {d : Declaration} (h : d.keyword ≠ .version) :
    (spec.declare d).version = spec.version := by
  cases d with
  | version _ => exact absurd rfl h
  | _ => rfl

/-- The version section declares a version. -/
theorem declaration_of_keyword {d : Declaration} (h : d.keyword = .version) :
    ∃ text, d = .version text := by
  cases d with
  | version text => exact ⟨text, rfl⟩
  | element e => exact absurd h (Element.keyword_ne_version e)
  | _ => cases h

/-- One more element adds no other kind of content than its own. -/
theorem hasContent_append (elements : List Element) (e : Element) (kind : ContentKind)
    (h : Body.hasContent ⟨elements ++ [e]⟩ kind = true) :
    Body.hasContent ⟨elements⟩ kind = true ∨ kind.keyword = e.keyword := by
  unfold Body.hasContent Body.blocksOf Body.blocks at *
  rw [List.filterMap_append, List.filter_append] at h
  cases e with
  | content block =>
    by_cases hk : block.kind = kind
    · right
      rw [← hk]
      rfl
    · left
      have hb : (block.kind == kind) = false := by simpa using hk
      simpa [Element.block?, hb] using h
  | chapter _ => exact .inl (by simpa [Element.block?] using h)
  | header _ => exact .inl (by simpa [Element.block?] using h)
  | blank _ => exact .inl (by simpa [Element.block?] using h)
  | image _ => exact .inl (by simpa [Element.block?] using h)

/-- A declaration adds no other section than its own. -/
theorem has_declare (spec : Specification) (d : Declaration) (k : Keyword)
    (h : (spec.declare d).has k = true) : spec.has k = true ∨ k = d.keyword := by
  cases d with
  | element e =>
    -- of the elements only content is a section that may stand once
    cases k
    case abstract => exact hasContent_append spec.body.elements e .abstract h
    case preface => exact hasContent_append spec.body.elements e .preface h
    case acknowledgements => exact hasContent_append spec.body.elements e .acknowledgements h
    case appendix => exact hasContent_append spec.body.elements e .appendix h
    all_goals exact .inl h
  | _ => cases k <;> first | exact .inr rfl | exact .inl h

/-- A declaration adds its literals, if its section may stand more than once or was not declared
before. -/
theorem literals_declare (spec : Specification) (d : Declaration)
    (h : d.keyword.isRepeatable = true ∨ spec.has d.keyword = false) :
    (spec.declare d).literals.Perm (spec.literals ++ d.literals) := by
  have hfree (k : Keyword) (hk : d.keyword = k) (hr : k.isRepeatable = false) :
      spec.has k = false := by
    rw [hk, hr] at h
    exact h.resolve_left (by simp)
  -- new literals stand inside the list, so that it is compared up to order
  rw [← Multiset.coe_eq_coe, ← Multiset.coe_add]
  unfold literals
  simp only [← Multiset.coe_add]
  cases d with
  | version text =>
    have hv : spec.version = none := by simpa [has] using hfree .version rfl rfl
    simp only [declare, hv, Declaration.literals, Option.toList_none, Option.toList_some]
    simp only [Multiset.coe_nil, zero_add]
    abel
  | documentType text =>
    have hv : spec.documentType = none := by simpa [has] using hfree .type rfl rfl
    simp only [declare, hv, Declaration.literals, Option.toList_none, Option.toList_some]
    simp only [Multiset.coe_nil, add_zero]
    abel
  | title fragments p =>
    have hv : spec.title.fragments = [] := by simpa [has] using hfree .title rfl rfl
    simp only [declare, hv, Declaration.literals, List.map_nil]
    simp only [Multiset.coe_nil, add_zero]
    abel
  | authors members p =>
    simp only [declare, People.join, Declaration.literals, List.flatMap_append, ← Multiset.coe_add]
    abel
  | assessors members p =>
    simp only [declare, People.join, Declaration.literals, List.flatMap_append, ← Multiset.coe_add]
    abel
  | publication p =>
    have hv : spec.publication = none := by simpa [has] using hfree .publication rfl rfl
    simp only [declare, hv, Declaration.literals, Option.toList_none, Option.toList_some,
      List.flatMap_nil, List.flatMap_singleton]
    simp only [Multiset.coe_nil, add_zero]
    abel
  | style s =>
    have hv : spec.style = none := by simpa [has] using hfree .style rfl rfl
    simp only [declare, hv, Declaration.literals, Option.toList_none, Option.toList_some,
      List.flatMap_nil, List.flatMap_singleton]
    simp only [Multiset.coe_nil, add_zero]
    abel
  | element e =>
    simp only [declare, Declaration.literals, List.flatMap_append, List.flatMap_singleton,
      ← Multiset.coe_add]
    abel
  | bibliography sources p =>
    have hv : spec.bibliography = none := by simpa [has] using hfree .bibliography rfl rfl
    simp only [declare, hv, Declaration.literals, Option.toList_none, Option.toList_some,
      List.flatMap_nil, List.flatMap_singleton, Bibliography.literals]
    simp only [Multiset.coe_nil, add_zero]

end Specification

end Manuscript
