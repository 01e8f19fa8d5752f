import Manuscript.Proofs.Specification.Literals
import Manuscript.Version

/-!
# Grammatical specifications

What the grammar says about a specification that was read from a source: nothing that was declared
is empty, sections that may stand once do, and a source has only fields that its kind accepts.

`Shaped.declare` says that a grammatical declaration keeps a specification well shaped.
-/

namespace Manuscript

open Fielded (declared)

/-! ## Nodes -/

/-- The numeration settings declare a field or a page. -/
def NumerationBlock.Grammatical (b : NumerationBlock) : Prop := declared b ≠ [] ∨ b.skip ≠ []

namespace StyleBlock

/-- The style section declares a setting. -/
def declaresAny (s : StyleBlock) : Bool :=
  s.base.isSome || s.font.isSome || s.layout.isSome || s.paragraph.isSome || s.sentence.isSome
    || s.numeration.isSome || s.parts.isSome || s.citation.isSome || s.endnotes.isSome

/-- No block of the style section is empty. -/
structure BlocksFilled (s : StyleBlock) : Prop where
  font : ∀ b ∈ s.font, declared b ≠ []
  layout : ∀ b ∈ s.layout, declared b ≠ []
  paragraph : ∀ b ∈ s.paragraph, declared b ≠ []
  sentence : ∀ b ∈ s.sentence, declared b ≠ []
  numeration : ∀ b ∈ s.numeration, b.Grammatical
  parts : ∀ l ∈ s.parts, l.parts ≠ []
  endnotes : ∀ b ∈ s.endnotes, declared b ≠ []

/-- The style section declares a setting, and none of its blocks is empty. -/
def Grammatical (s : StyleBlock) : Prop := s.BlocksFilled ∧ s.declaresAny = true

/-- A style section that only names a guide has no block. -/
theorem blocksFilled_base (base : Option Literal) (p : Position) :
    BlocksFilled { base, position := p } := by
  constructor <;> simp

end StyleBlock

/-- There is a sentence, and no sentence is empty. -/
def ContentBlock.Grammatical (b : ContentBlock) : Prop :=
  b.sentences ≠ [] ∧ ∀ s ∈ b.sentences, s.runs ≠ []

/-- Blocks of sentences and images are not empty. -/
def Element.Grammatical : Element → Prop
  | .content b => b.Grammatical
  | .image i => declared i ≠ []
  | .chapter _ | .header _ | .blank _ => True

/-- A source declares something, and only what its kind accepts. -/
structure Source.Grammatical (s : Source) : Prop where
  declaresAny : s.authors ≠ [] ∨ declared s ≠ []
  accepted : ∀ k, (s.get k).isSome = true → s.kind.accepts k = true

/-- There is a source, and every source is grammatical. -/
def Bibliography.Grammatical (b : Bibliography) : Prop :=
  b.sources ≠ [] ∧ ∀ s ∈ b.sources, s.Grammatical

/-! ## Declarations -/

/-- What a section declares is not empty. -/
def Declaration.Grammatical : Declaration → Prop
  | .version _ | .documentType _ => True
  | .title fragments _ => fragments ≠ []
  | .authors members _ | .assessors members _ =>
    members ≠ [] ∧ ∀ p ∈ members, declared p ≠ []
  | .publication p => declared p ≠ []
  | .style s => s.Grammatical
  | .element e => e.Grammatical
  | .bibliography sources _ => sources ≠ [] ∧ ∀ s ∈ sources, s.Grammatical

/-! ## The whole specification -/

/-- People that were declared are some people, and each of them declares something. -/
structure People.Grammatical (people : People) : Prop where
  nonempty : people.position.isSome = true → people.members ≠ []
  declared : ∀ p ∈ people.members, Fielded.declared p ≠ []

/-- People with those of one more section. -/
theorem People.Grammatical.join {people : People} (h : people.Grammatical) {members : List Person}
    (hm : members ≠ []) (hd : ∀ p ∈ members, Fielded.declared p ≠ []) (p : Position) :
    (people.join members p).Grammatical := by
  constructor
  · intro _
    exact fun he => hm (List.append_eq_nil_iff.mp he).2
  · intro a ha
    rcases List.mem_append.mp ha with ha | ha
    · exact h.declared a ha
    · exact hd a ha

namespace Specification

/-- Nothing that was declared is empty, and content that may be declared once is. -/
structure Shaped (spec : Specification) : Prop where
  title : spec.title.position.isSome = true → spec.title.fragments ≠ []
  authors : spec.authors.Grammatical
  assessors : spec.assessors.Grammatical
  publication : ∀ p ∈ spec.publication, declared p ≠ []
  style : ∀ s ∈ spec.style, s.Grammatical
  elements : ∀ e ∈ spec.body.elements, e.Grammatical
  once : ∀ kind, kind ≠ .paragraph → (spec.body.blocksOf kind).length ≤ 1
  bibliography : ∀ b ∈ spec.bibliography, b.Grammatical

/-- A specification that the grammar allows: it is well shaped, no text holds a carriage return, and
the version, if there is one, is supported. -/
structure Grammatical (spec : Specification) : Prop extends Shaped spec where
  clean : ∀ l ∈ spec.literals, '\r' ∉ l.value.toList
  version : ∀ l ∈ spec.version, l.trimmed ∈ supportedVersions

/-- Nothing was declared yet. -/
theorem shaped_empty : Shaped {} where
  title := by simp
  authors := ⟨by simp, by simp⟩
  assessors := ⟨by simp, by simp⟩
  publication := by simp
  style := by simp
  elements := by simp
  once := by simp [Body.blocksOf, Body.blocks]
  bibliography := by simp

/-- One more element adds a block of its own kind, or none. -/
theorem length_blocksOf_append (elements : List Element) (e : Element) (kind : ContentKind) :
    (Body.blocksOf ⟨elements ++ [e]⟩ kind).length
      ≤ (Body.blocksOf ⟨elements⟩ kind).length + if kind.keyword = e.keyword then 1 else 0 := by
  unfold Body.blocksOf Body.blocks
  rw [List.filterMap_append, List.filter_append, List.length_append]
  refine Nat.add_le_add_left ?_ _
  cases e with
  | content block =>
    by_cases hk : block.kind = kind
    · subst hk
      simp [Element.block?, Element.keyword]
    · have hb : (block.kind == kind) = false := by simpa using hk
      simp [Element.block?, hb]
  | chapter _ => exact Nat.zero_le _
  | header _ => exact Nat.zero_le _
  | blank _ => exact Nat.zero_le _
  | image _ => exact Nat.zero_le _

/-- Only paragraphs may be declared more than once. -/
theorem isRepeatable_keyword (kind : ContentKind) :
    kind.keyword.isRepeatable = true ↔ kind = .paragraph := by
  cases kind <;> simp [ContentKind.keyword, Keyword.isRepeatable]

/-- A specification has the section of a kind of content if there is a block of it. -/
theorem blocksOf_eq_nil {spec : Specification} {kind : ContentKind} (hk : kind ≠ .paragraph)
    (h : spec.has kind.keyword = false) : spec.body.blocksOf kind = [] := by
  have hc : spec.body.hasContent kind = false := by
    cases kind <;> first | exact (hk rfl).elim | exact h
  simpa [Body.hasContent] using hc

/-- A grammatical declaration keeps a specification well shaped, if its section may stand more than
once or was not declared before. -/
theorem Shaped.declare {spec : Specification} (h : spec.Shaped) {d : Declaration}
    (hd : d.Grammatical) (hnew : d.keyword.isRepeatable = true ∨ spec.has d.keyword = false) :
    (spec.declare d).Shaped := by
  cases d with
  | version text => exact { h with }
  | documentType text => exact { h with }
  | title fragments p => exact { h with title := fun _ => hd }
  | authors members p => exact { h with authors := .join h.authors hd.1 hd.2 p }
  | assessors members p => exact { h with assessors := .join h.assessors hd.1 hd.2 p }
  | publication p =>
    refine { h with publication := ?_ }
    rintro a ⟨⟩
    exact hd
  | style s =>
    refine { h with style := ?_ }
    rintro a ⟨⟩
    exact hd
  | element e =>
    refine { h with elements := ?_, once := ?_ }
    · intro a ha
      rcases List.mem_append.mp ha with ha | ha
      · exact h.elements a ha
      · rw [List.mem_singleton] at ha
        exact ha ▸ hd
    · intro kind hk
      refine (length_blocksOf_append spec.body.elements e kind).trans ?_
      by_cases hek : kind.keyword = e.keyword
      · -- a second block would be one of a section that was declared before
        have hfree : spec.has kind.keyword = false := by
          rw [hek]
          refine hnew.resolve_left fun hr => hk ?_
          rw [← isRepeatable_keyword, hek]
          exact hr
        rw [if_pos hek, show Body.blocksOf ⟨spec.body.elements⟩ kind = [] from
          blocksOf_eq_nil hk hfree]
        exact le_refl 1
      · rw [if_neg hek]
        exact h.once kind hk
  | bibliography sources p =>
    refine { h with bibliography := ?_ }
    rintro b ⟨⟩
    exact hd

end Specification

end Manuscript
