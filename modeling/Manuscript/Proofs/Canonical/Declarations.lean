import Manuscript.Proofs.Canonical.Print
import Manuscript.Proofs.Canonical.ReadSections
import Manuscript.Proofs.Specification.Grammatical

/-!
# The sections of a grammatical specification

What is known of the sections that a grammatical specification is printed as: they can be read, they
may stand in their order, and their texts can be printed.

* `grammatical_declarations`, `mayFollow_declarations` and `clean_lines` say so.
-/

namespace Manuscript

open Canonical

/-! ## Clean lines -/

/-- None of the literals holds a carriage return. -/
def CleanLiterals (ls : List Literal) : Prop := ∀ l ∈ ls, '\r' ∉ l.value.toList

namespace CleanLiterals

variable {ls ms : List Literal}

theorem of_subset (h : CleanLiterals ls) (hs : ms ⊆ ls) : CleanLiterals ms :=
  fun l hl => h l (hs hl)

theorem of_flatMap {α : Type} {xs : List α} {g : α → List Literal}
    (h : CleanLiterals (xs.flatMap g)) {x : α} (hx : x ∈ xs) : CleanLiterals (g x) :=
  h.of_subset fun _ hl => List.mem_flatMap.mpr ⟨x, hx, hl⟩

theorem lexeme (h : CleanLiterals ls) {l : Literal} (hl : l ∈ ls) : (Lexeme.text l.value).Clean :=
  h l hl

end CleanLiterals

namespace Canonical

/-- Every line of the tree can be printed. -/
def Tree.Clean (t : Tree) : Prop := ∀ d, ∀ line ∈ t.lines d, line.Clean

theorem clean_linesOf {ts : List Tree} (h : ∀ t ∈ ts, t.Clean) (d : Nat) :
    ∀ line ∈ linesOf d ts, line.Clean := by
  induction ts with
  | nil => simp [linesOf]
  | cons t ts ih =>
    intro line hline
    rw [linesOf, List.mem_append] at hline
    rcases hline with hline | hline
    · exact h t List.mem_cons_self d line hline
    · exact ih (fun t ht => h t (List.mem_cons_of_mem _ ht)) line hline

theorem Tree.clean_line {first : Lexeme} {rest : List Lexeme} {below : List Tree}
    (hf : first.Clean) (hr : ∀ x ∈ rest, x.Clean) (hb : ∀ t ∈ below, t.Clean) :
    (Tree.line first rest below).Clean := by
  intro d line hline
  rw [Tree.lines, List.mem_cons] at hline
  rcases hline with rfl | hline
  · exact ⟨hf, hr⟩
  · exact clean_linesOf hb (d + 1) line hline

theorem clean_blockTree (k : Keyword) {below : List Tree} (h : ∀ t ∈ below, t.Clean) :
    (blockTree k below).Clean := Tree.clean_line trivial (by simp) h

variable {ls : List Literal}

theorem clean_fieldTree (h : CleanLiterals ls) {f : Keyword × Literal} (hf : f.2 ∈ ls) :
    (fieldTree f).Clean := by
  refine Tree.clean_line trivial (fun x hx => ?_) (by simp)
  rw [List.mem_singleton.mp hx]
  exact h.lexeme hf

theorem clean_fields {fields : Fields} (h : CleanLiterals fields.literals) :
    ∀ t ∈ fields.map fieldTree, t.Clean := by
  intro t ht
  obtain ⟨f, hf, rfl⟩ := List.mem_map.mp ht
  exact clean_fieldTree h (List.mem_map_of_mem hf)

theorem clean_recordTree {α : Type} [Fielded α] (k : Keyword) {a : α}
    (h : CleanLiterals (Fielded.literals a)) : (recordTree k a).Clean :=
  clean_blockTree k (clean_fields h)

/-- What is separated is clean if its parts are. -/
theorem clean_separated {xss : List (List Lexeme)} (h : ∀ xs ∈ xss, ∀ x ∈ xs, x.Clean) :
    ∀ x ∈ separated xss, x.Clean := by
  cases xss with
  | nil => simp [separated]
  | cons xs xss =>
    intro x hx
    rw [separated, List.mem_append, List.mem_flatMap] at hx
    rcases hx with hx | ⟨ys, hys, hx⟩
    · exact h xs List.mem_cons_self x hx
    · rcases List.mem_cons.mp hx with rfl | hx
      · trivial
      · exact h ys (List.mem_cons_of_mem _ hys) x hx

theorem clean_listLexemes (h : CleanLiterals ls) : ∀ x ∈ listLexemes ls, x.Clean := by
  refine clean_separated fun xs hxs x hx => ?_
  obtain ⟨l, hl, rfl⟩ := List.mem_map.mp hxs
  rw [List.mem_singleton.mp hx]
  exact h.lexeme hl

theorem clean_listTree (h : CleanLiterals ls) (k : Keyword) :
    (Tree.line (.word k) (listLexemes ls) []).Clean :=
  Tree.clean_line trivial (clean_listLexemes h) (by simp)

theorem clean_listTrees (h : CleanLiterals ls) (k : Keyword) :
    ∀ t ∈ listTrees k ls, t.Clean := by
  unfold listTrees
  split_ifs
  · simp
  · intro t ht
    rw [List.mem_singleton.mp ht]
    exact clean_listTree h k

theorem clean_numerationTree {b : NumerationBlock} (h : CleanLiterals b.literals) :
    (numerationTree b).Clean := by
  refine clean_blockTree _ fun t ht => ?_
  rcases List.mem_append.mp ht with ht | ht
  · exact clean_fields (h.of_subset (List.subset_append_left _ _)) t ht
  · exact clean_listTrees (h.of_subset (List.subset_append_right _ _)) .skip t ht

theorem clean_styleTrees {s : StyleBlock} (h : CleanLiterals s.literals) :
    ∀ t ∈ styleTrees s, t.Clean := by
  intro t ht
  unfold styleTrees at ht
  simp only [List.mem_append, Option.mem_toList, Option.map_eq_some_iff,
    or_assoc] at ht
  rcases ht with ⟨l, hl, rfl⟩ | ⟨b, hb, rfl⟩ | ⟨b, hb, rfl⟩ | ⟨b, hb, rfl⟩ | ⟨b, hb, rfl⟩ |
    ⟨b, hb, rfl⟩ | ⟨b, hb, rfl⟩ | ⟨l, hl, rfl⟩ | ⟨b, hb, rfl⟩
  · exact clean_fieldTree h (by simp [StyleBlock.literals, hl])
  · exact clean_recordTree _ (h.of_subset fun l hl => by simp [StyleBlock.literals, hb, hl])
  · exact clean_recordTree _ (h.of_subset fun l hl => by simp [StyleBlock.literals, hb, hl])
  · exact clean_recordTree _ (h.of_subset fun l hl => by simp [StyleBlock.literals, hb, hl])
  · exact clean_recordTree _ (h.of_subset fun l hl => by simp [StyleBlock.literals, hb, hl])
  · exact clean_numerationTree (h.of_subset fun l hl => by simp [StyleBlock.literals, hb, hl])
  · exact clean_listTree (h.of_subset fun l hl => by simp [StyleBlock.literals, hb, hl]) _
  · exact clean_fieldTree h (by simp [StyleBlock.literals, hl])
  · exact clean_recordTree _ (h.of_subset fun l hl => by simp [StyleBlock.literals, hb, hl])

theorem clean_fragmentLexemes {ls : List Literal} (h : CleanLiterals ls) {f : TitleFragment}
    (hf : f.literal ∈ ls) : ∀ x ∈ fragmentLexemes f, x.Clean := by
  have hl : (Lexeme.text f.literal.value).Clean := h.lexeme hf
  cases f with
  | plain l => simpa [fragmentLexemes, TitleFragment.literal] using hl
  | work l => simpa [fragmentLexemes, Lexeme.Clean, TitleFragment.literal] using hl

theorem clean_runLexemes {r : Run} (h : CleanLiterals r.literals) :
    ∀ x ∈ runLexemes r, x.Clean := by
  cases r with
  | citation source page =>
    cases page with
    | none => simpa [runLexemes, Lexeme.Clean, CleanLiterals, Run.literals] using h
    | some page => simpa [runLexemes, Lexeme.Clean, CleanLiterals, Run.literals] using h
  | _ => simpa [runLexemes, Lexeme.Clean, CleanLiterals, Run.literals, Run.literal] using h

theorem clean_sentenceTree {s : Sentence} (h : CleanLiterals s.literals) :
    (sentenceTree s).Clean := by
  have hall : ∀ x ∈ s.runs.flatMap runLexemes, x.Clean := by
    intro x hx
    obtain ⟨r, hr, hx⟩ := List.mem_flatMap.mp hx
    exact clean_runLexemes (CleanLiterals.of_flatMap h hr) x hx
  unfold sentenceTree
  split
  · exact Tree.clean_line (by simp [Lexeme.Clean]) (by simp) (by simp)
  next x xs hxs =>
    rw [hxs] at hall
    exact Tree.clean_line (hall x List.mem_cons_self)
      (fun y hy => hall y (List.mem_cons_of_mem x hy)) (by simp)

theorem clean_sourceTree {s : Source} (h : CleanLiterals s.literals) : (sourceTree s).Clean := by
  refine clean_blockTree _ fun t ht => ?_
  rcases List.mem_append.mp ht with ht | ht
  · exact clean_listTrees (h.of_subset (List.subset_append_left _ _)) .author t ht
  · exact clean_fields (h.of_subset (List.subset_append_right _ _)) t ht

theorem clean_elementTree {e : Element} (h : CleanLiterals e.literals) : (elementTree e).Clean := by
  cases e with
  | chapter heading => exact clean_fieldTree h (by simp [Element.literals])
  | content b =>
    refine clean_blockTree _ fun t ht => ?_
    obtain ⟨s, hs, rfl⟩ := List.mem_map.mp ht
    exact clean_sentenceTree (CleanLiterals.of_flatMap h hs)
  | header p => exact clean_blockTree _ (by simp)
  | blank p => exact clean_blockTree _ (by simp)
  | image i => exact clean_recordTree _ h

/-- A section whose literals can be printed can be printed. -/
theorem clean_declarationTree {d : Declaration} (h : CleanLiterals d.literals) :
    (declarationTree d).Clean := by
  cases d with
  | version text => exact clean_fieldTree h (by simp [Declaration.literals])
  | documentType text => exact clean_fieldTree h (by simp [Declaration.literals])
  | title fragments p =>
    refine Tree.clean_line trivial (clean_separated fun xs hxs => ?_) (by simp)
    obtain ⟨f, hf, rfl⟩ := List.mem_map.mp hxs
    exact clean_fragmentLexemes h (List.mem_map_of_mem hf)
  | authors members p =>
    refine clean_blockTree _ fun t ht => ?_
    obtain ⟨a, ha, ht⟩ := List.mem_flatMap.mp ht
    exact clean_fields (CleanLiterals.of_flatMap h ha) t ht
  | assessors members p =>
    refine clean_blockTree _ fun t ht => ?_
    obtain ⟨a, ha, ht⟩ := List.mem_flatMap.mp ht
    exact clean_fields (CleanLiterals.of_flatMap h ha) t ht
  | publication a => exact clean_recordTree _ h
  | style s => exact clean_blockTree _ (clean_styleTrees h)
  | element e => exact clean_elementTree h
  | bibliography sources p =>
    refine clean_blockTree _ fun t ht => ?_
    obtain ⟨s, hs, rfl⟩ := List.mem_map.mp ht
    exact clean_sourceTree (CleanLiterals.of_flatMap h hs)

end Canonical

/-! ## The sections that are printed -/

namespace Specification

variable {spec : Specification} {d : Declaration}

/-- What a section of the canonical form may be. -/
theorem mem_declarations : d ∈ spec.declarations ↔
    (∃ l ∈ spec.version, .version l = d) ∨ (∃ l ∈ spec.documentType, .documentType l = d)
      ∨ (spec.title.fragments ≠ [] ∧ d = .title spec.title.fragments .origin)
      ∨ (∃ a ∈ spec.authors.members, .authors [a] .origin = d)
      ∨ (∃ a ∈ spec.assessors.members, .assessors [a] .origin = d)
      ∨ (∃ a ∈ spec.publication, .publication a = d) ∨ (∃ s ∈ spec.style, .style s = d)
      ∨ (∃ e ∈ spec.body.elements, .element e = d)
      ∨ ∃ b ∈ spec.bibliography, .bibliography b.sources .origin = d := by
  unfold declarations
  simp only [List.mem_append, List.mem_map, Option.mem_toList, Option.mem_def,
    List.mem_ite_nil_left, List.mem_singleton, or_assoc, List.isEmpty_iff, ne_eq]

/-- The printed sections hold the texts of the specification, in order. -/
theorem literals_declarations : spec.declarations.flatMap Declaration.literals = spec.literals := by
  have htitle : (if spec.title.fragments.isEmpty then []
      else [Declaration.title spec.title.fragments .origin]).flatMap Declaration.literals
        = spec.title.fragments.map TitleFragment.literal := by
    split_ifs with hempty
    · rw [List.isEmpty_iff.mp hempty]
      rfl
    · exact List.append_nil _
  unfold declarations literals
  simp only [List.flatMap_append, List.flatMap_map, htitle, Declaration.literals,
    List.flatMap_singleton', List.flatMap_cons, List.flatMap_nil, List.append_nil]
  rfl

/-- A printed section of a grammatical specification can be read. -/
theorem Shaped.of_mem_declarations (h : spec.Shaped) (hd : d ∈ spec.declarations) :
    d.Grammatical ∧ d.Single := by
  rw [mem_declarations] at hd
  rcases hd with ⟨l, hl, rfl⟩ | ⟨l, hl, rfl⟩ | ⟨hne, rfl⟩ | ⟨a, ha, rfl⟩ | ⟨a, ha, rfl⟩ |
    ⟨a, ha, rfl⟩ | ⟨s, hs, rfl⟩ | ⟨e, he, rfl⟩ | ⟨b, hb, rfl⟩
  · exact ⟨trivial, trivial⟩
  · exact ⟨trivial, trivial⟩
  · exact ⟨hne, trivial⟩
  · exact ⟨⟨by simp, by simpa using h.authors.declared a ha⟩, a, rfl⟩
  · exact ⟨⟨by simp, by simpa using h.assessors.declared a ha⟩, a, rfl⟩
  · exact ⟨h.publication a ha, trivial⟩
  · exact ⟨h.style s hs, trivial⟩
  · exact ⟨h.elements e he, trivial⟩
  · exact ⟨h.bibliography b hb, trivial⟩

/-- The canonical form of a grammatical specification can be printed. -/
theorem Grammatical.clean_lines (h : spec.Grammatical) :
    ∀ line ∈ linesOf 0 (spec.declarations.map declarationTree), line.Clean := by
  refine clean_linesOf (fun t ht => ?_) 0
  obtain ⟨d, hd, rfl⟩ := List.mem_map.mp ht
  have hclean : CleanLiterals (spec.declarations.flatMap Declaration.literals) := by
    rw [literals_declarations]
    exact h.clean
  exact clean_declarationTree (hclean.of_flatMap hd)

/-! ### Their order -/

open Grammar (MayFollow)

/-- Where the sections of a keyword stand in the canonical form. -/
def rank : Keyword → Nat
  | .version => 0
  | .type => 1
  | .title => 2
  | .author => 3
  | .assessor => 4
  | .publication => 5
  | .style => 6
  | .bibliography => 8
  | _ => 7

/-- Sections that stand elsewhere may follow. -/
theorem mayFollow_of_rank {j k : Keyword} (h : rank j < rank k) : MayFollow j k := by
  refine ⟨?_, .inr ?_⟩
  · rintro rfl
    exact absurd h (Nat.not_lt_zero _)
  · rintro rfl
    exact absurd h (Nat.lt_irrefl _)

/-- Elements may follow each other, if content that may stand once does. -/
theorem Shaped.mayFollow_elements (h : spec.Shaped) :
    (spec.body.elements.map Element.keyword).Pairwise MayFollow := by
  rw [List.pairwise_map, List.pairwise_iff_forall_sublist]
  intro a e hae
  refine ⟨Element.keyword_ne_version e, ?_⟩
  by_contra hboth
  obtain ⟨hr, hkey⟩ : e.keyword.isRepeatable = false ∧ e.keyword = a.keyword := by
    simpa using hboth
  -- only blocks of sentences may not be repeated, and then both are blocks of one kind
  obtain ⟨kind, hk, hkind⟩ :
      ∃ kind : ContentKind, kind ≠ .paragraph ∧ e.keyword = kind.keyword := by
    cases e with
    | content b =>
      refine ⟨b.kind, ?_, rfl⟩
      intro hb
      rw [← isRepeatable_keyword] at hb
      exact Bool.false_ne_true (hr.symm.trans hb)
    | _ => cases hr
  have hblock (x : Element) (hx : x.keyword = kind.keyword) :
      ∃ b : ContentBlock, x = .content b ∧ b.kind = kind := by
    cases x with
    | content b =>
      refine ⟨b, rfl, ?_⟩
      obtain ⟨j, _, _⟩ := b
      cases j <;> cases kind <;> cases hx <;> rfl
    | _ => cases kind <;> cases hx
  obtain ⟨b, rfl, hb⟩ := hblock a (hkey.symm.trans hkind)
  obtain ⟨b', rfl, hb'⟩ := hblock e hkind
  -- both would be blocks of this kind, of which there is one at most
  have hsub : [b, b'].Sublist (spec.body.blocksOf kind) := by
    have hblocks := (hae.filterMap Element.block?).filter fun b => b.kind == kind
    simpa [Element.block?, hb, hb', Body.blocksOf, Body.blocks] using hblocks
  have hlen := hsub.length_le.trans (h.once kind hk)
  exact absurd hlen (by simp)

/-- Sections that may stand in their order, in front of the place of others. -/
structure InFront (n : Nat) (js : List Keyword) : Prop where
  ordered : js.Pairwise MayFollow
  rank : ∀ j ∈ js, rank j < n

namespace InFront

variable {n : Nat} {js : List Keyword} {α : Type} {g : α → Keyword}

theorem nil : InFront 0 [] := ⟨.nil, by simp⟩

/-- The sections of the next place. -/
theorem append (h : InFront n js) {ks : List Keyword} (hk : ks.Pairwise MayFollow)
    (hr : ∀ k ∈ ks, Specification.rank k = n) : InFront (n + 1) (js ++ ks) := by
  constructor
  · refine List.pairwise_append.mpr ⟨h.ordered, hk, fun j hj k hks => mayFollow_of_rank ?_⟩
    rw [hr k hks]
    exact h.rank j hj
  · intro k hks
    rcases List.mem_append.mp hks with hj | hk
    · exact (h.rank k hj).trans (Nat.lt_succ_self n)
    · rw [hr k hk]
      exact Nat.lt_succ_self n

theorem option (h : InFront n js) (o : Option α) (hg : ∀ x, Specification.rank (g x) = n) :
    InFront (n + 1) (js ++ o.toList.map g) := by
  refine h.append (by cases o <;> simp) fun k hk => ?_
  obtain ⟨x, -, rfl⟩ := List.mem_map.mp hk
  exact hg x

theorem repeatable (h : InFront (n + 1) js) (xs : List α)
    (hg : ∀ x, Specification.rank (g x) = n + 1 ∧ (g x).isRepeatable = true) :
    InFront (n + 1 + 1) (js ++ xs.map g) := by
  refine h.append ?_ fun k hk => ?_
  · refine List.pairwise_map.mpr (List.pairwise_of_forall fun x y => ⟨fun hv => ?_, .inl (hg y).2⟩)
    have hrank := (hg y).1
    rw [hv] at hrank
    exact absurd hrank (Nat.zero_ne_add_one n)
  · obtain ⟨x, -, rfl⟩ := List.mem_map.mp hk
    exact (hg x).1

end InFront

theorem rank_element (e : Element) : rank e.keyword = 7 := by
  rcases e with _ | ⟨kind, _, _⟩ | _ | _ | _
  case content => cases kind <;> rfl
  all_goals rfl

/-- The printed sections of a grammatical specification may stand in their order. -/
theorem Shaped.mayFollow_declarations (h : spec.Shaped) :
    (spec.declarations.map Declaration.keyword).Pairwise MayFollow := by
  -- a title that is printed or not is an option like the others
  have htitle : (if spec.title.fragments.isEmpty then []
      else [Declaration.title spec.title.fragments .origin])
        = (if spec.title.fragments.isEmpty then none else some ()).toList.map
            fun _ => .title spec.title.fragments .origin := by
    split_ifs <;> rfl
  have helements : ∀ k ∈ (spec.body.elements.map .element).map Declaration.keyword, rank k = 7 := by
    intro k hk
    rw [List.map_map] at hk
    obtain ⟨e, -, rfl⟩ := List.mem_map.mp hk
    exact rank_element e
  have hfront : InFront 9 (spec.declarations.map Declaration.keyword) := by
    unfold declarations
    rw [htitle]
    simp only [List.map_append, List.map_map] at helements ⊢
    exact InFront.nil.option spec.version (fun _ => rfl)
      |>.option spec.documentType (fun _ => rfl)
      |>.option _ (fun _ => rfl)
      |>.repeatable spec.authors.members (fun _ => ⟨rfl, rfl⟩)
      |>.repeatable spec.assessors.members (fun _ => ⟨rfl, rfl⟩)
      |>.option spec.publication (fun _ => rfl)
      |>.option spec.style (fun _ => rfl)
      |>.append h.mayFollow_elements helements
      |>.option spec.bibliography (fun _ => rfl)
  exact hfront.ordered

end Specification

end Manuscript
