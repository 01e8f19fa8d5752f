import Mathlib.Data.List.Perm.Basic
import Manuscript.Proofs.Specification.Literals
import Manuscript.Proofs.Specification.Unplaced

/-!
# Declarations in another order

A specification keeps the declarations of each group apart: the authors, the assessors, the elements
of the content, and each of the sections that stand once. Only the order inside a group matters.

* `foldl_eq_of_filter_eq`: steps that commute unless they have the same key may change places.
* `unplaced_ofDeclarations_groups`: the same groups make the same specification up to positions.
* `filter_group_of_perm`: a group that has one declaration is the same in any order.
-/

namespace Manuscript

/-! ## Steps that commute -/

section Steps

variable {α κ σ : Type} {key : α → κ} {f : σ → α → σ}

/-- A step moves in front of steps that have other keys. -/
theorem foldl_move {a : α} (hf : ∀ s a b, key a ≠ key b → f (f s a) b = f (f s b) a) {l : List α}
    (hl : ∀ b ∈ l, key b ≠ key a) (l' : List α) (s : σ) :
    (l ++ a :: l').foldl f s = (a :: (l ++ l')).foldl f s := by
  induction l generalizing s with
  | nil => rfl
  | cons b l ih =>
    obtain ⟨hb, hrest⟩ := List.forall_mem_cons.mp hl
    have hswap := hf s b a hb
    rw [List.cons_append, List.foldl_cons, ih hrest, List.foldl_cons, hswap]
    rfl

variable [DecidableEq κ]

/-- Steps may change places if they commute unless they have the same key, and those that have the
same key keep their order. -/
theorem foldl_eq_of_filter_eq (hf : ∀ s a b, key a ≠ key b → f (f s a) b = f (f s b) a)
    {l l' : List α} (h : ∀ k, (l'.filter fun a => key a = k) = l.filter fun a => key a = k)
    (s : σ) : l'.foldl f s = l.foldl f s := by
  induction l generalizing l' s with
  | nil =>
    cases l' with
    | nil => rfl
    | cons b l' =>
      have hnone := h (key b)
      rw [List.filter_cons_of_pos (by simp)] at hnone
      cases hnone
  | cons a l ih =>
    -- the first step of its key stands somewhere, with other keys in front of it
    have ha := h (key a)
    rw [List.filter_cons_of_pos (by simp)] at ha
    obtain ⟨l₁, l₂, rfl, hl₁, -, hl₂⟩ := List.filter_eq_cons_iff.mp ha
    have hother : ∀ b ∈ l₁, key b ≠ key a := fun b hb => by simpa using hl₁ b hb
    rw [foldl_move hf hother, List.foldl_cons, List.foldl_cons]
    refine ih (fun k => ?_) _
    rw [List.filter_append]
    by_cases hk : key a = k
    · subst hk
      rw [List.filter_eq_nil_iff.mpr hl₁, List.nil_append, hl₂]
    · have hk' := h k
      rw [List.filter_append, List.filter_cons_of_neg (by simpa using hk),
        List.filter_cons_of_neg (by simpa using hk)] at hk'
      exact hk'

end Steps

/-! ## Groups -/

/-- The keyword opens a section of the content. -/
def Keyword.isContent : Keyword → Bool
  | chapter | paragraph | abstract | preface | acknowledgements | appendix | header | blank
  | image => true
  | _ => false

/-- The keyword that stands for a group: all sections of the content are one. -/
def Keyword.group (k : Keyword) : Keyword := if k.isContent then .paragraph else k

/-- The group of a declaration. -/
def Declaration.group (d : Declaration) : Keyword := d.keyword.group

namespace Declaration

@[simp] theorem group_version (l : Literal) : (version l).group = .version := rfl

@[simp] theorem group_documentType (l : Literal) : (documentType l).group = .type := rfl

@[simp] theorem group_title (xs : List TitleFragment) (p : Position) :
    (title xs p).group = .title := rfl

@[simp] theorem group_authors (ms : List Person) (p : Position) : (authors ms p).group = .author :=
  rfl

@[simp] theorem group_assessors (ms : List Person) (p : Position) :
    (assessors ms p).group = .assessor := rfl

@[simp] theorem group_publication (a : Publication) : (publication a).group = .publication := rfl

@[simp] theorem group_style (s : StyleBlock) : (style s).group = .style := rfl

@[simp] theorem group_bibliography (ss : List Source) (p : Position) :
    (bibliography ss p).group = .bibliography := rfl

@[simp] theorem group_element (e : Element) : (element e).group = .paragraph := by
  cases e with
  | content b =>
    obtain ⟨kind, _, _⟩ := b
    cases kind <;> rfl
  | _ => rfl

/-- A declaration stays in its group if its positions are left out. -/
theorem group_unplaced (d : Declaration) : d.unplaced.group = d.group := by
  cases d with
  | element e => exact (group_element _).trans (group_element e).symm
  | _ => rfl

end Declaration

namespace Specification

variable {ds ds' : List Declaration}

/-- Declarations of two groups may change places. -/
theorem declare_comm (spec : Specification) {d e : Declaration} (h : d.group ≠ e.group) :
    ((spec.declare d).unsited.declare e).unsited
      = ((spec.declare e).unsited.declare d).unsited := by
  cases d <;> cases e <;> first | rfl | simp at h

/-- If every group has the same declarations up to positions, the specifications are the same up to
positions. -/
theorem unplaced_ofDeclarations_groups
    (h : ∀ g, (ds'.filter fun d => d.group = g).map Declaration.unplaced
      = (ds.filter fun d => d.group = g).map Declaration.unplaced) :
    (ofDeclarations ds').unplaced = (ofDeclarations ds).unplaced := by
  have hgroup (ds : List Declaration) (g : Keyword) :
      ((ds.map Declaration.unplaced).filter fun d => d.group = g)
        = (ds.filter fun d => d.group = g).map Declaration.unplaced := by
    rw [List.filter_map]
    simp [Function.comp_def, Declaration.group_unplaced]
  unfold ofDeclarations
  rw [unplaced_foldl, unplaced_foldl]
  refine foldl_eq_of_filter_eq (fun spec _ _ h => declare_comm spec h) (fun g => ?_) _
  rw [hgroup, hgroup, h g]

/-- A declaration of any other group is of a section that may stand once. -/
theorem single_of_group {d : Declaration} (hauthor : d.group ≠ .author)
    (hassessor : d.group ≠ .assessor) (hcontent : d.group ≠ .paragraph) :
    d.keyword = d.group ∧ d.keyword.isRepeatable = false := by
  cases d with
  | authors => exact absurd rfl hauthor
  | assessors => exact absurd rfl hassessor
  | element e => exact absurd (Declaration.group_element e) hcontent
  | _ => exact ⟨rfl, rfl⟩

/-- A group of a section that may stand once is the same in any order. -/
theorem filter_group_of_perm (hperm : ds.Perm ds')
    (ho : ds.Pairwise fun d e => e.keyword.isRepeatable = true ∨ e.keyword ≠ d.keyword)
    {g : Keyword} (hauthor : g ≠ .author) (hassessor : g ≠ .assessor) (hcontent : g ≠ .paragraph) :
    (ds'.filter fun d => d.group = g) = ds.filter fun d => d.group = g := by
  have hfilter : (ds.filter fun d => d.group = g).Perm (ds'.filter fun d => d.group = g) :=
    hperm.filter _
  have hpairwise := ho.filter fun d => decide (d.group = g)
  have hmem : ∀ d ∈ ds.filter fun d => d.group = g, d.group = g := by
    intro d hd
    simpa using (List.mem_filter.mp hd).2
  generalize (ds.filter fun d => d.group = g) = l at *
  match l with
  | [] => exact List.nil_perm.mp hfilter
  | [d] => exact (List.singleton_perm.mp hfilter).symm
  | d :: e :: l =>
    have hd := hmem d List.mem_cons_self
    have he := hmem e (List.mem_cons_of_mem d List.mem_cons_self)
    obtain ⟨hdk, -⟩ := single_of_group (hd ▸ hauthor) (hd ▸ hassessor) (hd ▸ hcontent)
    obtain ⟨hek, hrep⟩ := single_of_group (he ▸ hauthor) (he ▸ hassessor) (he ▸ hcontent)
    rcases (List.pairwise_cons.mp hpairwise).1 e List.mem_cons_self with h | h
    · rw [hrep] at h
      cases h
    · exact absurd (hek.trans (he.trans (hd.symm.trans hdk.symm))) h

end Specification

end Manuscript
