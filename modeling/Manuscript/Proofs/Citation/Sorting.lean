import Mathlib.Data.Prod.Lex
import Mathlib.Data.String.Basic
import Manuscript.Proofs.Citation.Printed

/-!
# The order of the bibliography

Entries are sorted by a pair of texts in small letters. The sort is stable, and where no two entries
have one key, it does not matter in which order they come.

* `sortKey_ofSource`: a work is sorted by the key under which its source is listed.
* `sorted_sort`: sorting rearranges entries by their keys and keeps the order within a key.
* `sort_eq_of_perm`: entries with different keys are sorted alike in whatever order they come.
-/

namespace Manuscript

/-! ## Keys -/

/-- The surname is the last word of a name. -/
theorem PersonalName.surname_ofText (text : String) :
    (PersonalName.ofText text).surname = (Text.wordsOf text).getLast?.getD "" := by
  unfold ofText
  dsimp only
  cases (Text.wordsOf text).getLast? <;> rfl

/-- What a source is listed under: the surname of its first author, or its title where it has no
author, and then its title, in small letters. -/
def Source.listingKey (s : Source) : String × String :=
  let title := Text.lowercase (s.title.elim "" (·.trimmed))
  match s.authors.head? with
  | some author => (Text.lowercase ((Text.wordsOf author.value).getLast?.getD ""), title)
  | none => (title, title)

/-- A work is sorted by the key under which its source is listed. -/
theorem sortKey_ofSource {s : Source} {w : Work} (h : Work.ofSource s = .ok w) :
    w.sortKey = s.listingKey := by
  obtain ⟨title, details, htitle, -, rfl⟩ := Work.of_ofSource h
  unfold Work.sortKey Source.listingKey
  dsimp only
  rw [htitle, List.head?_map]
  cases s.authors.head? with
  | none => rfl
  | some author =>
    show (Text.lowercase (PersonalName.ofText author.value).surname, _) = _
    rw [PersonalName.surname_ofText]
    rfl

namespace Entry

/-- Keys are compared as pairs, the first part before the second. -/
theorem keyLe_iff {k l : String × String} : keyLe k l = true ↔ toLex k ≤ toLex l := by
  rw [Prod.Lex.toLex_le_toLex]
  unfold keyLe
  simp only [Bool.or_eq_true, Bool.and_eq_true, decide_eq_true_eq, beq_iff_eq]

theorem keyLe_trans (e f g : Entry) (h : keyLe e.sortKey f.sortKey = true)
    (h' : keyLe f.sortKey g.sortKey = true) : keyLe e.sortKey g.sortKey = true := by
  rw [keyLe_iff] at h h' ⊢
  exact h.trans h'

/-- Of two keys one sorts before the other, or they are equal. -/
theorem keyLe_total (e f : Entry) :
    (keyLe e.sortKey f.sortKey || keyLe f.sortKey e.sortKey) = true := by
  rw [Bool.or_eq_true, keyLe_iff, keyLe_iff]
  exact le_total _ _

/-! ## Sorting -/

/-- Entries in the order of their keys: they are the declared entries, none sorts before one in
front of it, and those of one key stand as they were declared. -/
structure Sorted (declared entries : List Entry) : Prop where
  perm : entries.Perm declared
  ordered : entries.Pairwise fun e f => toLex e.sortKey ≤ toLex f.sortKey
  stable : ∀ key, (entries.filter fun e => e.sortKey = key)
    = declared.filter fun e => e.sortKey = key

/-- Sorting rearranges entries by their keys and keeps the order within a key. -/
theorem sorted_sort (entries : List Entry) : Sorted entries (sort entries) := by
  have hperm : (sort entries).Perm entries := List.mergeSort_perm entries _
  constructor
  · exact hperm
  · have hsorted := List.pairwise_mergeSort keyLe_trans keyLe_total entries
    exact hsorted.imp keyLe_iff.mp
  · intro key
    -- the entries of one key are sorted as they are, so the sort keeps them as they are
    have hequal : (entries.filter fun e => e.sortKey = key).Pairwise
        fun e f => keyLe e.sortKey f.sortKey = true := by
      apply List.pairwise_of_forall_mem_list
      intro e he f hf
      have hekey : e.sortKey = key := by simpa using List.of_mem_filter he
      have hfkey : f.sortKey = key := by simpa using List.of_mem_filter hf
      rw [keyLe_iff, hekey, hfkey]
    have hsublist : (entries.filter fun e => e.sortKey = key).Sublist (sort entries) :=
      List.sublist_mergeSort keyLe_trans keyLe_total hequal List.filter_sublist
    have hfiltered := hsublist.filter fun e => decide (e.sortKey = key)
    rw [List.filter_filter] at hfiltered
    simp only [Bool.and_self] at hfiltered
    have hlength := (hperm.filter fun e => decide (e.sortKey = key)).length_eq
    exact (hfiltered.eq_of_length hlength.symm).symm

/-- Entries with different keys are sorted alike in whatever order they come. -/
theorem sort_eq_of_perm {es fs : List Entry} (hperm : fs.Perm es)
    (hkeys : (es.map sortKey).Nodup) : sort fs = sort es := by
  have hes := sorted_sort es
  have hfs := sorted_sort fs
  have hsorted : (sort fs).Perm (sort es) := hfs.perm.trans (hperm.trans hes.perm.symm)
  -- entries that sort before each other have one key, so they are one entry
  refine List.Perm.eq_of_pairwise ?_ hfs.ordered hes.ordered hsorted
  intro e f he hf hef hfe
  have hkey : e.sortKey = f.sortKey := toLex_inj.mp (le_antisymm hef hfe)
  have hmem : e ∈ es := hperm.subset (hfs.perm.subset he)
  exact List.inj_on_of_nodup_map hkeys hmem (hes.perm.subset hf) hkey

end Entry

end Manuscript
