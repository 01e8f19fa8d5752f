import Mathlib.Data.List.Forall2
import Mathlib.Data.List.Perm.Basic
import Mathlib.Tactic.SplitIfs
import Manuscript.Proofs.Canonical.Tree
import Manuscript.Proofs.Specification.Unplaced
import Manuscript.Proofs.Token.LineGroups
import Manuscript.Proofs.Token.Passing

/-!
# Passages of a source

A passage is a line of a source together with the lines of the block below it. The line is known as
it is written, with the blank lines and comments that belong to it, and as the tokens that it is
read as. A passage can be moved as a whole.

* `SourceLine`: a line with the tokens that it is read as.
* `Passage.At`: the lines of a passage stand at the depths that its form says.
* `Passage.tokens_eq`: the tokens of a passage are those of its line and of its block.
-/

namespace Manuscript

open Canonical

/-- The characters of one line. Blank lines and comments may stand around it, and a text may go on
over more than one line of the source; but the next character is the first of a line. -/
structure SourceLine where
  chars : List Char
  /-- What the characters are read as at the start of a source. -/
  tokens : TokenLine
  read : ∃ l : Lexer, Lexer.Passes {} chars tokens.tokens l ∧ l.Fresh

namespace SourceLine

/-- A line can be told by scanning it. -/
theorem read_of_feedAll {cs : List Char} {ts : List Token} {l : Lexer}
    (h : Scanner.feedAll {} cs = (⟨l, ts⟩, none)) (hl : l.Fresh) :
    ∃ l : Lexer, Lexer.Passes {} cs ts l ∧ l.Fresh := by
  obtain ⟨us, rfl, hpasses⟩ := Lexer.Passes.of_feedAll h
  exact ⟨l, hpasses, hl⟩

/-- The depth of the line. -/
def depth (line : SourceLine) : Nat := line.tokens.depth

/-- The first token of the line, without its position. -/
def first (line : SourceLine) : Token :=
  (line.tokens.content.head line.tokens.content_ne_nil).unplaced

/-- The other tokens of the line up to its end, without their positions. -/
def rest (line : SourceLine) : List Token := line.tokens.content.tail.map Token.unplaced

/-- The end of the line, without its position. -/
def stop (line : SourceLine) : Token := line.tokens.stop.unplaced

theorem content_eq (line : SourceLine) :
    line.tokens.content.map Token.unplaced = line.first :: line.rest := by
  unfold first rest
  rw [← List.map_cons, List.cons_head_tail]

theorem isLineEnd_stop (line : SourceLine) : line.stop.isLineEnd = true := by
  have hk : line.stop.kind = .lineEnd := line.tokens.stop_lineEnd
  unfold Token.isLineEnd
  rw [hk]
  rfl

/-- A token of a line is neither its end nor a mark of its depth. -/
theorem plain_of_speaks {t : Token} (h : t.Speaks) : t.isLineEnd = false ∧ t.isIndent = false := by
  unfold Token.isLineEnd Token.isIndent
  rcases h.kind with hk | hk | hk <;> rw [hk] <;> exact ⟨rfl, rfl⟩

theorem plain_first (line : SourceLine) :
    line.first.isLineEnd = false ∧ line.first.isIndent = false :=
  plain_of_speaks (t := line.tokens.content.head line.tokens.content_ne_nil)
    (line.tokens.content_speaks _ (List.head_mem _))

theorem isLineEnd_rest (line : SourceLine) : ∀ t ∈ line.rest, t.isLineEnd = false := by
  intro t ht
  obtain ⟨u, hu, rfl⟩ := List.mem_map.mp ht
  exact (plain_of_speaks (line.tokens.content_speaks u (List.mem_of_mem_tail hu))).1

theorem indent_first (line : SourceLine) : line.first.indent = line.depth := by
  refine line.tokens.indent_eq (line.tokens.content.head line.tokens.content_ne_nil) ?_
  exact List.mem_append_left _ (List.mem_append_right _ (List.head_mem _))

/-- A token that is the first of the line, wherever it stands, is neither the end of a line nor a
mark, and stands at the depth of the line. -/
theorem of_first {line : SourceLine} {t : Token} (ht : t.unplaced = line.first) :
    t.isLineEnd = false ∧ t.isIndent = false ∧ t.indent = line.depth := by
  obtain ⟨hstop, hmark⟩ := line.plain_first
  have hdepth := line.indent_first
  rw [← ht] at hstop hmark hdepth
  exact ⟨hstop, hmark, hdepth⟩

end SourceLine

/-- A line and the passages of the block below it. -/
inductive Passage where
  | lines (line : SourceLine) (members : List Passage)

namespace Passage

/-- The line that the passage begins with. -/
def line : Passage → SourceLine
  | lines line _ => line

/-- The passages of the block below the line. -/
def members : Passage → List Passage
  | lines _ members => members

mutual
/-- The characters of a passage. -/
def chars : Passage → List Char
  | lines line members => line.chars ++ charsOf members

/-- The characters of passages one after the other. -/
def charsOf : List Passage → List Char
  | [] => []
  | p :: ps => p.chars ++ charsOf ps
end

/-- The lines of a passage at a depth: its first line stands there, and the block one deeper. -/
inductive At : Nat → Passage → Prop
  | lines {line : SourceLine} {members : List Passage}
      (hmembers : ∀ p ∈ members, At (line.depth + 1) p) : At line.depth (lines line members)

/-- The keyword that the passage begins with. -/
def keyword? (p : Passage) : Option Keyword := p.line.first.keyword?

/-! ## Tokens -/

mutual
/-- The tokens of a passage behind a line that is not less deep, without their positions. -/
def tokens : Passage → List Token
  | lines line members =>
    line.first :: (line.rest ++ line.stop ::
      (if members.isEmpty then [] else indentTo (line.depth + 1) :: tokensOf members))

/-- The tokens of passages one after the other. -/
def tokensOf : List Passage → List Token
  | [] => []
  | p :: ps => p.tokens ++ tokensOf ps
end

/-- The tokens of a block behind the line that opens it. -/
def blockOf (depth : Nat) (ps : List Passage) : List Token :=
  if ps.isEmpty then [] else indentTo depth :: tokensOf ps

/-- The tokens of a passage behind its first. -/
def behind (p : Passage) : List Token :=
  p.line.rest ++ p.line.stop :: blockOf (p.line.depth + 1) p.members

theorem tokens_eq (p : Passage) : p.tokens = p.line.first :: p.behind := by
  cases p with
  | lines line members =>
    rw [tokens]
    rfl

mutual
/-- The tokens of a passage have no positions. -/
theorem unplaced_tokens (p : Passage) : p.tokens.map Token.unplaced = p.tokens := by
  obtain ⟨line, members⟩ := p
  have hrest : line.rest.map Token.unplaced = line.rest := by
    unfold SourceLine.rest
    rw [List.map_map]
    rfl
  have hmembers := unplaced_tokensOf members
  rw [tokens, List.map_cons, List.map_append, List.map_cons, hrest]
  split_ifs with hempty
  · rfl
  · rw [List.map_cons, hmembers]
    rfl

/-- Nor have those of passages one after the other. -/
theorem unplaced_tokensOf (ps : List Passage) :
    (tokensOf ps).map Token.unplaced = tokensOf ps := by
  cases ps with
  | nil => rfl
  | cons p ps => rw [tokensOf, List.map_append, unplaced_tokens p, unplaced_tokensOf ps]
end

theorem unplaced_behind (p : Passage) : p.behind.map Token.unplaced = p.behind := by
  have htokens := p.unplaced_tokens
  rw [tokens_eq, List.map_cons] at htokens
  exact (List.cons.inj htokens).2

theorem at_iff {d : Nat} {p : Passage} :
    p.At d ↔ p.line.depth = d ∧ ∀ m ∈ p.members, m.At (d + 1) := by
  constructor
  · rintro ⟨hmembers⟩
    exact ⟨rfl, hmembers⟩
  · obtain ⟨line, members⟩ := p
    rintro ⟨rfl, hmembers⟩
    exact .lines hmembers

theorem At.depth_eq {d : Nat} {p : Passage} (h : p.At d) : p.line.depth = d := (at_iff.mp h).1

/-- The first token of a passage stands at its depth. -/
theorem At.indent_eq {d : Nat} {p : Passage} (h : p.At d) {t : Token}
    (ht : t.unplaced = p.line.first) : t.indent = d :=
  (SourceLine.of_first ht).2.2.trans h.depth_eq

theorem At.members {d : Nat} {p : Passage} (h : p.At d) : ∀ m ∈ p.members, m.At (d + 1) :=
  (at_iff.mp h).2

/-! ## Other forms of a passage

The lines of a passage are kept, and the members of some blocks change places. -/

/-- The members of the block stand in another order. -/
structure Permuted (m m' : Passage) : Prop where
  line : m'.line = m.line
  members : m.members.Perm m'.members

/-- A setting of a style may have its own settings in another order, but the order of the parts of
a document is what it says. -/
structure SettingPermuted (m m' : Passage) : Prop extends Permuted m m' where
  parts : m.keyword? = some .sectionOrder → m' = m

/-- The settings of a style stand in another order, and so do theirs. -/
structure StylePermuted (m m' : Passage) : Prop where
  line : m'.line = m.line
  members : ∃ ms, List.Forall₂ SettingPermuted m.members ms ∧ ms.Perm m'.members

/-- The fields of the sources of a bibliography stand in another order. -/
structure SourcesPermuted (m m' : Passage) : Prop where
  line : m'.line = m.line
  members : List.Forall₂ Permuted m.members m'.members

/-- What may change places inside a section. -/
def Rearranged (m m' : Passage) : Prop :=
  match m.keyword? with
  | some .author | some .assessor | some .publication | some .image => Permuted m m'
  | some .style => StylePermuted m m'
  | some .bibliography => SourcesPermuted m m'
  | _ => m' = m

section Forms

variable {m m' : Passage} {d : Nat}

theorem Permuted.at (h : Permuted m m') (hm : m.At d) : m'.At d := by
  obtain ⟨hdepth, hmembers⟩ := at_iff.mp hm
  refine at_iff.mpr ⟨h.line ▸ hdepth, fun x hx => ?_⟩
  exact hmembers x (h.members.mem_iff.mpr hx)

/-- Passages one after the other stand at a depth if others do that are related to them. -/
theorem forall_at {R : Passage → Passage → Prop} (hR : ∀ x x', R x x' → x.At d → x'.At d)
    {xs xs' : List Passage} (h : List.Forall₂ R xs xs') (hxs : ∀ x ∈ xs, x.At d) :
    ∀ x ∈ xs', x.At d := by
  induction h with
  | nil => exact hxs
  | @cons x x' xs xs' hx _ ih =>
    obtain ⟨hat, hrest⟩ := List.forall_mem_cons.mp hxs
    exact List.forall_mem_cons.mpr ⟨hR x x' hx hat, ih hrest⟩

theorem StylePermuted.at (h : StylePermuted m m') (hm : m.At d) : m'.At d := by
  obtain ⟨hdepth, hmembers⟩ := at_iff.mp hm
  obtain ⟨ms, hms, hperm⟩ := h.members
  have hat := forall_at (fun _ _ hx => hx.toPermuted.at) hms hmembers
  exact at_iff.mpr ⟨h.line ▸ hdepth, fun x hx => hat x (hperm.mem_iff.mpr hx)⟩

theorem SourcesPermuted.at (h : SourcesPermuted m m') (hm : m.At d) : m'.At d := by
  obtain ⟨hdepth, hmembers⟩ := at_iff.mp hm
  exact at_iff.mpr ⟨h.line ▸ hdepth, forall_at (fun _ _ hx => hx.at) h.members hmembers⟩

theorem Rearranged.at (h : Rearranged m m') (hm : m.At d) : m'.At d := by
  unfold Rearranged at h
  split at h
  · exact h.at hm
  · exact h.at hm
  · exact h.at hm
  · exact h.at hm
  · exact h.at hm
  · exact h.at hm
  · rwa [h]

theorem Rearranged.line_eq (h : Rearranged m m') : m'.line = m.line := by
  unfold Rearranged at h
  split at h
  · exact h.line
  · exact h.line
  · exact h.line
  · exact h.line
  · exact h.line
  · exact h.line
  · rw [h]

end Forms

end Passage

end Manuscript
