import Mathlib.Data.List.Nodup
import Mathlib.Logic.Function.Basic
import Manuscript.Proofs.Reordering.Blocks

/-!
# Members in any order

In most blocks each member declares something of its own: it fills a slot that no other member
fills. What such a block is read as does not depend on the order of the members, because filling a
slot neither depends on the other slots nor changes them.

A state of the block is seen as the values under the keywords that were declared, without their
positions.

* `Fills`: what a member that was read does to the slots.
* `rereads_blockPerm`: the members of a block in another order.
-/

namespace Manuscript

open Canonical

namespace Grammar

open Production

variable {α β σ V : Type}

/-! ## Values under keywords -/

section Filled

variable {f g g' : Keyword → Option V} {k : Keyword} {v : V} {items items' : List (Keyword × V)}

/-- Nothing stands under the keywords of some items, and no two of them have the same. -/
structure Free (f : Keyword → Option V) (items : List (Keyword × V)) : Prop where
  nodup : (items.map Prod.fst).Nodup
  unset : ∀ item ∈ items, f item.1 = none

/-- The items, and nothing else, were added. -/
def Filled (f : Keyword → Option V) (items : List (Keyword × V)) (g : Keyword → Option V) : Prop :=
  ∀ k v, g k = some v ↔ f k = some v ∨ (k, v) ∈ items

theorem free_nil (f : Keyword → Option V) : Free f [] := ⟨List.nodup_nil, nofun⟩

/-- An item is added in front of others that have other keywords. -/
theorem Free.cons (hk : f k = none) (h : Free (Function.update f k (some v)) items) :
    Free f ((k, v) :: items) := by
  have hother : ∀ item ∈ items, item.1 ≠ k := by
    intro item hitem heq
    have hnone := h.unset item hitem
    rw [heq, Function.update_self] at hnone
    cases hnone
  refine ⟨List.nodup_cons.mpr ⟨fun hmem => ?_, h.nodup⟩, List.forall_mem_cons.mpr ⟨hk, ?_⟩⟩
  · obtain ⟨item, hitem, heq⟩ := List.mem_map.mp hmem
    exact hother item hitem heq
  · intro item hitem
    rw [← h.unset item hitem, Function.update_of_ne (hother item hitem)]

theorem Free.tail (h : Free f ((k, v) :: items)) : Free (Function.update f k (some v)) items := by
  have hnodup := List.nodup_cons.mp h.nodup
  refine ⟨hnodup.2, fun item hitem => ?_⟩
  have hother : item.1 ≠ k := by
    intro heq
    exact hnodup.1 (List.mem_map.mpr ⟨item, hitem, heq⟩)
  rw [Function.update_of_ne hother]
  exact h.unset item (List.mem_cons_of_mem _ hitem)

theorem Free.perm (h : Free f items) (hp : items.Perm items') : Free f items' :=
  ⟨(hp.map Prod.fst).nodup_iff.mp h.nodup, fun item hitem => h.unset item (hp.mem_iff.mpr hitem)⟩

theorem filled_nil (f : Keyword → Option V) : Filled f [] f := fun k v => by simp

theorem Filled.cons (hk : f k = none) (h : Filled (Function.update f k (some v)) items g) :
    Filled f ((k, v) :: items) g := by
  intro j w
  rw [h j w, List.mem_cons, ← or_assoc]
  refine or_congr_left ?_
  by_cases hj : j = k
  · subst hj
    rw [Function.update_self, hk]
    simp [eq_comm]
  · rw [Function.update_of_ne hj]
    simp [hj]

theorem Filled.perm (h : Filled f items g) (hp : items.Perm items') : Filled f items' g := by
  intro k v
  rw [h k v, hp.mem_iff]

/-- What is there afterwards is known from the items. -/
theorem Filled.eq (h : Filled f items g) (h' : Filled f items g') : g' = g := by
  funext k
  refine Option.ext fun v => ?_
  rw [h' k v, h k v]

end Filled

/-! ## Members that fill slots -/

variable {view : σ → Keyword → Option V} {member : σ → Token → Production σ} {k : Keyword}
  {x x' : Passage} {d : Nat}

/-- Wherever nothing stands under the keyword, the passage is read as its value. -/
def Slot (view : σ → Keyword → Option V) (member : σ → Token → Production σ) (d : Nat)
    (x : Passage) (item : Keyword × V) : Prop :=
  ∀ s t, t.unplaced = x.line.first → view s item.1 = none →
    Reads (member s t) x.behind (Follows d) fun s' =>
      view s' = Function.update (view s) item.1 (some item.2)

/-- If the first passage is read, it is read as a value under a keyword that was not declared
before, and the second passage is one that is read as the same value. -/
def Fills (view : σ → Keyword → Option V) (k : Keyword) (member : σ → Token → Production σ)
    (x x' : Passage) : Prop :=
  ∀ s t ts rest b q s₁ us b' q', t.unplaced = x.line.first → ts.map Token.unplaced = x.behind →
    Follows x.line.depth rest →
      (member s t).run (.before (ts ++ rest) b q) = (.ok s₁, .before us b' q') →
        (∀ u ∈ us.head?, u.isIndent = false) →
          us = rest ∧ ∃ v, view s k = none ∧ view s₁ = Function.update (view s) k (some v)
            ∧ Slot view member x.line.depth x' (k, v)

/-- A member begins with its keyword. -/
theorem Fills.memberKeyword (body : Keyword → σ → Token → Production σ) {expected : String}
    {accepts : Keyword → Bool} (hline : x'.line = x.line)
    (h : ∀ k, x.line.first.keyword? = some k → accepts k = true → ∃ j, Fills view j (body k) x x') :
    ∃ j, Fills view j (fun s t => memberKeyword t expected accepts >>= fun k => body k s t)
      x x' := by
  by_cases hkeyword : ∃ k, x.line.first.keyword? = some k ∧ accepts k = true
  · obtain ⟨k, hk, haccepts⟩ := hkeyword
    obtain ⟨j, hfills⟩ := h k hk haccepts
    -- in front of both passages stands the same keyword
    have hbody (s : σ) (t : Token) (ht : t.unplaced = x.line.first) :
        (Grammar.memberKeyword t expected accepts >>= fun k => body k s t) = body k s t := by
      have hkt : t.keyword? = some k := by
        rw [← hk, ← ht]
        rfl
      rw [memberKeyword_eq expected hkt haccepts, done_bind]
    refine ⟨j, ?_⟩
    intro s t ts rest b q s₁ us b' q' ht hts hrest hr hus
    dsimp only at hr
    rw [hbody s t ht] at hr
    obtain ⟨rfl, v, hnone, hset, hslot⟩ := hfills s t ts rest b q s₁ us b' q' ht hts hrest hr hus
    refine ⟨rfl, v, hnone, hset, fun s' t' ht' hnone' => ?_⟩
    dsimp only
    rw [hbody s' t' (ht'.trans (congrArg SourceLine.first hline))]
    exact hslot s' t' ht' hnone'
  · -- a member without one is never read
    refine ⟨.id, ?_⟩
    intro s t ts rest b q s₁ us b' q' ht hts hrest hr hus
    dsimp only at hr
    have hkt : t.keyword? = x.line.first.keyword? := by
      rw [← ht]
      rfl
    unfold Grammar.memberKeyword at hr
    rw [hkt] at hr
    cases hk : x.line.first.keyword? with
    | none =>
      rw [hk] at hr
      cases hr
    | some k =>
      have hrefused : ¬ accepts k = true := fun ha => hkeyword ⟨k, hk, ha⟩
      simp only [hk, if_neg hrefused] at hr
      cases hr

section Piece

variable {same : α → α → Prop} (piece : Token → Production α) (taken : σ → Bool)
  (put : σ → Token → α → σ) (val : α → V)

/-- A member is refused, once it was read, if its keyword was declared before. -/
theorem Fills.checked (hline : x'.line = x.line)
    (hpiece : ∀ t t', t.unplaced = x.line.first → t'.unplaced = x.line.first →
      RereadsPassage (piece t) (piece t') x x' same)
    (htaken : ∀ s, taken s = false ↔ view s k = none)
    (hput : ∀ s t t' a a', same a a' → view s k = none →
      view (put s t a) = Function.update (view s) k (some (val a))
        ∧ view (put s t' a') = Function.update (view s) k (some (val a))) :
    Fills view k (fun s t => piece t >>= fun a =>
      if taken s then fail (.repeated t) else done (put s t a)) x x' := by
  intro s t ts rest b q s₁ us b' q' ht hts hrest hr hus
  obtain ⟨a, vs, b₁, q₁, hpiecerun, hput₁⟩ := of_run_bind_before hr
  have hfree : taken s = false := by
    by_contra htrue
    rw [if_pos (by simpa using htrue)] at hput₁
    cases hput₁
  rw [hfree, if_neg Bool.false_ne_true] at hput₁
  cases hput₁
  have hagain (t' : Token) (ht' : t'.unplaced = x.line.first) :=
    hpiece t t' ht ht' ts rest b q a us _ _ hts hrest hpiecerun hus
  obtain ⟨rfl, hreads⟩ := hagain t ht
  obtain ⟨a', ha'⟩ := hreads.exists_value nofun
  have hnone := (htaken s).mp hfree
  refine ⟨rfl, val a, hnone, (hput s t t a a' ha' hnone).1, fun s' t' ht' hnone' => ?_⟩
  have hread := (hagain t' (ht'.trans (congrArg SourceLine.first hline))).2
  simp only [(htaken s').mpr hnone', Bool.false_eq_true, if_false]
  exact hread.map fun a'' ha'' => (hput s' t' t' a a'' ha'' hnone').2

/-- A member is refused at once if its keyword was declared before. -/
theorem Fills.guarded (hline : x'.line = x.line)
    (hpiece : ∀ t t', t.unplaced = x.line.first → t'.unplaced = x.line.first →
      RereadsPassage (piece t) (piece t') x x' same)
    (htaken : ∀ s, taken s = false ↔ view s k = none)
    (hput : ∀ s t t' a a', same a a' → view s k = none →
      view (put s t a) = Function.update (view s) k (some (val a))
        ∧ view (put s t' a') = Function.update (view s) k (some (val a))) :
    Fills view k (fun s t =>
      if taken s then fail (.repeated t) else piece t >>= fun a => done (put s t a)) x x' := by
  have hchecked := Fills.checked piece taken put val hline hpiece htaken hput
  -- if nothing was declared, it does not matter when that is checked
  have hmember (s : σ) (t : Token) (hfree : taken s = false) :
      (if taken s then fail (.repeated t) else piece t >>= fun a => done (put s t a))
        = piece t >>= fun a => if taken s then fail (.repeated t) else done (put s t a) := by
    simp only [hfree, Bool.false_eq_true, if_false]
  intro s t ts rest b q s₁ us b' q' ht hts hrest hr hus
  dsimp only at hr
  have hfree : taken s = false := by
    by_contra htrue
    rw [if_pos (by simpa using htrue)] at hr
    cases hr
  rw [hmember s t hfree] at hr
  obtain ⟨rfl, v, hnone, hset, hslot⟩ := hchecked s t ts rest b q s₁ us b' q' ht hts hrest hr hus
  refine ⟨rfl, v, hnone, hset, fun s' t' ht' hnone' => ?_⟩
  dsimp only
  rw [hmember s' t' ((htaken s').mpr hnone')]
  exact hslot s' t' ht' hnone'

end Piece

/-! ## Blocks -/

/-- What the members that were read are read as, wherever they stand. -/
theorem of_run_fills {R : Passage → Passage → Prop}
    (hmember : ∀ x x', x.At (d + 1) → R x x' → ∃ k, Fills view k member x x')
    {xs xs' : List Passage} (hxs : List.Forall₂ R xs xs') (hat : ∀ x ∈ xs, x.At (d + 1))
    {s a : σ} {vs rest us : List Token} {b b' : Bool} {q q' : Position}
    (hvs : vs.map Token.unplaced = Passage.tokensOf xs) (hrest : Follows d rest)
    (hr : (memberLines (d + 1) s member).run (.before (vs ++ rest) b q)
      = (.ok a, .before us b' q')) :
    us = rest ∧ ∃ items, List.Forall₂ (Slot view member (d + 1)) xs' items
      ∧ Free (view s) items ∧ Filled (view s) items (view a) := by
  induction hxs generalizing s vs b q with
  | nil =>
    obtain rfl := List.map_eq_nil_iff.mp hvs
    obtain ⟨rfl, rfl⟩ := of_run_memberLines_nil hrest hr
    exact ⟨rfl, [], .nil, free_nil _, filled_nil _⟩
  | @cons x x' xs xs' hx _ ih =>
    have hat₁ : x.At (d + 1) := hat x List.mem_cons_self
    obtain ⟨t, ts, ws, s₁, us₁, b₁, q₁, rfl, ht, hts, hws, hrun, hus₁, hlines⟩ :=
      of_run_memberLines hat₁ hvs hr
    have hxs₁ : ∀ y ∈ xs, y.At (d + 1) := fun y hy => hat y (List.mem_cons_of_mem x hy)
    have hfollow : Follows x.line.depth (ws ++ rest) := by
      rw [hat₁.depth_eq]
      exact follows_members hxs₁ hws (hrest.of_le (Nat.le_succ d))
    obtain ⟨k, hfills⟩ := hmember x x' hat₁ hx
    obtain ⟨rfl, v, hnone, hset, hslot⟩ :=
      hfills s t ts (ws ++ rest) _ _ s₁ us₁ b₁ q₁ ht hts hfollow hrun hus₁
    rw [hat₁.depth_eq] at hslot
    obtain ⟨rfl, items, hitems, hfree, hfilled⟩ := ih hxs₁ hws hlines
    rw [hset] at hfree hfilled
    exact ⟨rfl, (k, v) :: items, .cons hslot hitems, hfree.cons hnone, hfilled.cons hnone⟩

/-- Members that fill slots are read, if the slots are free. -/
theorem reads_slots {xs : List Passage} {items : List (Keyword × V)}
    (hxs : List.Forall₂ (Slot view member (d + 1)) xs items) (hat : ∀ x ∈ xs, x.At (d + 1)) {s : σ}
    (hfree : Free (view s) items) :
    Reads (memberLines (d + 1) s member) (Passage.tokensOf xs) (Follows d)
      fun a => Filled (view s) items (view a) := by
  induction hxs generalizing s with
  | nil => exact reads_lines_nil (filled_nil _)
  | @cons x item xs items hx _ ih =>
    have hxs₁ : ∀ y ∈ xs, y.At (d + 1) := fun y hy => hat y (List.mem_cons_of_mem x hy)
    have hnone : view s item.1 = none := hfree.unset item List.mem_cons_self
    refine reads_memberLines (hat x List.mem_cons_self) hxs₁
      (fun rest hrest => hrest.of_le (Nat.le_succ d)) (fun t ht => hx s t ht hnone)
      fun s' hs' => ?_
    have htail : Free (view s') items := by
      rw [hs']
      exact hfree.tail
    refine (ih hxs₁ htail).mono (fun _ h => h) fun a ha => ?_
    rw [hs'] at ha
    exact ha.cons hnone

/-- The members of a block in another order: what they declare is the same. -/
theorem rereads_blockPerm (view : σ → Keyword → Option V) {m m' : Passage}
    {R : Passage → Passage → Prop} {ms : List Passage} {opener opener' : Token} {s s' : σ}
    (hmember : ∀ x x', x.At (m.line.depth + 1) → R x x' → ∃ k, Fills view k member x x')
    (hline : m'.line = m.line) (hms : List.Forall₂ R m.members ms) (hperm : ms.Perm m'.members)
    (hat : ∀ x ∈ m.members, x.At (m.line.depth + 1))
    (hat' : ∀ x ∈ m'.members, x.At (m.line.depth + 1)) (ho : opener.indent = m.line.depth)
    (ho' : opener'.indent = m.line.depth) (hs : view s' = view s) :
    RereadsPassage (block opener s member) (block opener' s' member) m m'
      fun a a' => view a' = view a := by
  intro ts rest b q a us b' q' hts hrest hr hus
  obtain ⟨hne, hempty, vs, b₁, q₁, hvs, hlines⟩ := of_run_block ho hts hrest hr
  obtain ⟨rfl, items, hitems, hfree, hfilled⟩ := of_run_fills hmember hms hat hvs hrest hlines
  refine ⟨rfl, ?_⟩
  have hne' : m'.members ≠ [] := by
    intro hnil
    rw [hnil, List.perm_nil] at hperm
    exact hne (List.forall₂_nil_right_iff.mp (hperm ▸ hms))
  -- the items change places with the members that they come from
  obtain ⟨items', hitems', hperm'⟩ := List.perm_comp_forall₂ hperm.symm hitems
  rw [← hline] at ho' hempty hat' hitems' ⊢
  refine reads_blockOf ho' hempty hne' ?_
  have hfree' : Free (view s') items' := by
    rw [hs]
    exact hfree.perm hperm'.symm
  refine (reads_slots hitems' hat' hfree').mono (fun _ h => h) fun a' ha' => ?_
  rw [hs] at ha'
  exact (hfilled.perm hperm'.symm).eq ha'

end Grammar

end Manuscript
