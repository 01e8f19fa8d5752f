import Mathlib.Data.List.Forall2
import Mathlib.Data.List.Perm.Basic
import Manuscript.Proofs.Reordering.Passage
import Manuscript.Proofs.Reordering.Rereading

/-!
# Reading passages again

A production that read a passage reads another form of it, in which the members of its blocks may
stand in another order. Nothing but the passage is read: a line that is deeper than the passage ends
no block, and a line that is not ends all of them.

* `RereadsPassage`: what is read of one passage is read again of another one.
* `of_run_block`, `reads_blockOf`: from a block to its lines, and back.
* `rereads_block`: the members of a block in their order.
-/

namespace Manuscript

open Canonical

namespace Grammar

open Production

variable {α β σ V : Type} {p p' : Production α} {same : α → α → Prop} {same' : β → β → Prop}
  {m m' : Passage} {d : Nat}

/-- What the first production reads of the first passage behind its first token, the second reads
again of the second passage, up to sameness of the values. -/
def RereadsPassage (p p' : Production α) (m m' : Passage) (same : α → α → Prop) : Prop :=
  ∀ ts rest b q a us b' q', ts.map Token.unplaced = m.behind → Follows m.line.depth rest →
    p.run (.before (ts ++ rest) b q) = (.ok a, .before us b' q') →
      (∀ t ∈ us.head?, t.isIndent = false) →
        us = rest ∧ Reads p' m'.behind (Follows m.line.depth) (same a)

/-! ## Rules -/

theorem RereadsPassage.mono {same' : α → α → Prop} (h : RereadsPassage p p' m m' same)
    (hsame : ∀ a a', same a a' → same' a a') : RereadsPassage p p' m m' same' := by
  intro ts rest b q a us b' q' hts hrest hr hus
  obtain ⟨hus, hreads⟩ := h ts rest b q a us b' q' hts hrest hr hus
  exact ⟨hus, hreads.mono (fun _ h => h) fun a' => hsame a a'⟩

/-- What is made of a passage takes nothing more. -/
theorem RereadsPassage.settle {k k' : α → Production β} (hp : RereadsPassage p p' m m' same)
    (hidle : ∀ a, Idle (k a))
    (hk : ∀ a a' y, same a a' → k a = .done y → ∃ y', k' a' = .done y' ∧ same' y y') :
    RereadsPassage (p >>= k) (p' >>= k') m m' same' := by
  intro ts rest b q y us b' q' hts hrest hr hus
  obtain ⟨x, vs, b₁, q₁, hx, hy⟩ := of_run_bind_before hr
  cases (hidle x).cursor_eq hy
  obtain ⟨rfl, hreads⟩ := hp ts rest b q x us _ _ hts hrest hx hus
  refine ⟨rfl, ?_⟩
  rw [← List.append_nil m'.behind]
  refine hreads.bind (fun vs rest' hvs hrest' => ?_) fun a' ha' => ?_
  · rw [List.map_eq_nil_iff.mp hvs]
    exact hrest'
  · obtain ⟨y', hy', hsame'⟩ := hk x a' y ha' (hidle x y _ _ hy)
    rw [hy']
    exact .done hsame'

theorem RereadsPassage.map {f f' : α → β} (hp : RereadsPassage p p' m m' same)
    (h : ∀ a a', same a a' → same' (f a) (f' a')) :
    RereadsPassage (p >>= fun a => pure (f a)) (p' >>= fun a => pure (f' a)) m m' same' := by
  refine hp.settle (fun a => idle_pure (f a)) fun a a' y ha hy => ?_
  cases hy
  exact ⟨f' a', rfl, h a a' ha⟩

theorem RereadsPassage.fail {e : SyntaxError} : RereadsPassage (fail e) p' m m' same := by
  intro ts rest b q a us b' q' _ _ hr
  cases hr

/-- In front of both passages stands the same keyword. -/
theorem RereadsPassage.memberKeyword {t t' : Token} {expected : String} {accepts : Keyword → Bool}
    {k k' : Keyword → Production α} (ht : t'.unplaced = t.unplaced)
    (hk : ∀ j, t.keyword? = some j → accepts j = true → RereadsPassage (k j) (k' j) m m' same) :
    RereadsPassage (memberKeyword t expected accepts >>= k)
      (memberKeyword t' expected accepts >>= k') m m' same := by
  cases hkeyword : t.keyword? with
  | none =>
    unfold Grammar.memberKeyword
    rw [hkeyword]
    exact .fail
  | some j =>
    by_cases haccepts : accepts j = true
    · rw [memberKeyword_eq expected hkeyword haccepts,
        memberKeyword_eq expected ((keyword_eq ht).trans hkeyword) haccepts]
      exact hk j hkeyword haccepts
    · unfold Grammar.memberKeyword
      simp only [hkeyword, if_neg haccepts]
      exact .fail

/-- The rest of the line of a passage. -/
theorem lineRest_of_unplaced {line : SourceLine} {ts : List Token}
    (hts : ts.map Token.unplaced = line.rest ++ [line.stop]) : LineRest ts := by
  have hrest := line.isLineEnd_rest
  have hstop := line.isLineEnd_stop
  generalize line.rest = es at *
  induction es generalizing ts with
  | nil =>
    obtain ⟨t, us, rfl, ht, hus⟩ := List.map_eq_cons_iff.mp hts
    obtain rfl := List.map_eq_nil_iff.mp hus
    exact .stop (by rw [← hstop, ← ht]; rfl)
  | cons e es ih =>
    obtain ⟨t, us, rfl, ht, hus⟩ := List.map_eq_cons_iff.mp hts
    have hplain : t.isLineEnd = false := by
      rw [← hrest e List.mem_cons_self, ← ht]
      rfl
    exact .cons hplain (ih hus fun t ht => hrest t (List.mem_cons_of_mem e ht))

/-- The tokens of a passage behind its first are the rest of its line and its block. -/
theorem of_behind {ts : List Token} (hts : ts.map Token.unplaced = m.behind) :
    ∃ us vs, ts = us ++ vs ∧ us.map Token.unplaced = m.line.rest ++ [m.line.stop] ∧ LineRest us
      ∧ vs.map Token.unplaced = Passage.blockOf (m.line.depth + 1) m.members := by
  have hsplit : m.behind = (m.line.rest ++ [m.line.stop])
      ++ Passage.blockOf (m.line.depth + 1) m.members := by
    unfold Passage.behind
    simp
  rw [hsplit] at hts
  obtain ⟨us, vs, rfl, hus, hvs⟩ := List.map_eq_append_iff.mp hts
  exact ⟨us, vs, rfl, hus, lineRest_of_unplaced hus, hvs⟩

/-- A block begins with an increase of indentation. -/
theorem of_blockOf {ts : List Token} {ms : List Passage} (hne : ms ≠ [])
    (hts : ts.map Token.unplaced = Passage.blockOf d ms) :
    ∃ t us, ts = t :: us ∧ t.unplaced = indentTo d ∧ t.isIndent = true
      ∧ us.map Token.unplaced = Passage.tokensOf ms := by
  unfold Passage.blockOf at hts
  rw [if_neg (by simpa using hne)] at hts
  obtain ⟨t, us, rfl, ht, hus⟩ := List.map_eq_cons_iff.mp hts
  refine ⟨t, us, rfl, ht, ?_, hus⟩
  unfold Token.isIndent
  rw [(of_unplaced_eq ht).1]
  rfl

/-- If a production that reads lines to their end reads all of a passage, it has no block. -/
theorem RereadsLine.of_run (h : RereadsLine p p' same) {ts rest us : List Token} {b b' : Bool}
    {q q' : Position} {a : α} (hts : ts.map Token.unplaced = m.behind)
    (hr : p.run (.before (ts ++ rest) b q) = (.ok a, .before us b' q'))
    (hus : ∀ t ∈ us.head?, t.isIndent = false) :
    m.members = [] ∧ us = rest ∧ Reads p' m.behind Anything (same a) := by
  obtain ⟨ls, vs, rfl, hls, hline, hvs⟩ := of_behind hts
  rw [List.append_assoc] at hr
  obtain ⟨rfl, hreads⟩ := h ls (vs ++ rest) b q a us b' q' hline hr
  by_cases hnil : m.members = []
  · rw [hnil] at hvs
    obtain rfl := List.map_eq_nil_iff.mp hvs
    rw [List.append_nil] at hts
    rw [hts] at hreads
    exact ⟨hnil, rfl, hreads⟩
  · -- a block behind the line would not be over
    obtain ⟨t, vs, rfl, -, hindent, -⟩ := of_blockOf hnil hvs
    rw [hus t rfl] at hindent
    cases hindent

/-- Another form of a passage begins with the same line, and has members if the passage has. -/
structure Alike (m m' : Passage) : Prop where
  line : m'.line = m.line
  members : m'.members = [] ↔ m.members = []

theorem Alike.refl (m : Passage) : Alike m m := ⟨rfl, Iff.rfl⟩

/-- A passage without members has no other form. -/
theorem Alike.eq_of_nil (h : Alike m m') (hnil : m.members = []) : m' = m := by
  obtain ⟨hline, hmembers⟩ := h
  have hnil' := hmembers.mpr hnil
  cases m
  cases m'
  cases hline
  cases hnil
  cases hnil'
  rfl

/-- What reads a line to its end reads no block, so that there is no other form to read. -/
theorem RereadsLine.passage (h : RereadsLine p p' same) (hm : Alike m m') :
    RereadsPassage p p' m m' same := by
  intro ts rest b q a us b' q' hts _ hr hus
  obtain ⟨hnil, hrest, hreads⟩ := h.of_run hts hr hus
  rw [hm.eq_of_nil hnil]
  exact ⟨hrest, hreads.mono (fun _ _ => trivial) fun _ ha => ha⟩

/-! ## Blocks -/

/-- Behind a line without a block no block opens. -/
theorem opens_eq_false {ts rest : List Token} (hline : LineRest ts) (hrest : Follows d rest) :
    opens (ts ++ rest) = false := by
  cases hline with
  | stop ht =>
    cases rest with
    | nil => rfl
    | cons m rest =>
      show (_ && m.isIndent) = false
      rw [(hrest m rfl).1, Bool.and_false]
  | @cons t ts ht hts =>
    obtain ⟨u, us, rfl⟩ := List.exists_cons_of_ne_nil hts.ne_nil
    show (t.isLineEnd && u.isIndent) = false
    rw [ht, Bool.false_and]

/-- The line of a passage ends at once, or a block does not open. -/
theorem opens_behind {ts : List Token} (rest : List Token)
    (hts : ts.map Token.unplaced = m.behind) (hne : m.members ≠ []) :
    opens (ts ++ rest) = m.line.rest.isEmpty := by
  obtain ⟨ls, vs, rfl, hls, hline, hvs⟩ := of_behind hts
  obtain ⟨t, vs, rfl, -, hindent, -⟩ := of_blockOf hne hvs
  cases hline with
  | @stop u hu =>
    have hempty : m.line.rest = [] := by
      have hlength := congrArg List.length hls
      simpa using hlength
    rw [hempty]
    show (u.isLineEnd && t.isIndent) = true
    rw [hu, hindent]
    rfl
  | @cons u us hu hus =>
    have hfull : m.line.rest ≠ [] := by
      intro hempty
      rw [hempty] at hls
      have hlength := congrArg List.length hls
      have hpositive := List.length_pos_of_ne_nil hus.ne_nil
      simp only [List.map_cons, List.length_cons, List.length_map, List.nil_append,
        List.length_nil] at hlength
      omega
    obtain ⟨w, ws, rfl⟩ := List.exists_cons_of_ne_nil hus.ne_nil
    show (u.isLineEnd && w.isIndent) = _
    rw [hu, Bool.false_and]
    exact (List.isEmpty_eq_false_iff.mpr hfull).symm

/-- A production that looks for a block reads a passage as a block, or else as a line. -/
theorem RereadsPassage.opensBlock {f f' : Bool → Production α} (hm : Alike m m')
    (hblock : RereadsPassage (f true) (f' true) m m' same)
    (hline : RereadsLine (f false) (f' false) same) :
    RereadsPassage (opensBlock >>= f) (opensBlock >>= f') m m' same := by
  intro ts rest b q a us b' q' hts hrest hr hus
  rw [run_bind, run_opensBlock, andThen_ok] at hr
  by_cases hnil : m.members = []
  · obtain rfl := hm.eq_of_nil hnil
    have hclosed (vs rest' : List Token) (hvs : vs.map Token.unplaced = m'.behind)
        (hrest' : Follows m'.line.depth rest') : opens (vs ++ rest') = false := by
      obtain ⟨ls, ws, rfl, -, hls, hws⟩ := of_behind hvs
      rw [hnil] at hws
      obtain rfl := List.map_eq_nil_iff.mp hws
      rw [List.append_nil]
      exact opens_eq_false hls hrest'
    rw [hclosed ts rest hts hrest] at hr
    obtain ⟨-, rfl, hreads⟩ := hline.of_run hts hr hus
    refine ⟨rfl, ?_⟩
    intro vs rest' c r hvs hrest'
    rw [run_bind, run_opensBlock, andThen_ok, hclosed vs rest' hvs hrest']
    exact hreads vs rest' c r hvs trivial
  · rw [opens_behind rest hts hnil] at hr
    by_cases hempty : m.line.rest.isEmpty = true
    · rw [hempty] at hr
      obtain ⟨rfl, hreads⟩ := hblock ts rest b q a us b' q' hts hrest hr hus
      refine ⟨rfl, ?_⟩
      intro vs rest' c r hvs hrest'
      have hne : m'.members ≠ [] := mt hm.members.mp hnil
      rw [run_bind, run_opensBlock, andThen_ok, opens_behind rest' hvs hne, hm.line, hempty]
      exact hreads vs rest' c r hvs hrest'
    · rw [Bool.eq_false_iff.mpr hempty] at hr
      exact absurd (hline.of_run hts hr hus).1 hnil

/-! ## The lines of a block -/

variable {member : σ → Token → Production σ} {s s' : σ}

/-- A block that was read opens behind its opener and has a member. -/
theorem of_run_block {opener : Token} {ts rest us : List Token} {b b' : Bool} {q q' : Position}
    {a : σ} (ho : opener.indent = m.line.depth) (hts : ts.map Token.unplaced = m.behind)
    (hrest : Follows m.line.depth rest)
    (hr : (block opener s member).run (.before (ts ++ rest) b q) = (.ok a, .before us b' q')) :
    m.members ≠ [] ∧ m.line.rest = []
      ∧ ∃ vs b₁ q₁, vs.map Token.unplaced = Passage.tokensOf m.members
      ∧ (memberLines (m.line.depth + 1) s member).run (.before (vs ++ rest) b₁ q₁)
        = (.ok a, .before us b' q') := by
  unfold block at hr
  obtain ⟨depth, ws, b₁, q₁, hopen, hlines⟩ := of_run_bind_before hr
  obtain ⟨t, i, vs, heq, ht, hi, -, rfl, hc⟩ := of_run_openBlock hopen
  cases hc
  have hopens : opens (ts ++ rest) = true := by
    rw [heq]
    show (t.isLineEnd && i.isIndent) = true
    rw [ht, hi]
    rfl
  have hne : m.members ≠ [] := by
    intro hnil
    obtain ⟨ls, ws, rfl, -, hls, hws⟩ := of_behind hts
    rw [hnil] at hws
    obtain rfl := List.map_eq_nil_iff.mp hws
    rw [List.append_nil, opens_eq_false hls hrest] at hopens
    cases hopens
  rw [opens_behind rest hts hne, List.isEmpty_iff] at hopens
  refine ⟨hne, hopens, ?_⟩
  obtain ⟨ls, ws, rfl, hls, -, hws⟩ := of_behind hts
  obtain ⟨j, vs', rfl, -, -, hvs'⟩ := of_blockOf hne hws
  rw [hopens] at hls
  obtain ⟨u, _, rfl, -, hnil⟩ := List.map_eq_cons_iff.mp hls
  obtain rfl := List.map_eq_nil_iff.mp hnil
  cases heq
  rw [ho] at hlines
  exact ⟨vs', _, _, hvs', hlines⟩

/-- A block is read if its members are. -/
theorem reads_blockOf {opener : Token} {g : σ → Prop} (ho : opener.indent = m.line.depth)
    (hrest : m.line.rest = []) (hne : m.members ≠ [])
    (h : Reads (memberLines (m.line.depth + 1) s member) (Passage.tokensOf m.members)
      (Follows m.line.depth) g) :
    Reads (block opener s member) m.behind (Follows m.line.depth) g := by
  intro ts rest b q hts hfollow
  obtain ⟨ls, ws, rfl, hls, hline, hws⟩ := of_behind hts
  obtain ⟨i, vs, rfl, hi, hindent, hvs⟩ := of_blockOf hne hws
  rw [hrest] at hls
  obtain ⟨t, _, rfl, ht, hnil⟩ := List.map_eq_cons_iff.mp hls
  obtain rfl := List.map_eq_nil_iff.mp hnil
  have hstop : t.isLineEnd = true := by
    rw [← m.line.isLineEnd_stop, ← ht]
    rfl
  have hvalue : i.value = toString (opener.indent + 1) := by
    rw [(of_unplaced_eq hi).2.1, ho]
    rfl
  obtain ⟨a, b', q', ha, hg⟩ := h vs rest i.isLineEnd i.position hvs hfollow
  refine ⟨a, b', q', ?_, hg⟩
  have hopen : (openBlock opener).run (.before (t :: i :: (vs ++ rest)) b q) = _ :=
    run_openBlock hstop hindent hvalue
  show (block opener s member).run (.before (t :: i :: (vs ++ rest)) b q) = _
  unfold block
  rw [run_bind_of_ok hopen, ho]
  exact ha

/-- What stands behind some members of a block stands there, or is the next one. -/
theorem follows_members {xs : List Passage} {ts rest : List Token} (hxs : ∀ x ∈ xs, x.At d)
    (hts : ts.map Token.unplaced = Passage.tokensOf xs) (hrest : Follows d rest) :
    Follows d (ts ++ rest) := by
  cases xs with
  | nil =>
    obtain rfl := List.map_eq_nil_iff.mp hts
    exact hrest
  | cons x xs =>
    rw [Passage.tokensOf, Passage.tokens_eq, List.cons_append] at hts
    obtain ⟨t, us, rfl, ht, -⟩ := List.map_eq_cons_iff.mp hts
    rintro _ ⟨⟩
    exact ⟨(SourceLine.of_first ht).2.1, ((hxs x List.mem_cons_self).indent_eq ht).le⟩

/-- The first member of a block is read, and then the others. -/
theorem of_run_memberLines {x : Passage} {xs : List Passage} {vs rest us : List Token} {b b' : Bool}
    {q q' : Position} {a : σ} (hx : x.At d)
    (hvs : vs.map Token.unplaced = Passage.tokensOf (x :: xs))
    (hr : (memberLines d s member).run (.before (vs ++ rest) b q) = (.ok a, .before us b' q')) :
    ∃ t ts ws s₁ us₁ b₁ q₁, vs = t :: (ts ++ ws) ∧ t.unplaced = x.line.first
      ∧ ts.map Token.unplaced = x.behind ∧ ws.map Token.unplaced = Passage.tokensOf xs
      ∧ (member s t).run (.before (ts ++ (ws ++ rest)) t.isLineEnd t.position)
        = (.ok s₁, .before us₁ b₁ q₁)
      ∧ (∀ u ∈ us₁.head?, u.isIndent = false)
      ∧ (memberLines d s₁ member).run (.before us₁ b₁ q₁) = (.ok a, .before us b' q') := by
  rw [Passage.tokensOf, Passage.tokens_eq, List.cons_append] at hvs
  obtain ⟨t, _, rfl, ht, hvs⟩ := List.map_eq_cons_iff.mp hvs
  obtain ⟨ts, ws, rfl, hts, hws⟩ := List.map_eq_append_iff.mp hvs
  have hplain : t.isIndent = false := (SourceLine.of_first ht).2.1
  have hindent : t.indent = d := hx.indent_eq ht
  unfold memberLines at hr
  rw [List.cons_append] at hr
  obtain ⟨s₁, us₁, b₁, q₁, hmember, hr⟩ := of_run_repeatWhile_cons (by simp [hindent]) hr
  rw [hplain, if_neg Bool.false_ne_true, List.append_assoc] at hmember
  refine ⟨t, ts, ws, s₁, us₁, b₁, q₁, rfl, ht, hts, hws, hmember, ?_, hr⟩
  -- a deeper line would be refused by the block
  intro u hu
  cases us₁ with
  | nil => cases hu
  | cons v vs =>
    cases hu
    by_contra hdeep
    have hindent : u.isIndent = true := by simpa using hdeep
    rw [run_repeatWhile_cons, if_pos (by simp [hindent]), if_pos hindent] at hr
    cases hr

/-- A block is over in front of what is not deeper. -/
theorem of_run_memberLines_nil {rest us : List Token} {b b' : Bool} {q q' : Position} {a : σ}
    (hrest : Follows d rest)
    (hr : (memberLines (d + 1) s member).run (.before rest b q) = (.ok a, .before us b' q')) :
    us = rest ∧ a = s := by
  unfold memberLines at hr
  cases rest with
  | nil =>
    rw [run_repeatWhile_nil] at hr
    cases hr
    exact ⟨rfl, rfl⟩
  | cons t rest =>
    obtain ⟨hplain, hindent⟩ := hrest t rfl
    rw [run_repeatWhile_cons, if_neg (by simp [hplain]; omega)] at hr
    cases hr
    exact ⟨rfl, rfl⟩

/-- A member is read, and then the others. -/
theorem reads_memberLines {x : Passage} {xs : List Passage} {g g' : σ → Prop} (hx : x.At d)
    (hxs : ∀ y ∈ xs, y.At d) {f : List Token → Prop} (hf : ∀ rest, f rest → Follows d rest)
    (hm : ∀ t : Token, t.unplaced = x.line.first → Reads (member s t) x.behind (Follows d) g)
    (hn : ∀ s', g s' → Reads (memberLines d s' member) (Passage.tokensOf xs) f g') :
    Reads (memberLines d s member) (Passage.tokensOf (x :: xs)) f g' := by
  rw [Passage.tokensOf, Passage.tokens_eq, List.cons_append]
  refine Reads.loop_cons (f := Follows d) (fun t ht => ?_) (fun t ht => ?_)
    (fun ts rest hts hrest => follows_members hxs hts (hf rest hrest)) hn
  · simp [hx.indent_eq ht]
  · rw [if_neg (by simp [(SourceLine.of_first ht).2.1])]
    exact hm t ht

/-! ## Members in their order -/

/-- What is read of a passage has a value. -/
theorem Reads.exists_value {p : Production α} {f : List Token → Prop} {g : α → Prop}
    (h : Reads p m.behind f g) (hf : f []) : ∃ a, g a := by
  obtain ⟨a, _, _, _, ha⟩ := h m.behind [] true .origin m.unplaced_behind hf
  exact ⟨a, ha⟩

/-- The members of a block are read again one after the other. -/
theorem rereads_memberLines {R : Passage → Passage → Prop} {same : σ → σ → Prop}
    (hmember : ∀ s s' t t' x x', x.At (d + 1) → R x x' → same s s' → t.unplaced = x.line.first →
      t'.unplaced = x.line.first → RereadsPassage (member s t) (member s' t') x x' same)
    (hR : ∀ x x', R x x' → Alike x x')
    {xs xs' : List Passage} (hxs : List.Forall₂ R xs xs') (hat : ∀ x ∈ xs, x.At (d + 1))
    (hat' : ∀ x ∈ xs', x.At (d + 1)) (hs : same s s') {vs rest us : List Token} {b b' : Bool}
    {q q' : Position} {a : σ} (hvs : vs.map Token.unplaced = Passage.tokensOf xs)
    (hrest : Follows d rest)
    (hr : (memberLines (d + 1) s member).run (.before (vs ++ rest) b q)
      = (.ok a, .before us b' q')) :
    us = rest ∧ Reads (memberLines (d + 1) s' member) (Passage.tokensOf xs') (Follows d)
      (same a) := by
  induction hxs generalizing s s' vs b q with
  | nil =>
    obtain rfl := List.map_eq_nil_iff.mp hvs
    obtain ⟨rfl, rfl⟩ := of_run_memberLines_nil hrest hr
    exact ⟨rfl, reads_lines_nil hs⟩
  | @cons x x' xs xs' hx hxs ih =>
    have hat₁ : x.At (d + 1) := hat x List.mem_cons_self
    obtain ⟨t, ts, ws, s₁, us₁, b₁, q₁, rfl, ht, hts, hws, hrun, hus₁, hlines⟩ :=
      of_run_memberLines hat₁ hvs hr
    have hxs₁ : ∀ y ∈ xs, y.At (d + 1) := fun y hy => hat y (List.mem_cons_of_mem x hy)
    have hxs₂ : ∀ y ∈ xs', y.At (d + 1) := fun y hy => hat' y (List.mem_cons_of_mem x' hy)
    have hfollow : Follows x.line.depth (ws ++ rest) := by
      rw [hat₁.depth_eq]
      exact follows_members hxs₁ hws (hrest.of_le (Nat.le_succ d))
    have hmem (t' : Token) (ht' : t'.unplaced = x.line.first) :=
      hmember s s' t t' x x' hat₁ hx hs ht ht' ts (ws ++ rest) _ _ s₁ us₁ b₁ q₁ hts hfollow hrun
        hus₁
    rw [hat₁.depth_eq] at hmem
    obtain ⟨rfl, hfirst⟩ := hmem t ht
    -- some state comes behind the member, whatever it is
    have hnext (s₂ : σ) (hs₂ : same s₁ s₂) := ih hxs₁ hxs₂ hs₂ hws hlines
    obtain ⟨s₂, hs₂⟩ := hfirst.exists_value nofun
    refine ⟨(hnext s₂ hs₂).1, ?_⟩
    refine reads_memberLines (hat' x' List.mem_cons_self) hxs₂ (g := same s₁)
      (fun rest hrest => hrest.of_le (Nat.le_succ d)) (fun t' ht' => ?_) fun s₂ hs₂ =>
      (hnext s₂ hs₂).2
    rw [(hR x x' hx).line] at ht'
    exact (hmem t' ht').2

/-- The members of a block in their order. -/
theorem rereads_block {R : Passage → Passage → Prop} {same : σ → σ → Prop}
    {opener opener' : Token} (hmember : ∀ s s' t t' x x', x.At (m.line.depth + 1) → R x x' →
      same s s' → t.unplaced = x.line.first → t'.unplaced = x.line.first →
        RereadsPassage (member s t) (member s' t') x x' same)
    (hR : ∀ x x', R x x' → Alike x x') (hline : m'.line = m.line)
    (hms : List.Forall₂ R m.members m'.members) (hat : ∀ x ∈ m.members, x.At (m.line.depth + 1))
    (hat' : ∀ x ∈ m'.members, x.At (m.line.depth + 1)) (ho : opener.indent = m.line.depth)
    (ho' : opener'.indent = m.line.depth) (hs : same s s') :
    RereadsPassage (block opener s member) (block opener' s' member) m m' same := by
  intro ts rest b q a us b' q' hts hrest hr hus
  obtain ⟨hne, hempty, vs, b₁, q₁, hvs, hlines⟩ := of_run_block ho hts hrest hr
  obtain ⟨rfl, hreads⟩ := rereads_memberLines hmember hR hms hat hat' hs hvs hrest hlines
  refine ⟨rfl, ?_⟩
  have hne' : m'.members ≠ [] := fun hnil => hne (List.forall₂_nil_right_iff.mp (hnil ▸ hms))
  rw [← hline] at ho' hreads hempty ⊢
  exact reads_blockOf ho' hempty hne' hreads

/-- A block whose members are lines. -/
theorem rereads_linesBlock {same : σ → σ → Prop} {opener opener' : Token}
    (hmember : ∀ s s' t t', same s s' → t'.unplaced = t.unplaced → t.isLineEnd = false →
      RereadsLine (member s t) (member s' t') same)
    (hat : ∀ x ∈ m.members, x.At (m.line.depth + 1)) (ho : opener.indent = m.line.depth)
    (ho' : opener'.indent = m.line.depth) (hs : same s s') :
    RereadsPassage (block opener s member) (block opener' s' member) m m same := by
  refine rereads_block (R := fun x x' => x' = x) (fun s s' t t' x x' _ hx hs ht ht' => ?_)
    (fun x x' hx => hx ▸ Alike.refl x) rfl (List.forall₂_same.mpr fun _ _ => rfl) hat hat ho ho' hs
  rw [hx]
  have hplain : t.isLineEnd = false := (SourceLine.of_first ht).1
  exact (hmember s s' t t' hs (ht'.trans ht.symm) hplain).passage (.refl x)

end Grammar

end Manuscript
