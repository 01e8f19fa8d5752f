import Manuscript.Proofs.Canonical.Print
import Manuscript.Proofs.Canonical.Scan
import Manuscript.Proofs.Grammar.Lines

/-!
# Reading printed lines

What the productions for lines and blocks do in front of the tokens of printed lines. `Reads` states
that a production takes some tokens, which are known up to their positions, and what it makes of
them; what stands behind the tokens is only known as far as the production looks ahead.

* `Reads.bind`: two productions in a row.
* `reads_lines_cons`: the lines of a block are read tree by tree.
* `reads_record`: the block of a record is read as the record.
-/

namespace Manuscript

open Canonical

namespace Grammar

open Production

/-- The production takes tokens that are the given ones up to positions, if what stands behind them
is as it should be, and its value is good. -/
def Reads {α : Type} (p : Production α) (es : List Token) (follow : List Token → Prop)
    (good : α → Prop) : Prop :=
  ∀ ts rest b q, ts.map Token.unplaced = es → follow rest →
    ∃ a b' q', p.run (.before (ts ++ rest) b q) = (.ok a, .before rest b' q') ∧ good a

/-- Nothing need be known of what stands behind. -/
def Anything (_ : List Token) : Prop := True

variable {α β σ : Type} {f f' : List Token → Prop}

/-! ## Rules -/

theorem Reads.done {a : α} {g : α → Prop} (hg : g a) : Reads (done a) [] f g := by
  intro ts rest b q hts _
  obtain rfl := List.map_eq_nil_iff.mp hts
  exact ⟨a, b, q, rfl, hg⟩

theorem Reads.pure {a : α} {g : α → Prop} (hg : g a) : Reads (Pure.pure a) [] f g := Reads.done hg

theorem Reads.mono {p : Production α} {es : List Token} {g g' : α → Prop} (h : Reads p es f g)
    (hf : ∀ rest, f' rest → f rest) (hg : ∀ a, g a → g' a) : Reads p es f' g' := by
  intro ts rest b q hts hrest
  obtain ⟨a, b', q', hr, ha⟩ := h ts rest b q hts (hf rest hrest)
  exact ⟨a, b', q', hr, hg a ha⟩

/-- Two productions in a row, the first of which looks ahead into the tokens of the second. -/
theorem Reads.bind {p : Production α} {k : α → Production β} {es es' : List Token} {g : α → Prop}
    {g' : β → Prop} (hp : Reads p es f g)
    (hf : ∀ ts rest, ts.map Token.unplaced = es' → f' rest → f (ts ++ rest))
    (hk : ∀ a, g a → Reads (k a) es' f' g') : Reads (p >>= k) (es ++ es') f' g' := by
  intro ts rest b q hts hrest
  obtain ⟨us, vs, rfl, hus, hvs⟩ := List.map_eq_append_iff.mp hts
  rw [List.append_assoc]
  obtain ⟨a, b₁, q₁, ha, hga⟩ := hp us (vs ++ rest) b q hus (hf vs rest hvs hrest)
  obtain ⟨y, b₂, q₂, hy, hgy⟩ := hk a hga vs rest b₁ q₁ hvs hrest
  exact ⟨y, b₂, q₂, by rw [run_bind_of_ok ha, hy], hgy⟩

/-- Two productions in a row, the first of which does not look ahead. -/
theorem Reads.andThen {p : Production α} {k : α → Production β} {es es' : List Token} {g : α → Prop}
    {g' : β → Prop} (hp : Reads p es Anything g) (hk : ∀ a, g a → Reads (k a) es' f' g') :
    Reads (p >>= k) (es ++ es') f' g' := hp.bind (fun _ _ _ _ => trivial) hk

/-- The last of some productions only gives another value. -/
theorem Reads.map {p : Production α} {k : α → β} {es : List Token} {g : α → Prop} {g' : β → Prop}
    (hp : Reads p es f g) (hk : ∀ a, g a → g' (k a)) :
    Reads (p >>= fun a => Pure.pure (k a)) es f g' := by
  rw [← List.append_nil es]
  refine hp.bind (fun ts rest hts hrest => ?_) fun a ha => .pure (hk a ha)
  rw [List.map_eq_nil_iff.mp hts]
  exact hrest

/-- A look at the next token, which is then taken. -/
theorem Reads.ahead {p : Option Token → Production α} {e : Token} {es : List Token} {g : α → Prop}
    (h : ∀ t : Token, t.unplaced = e →
      ∃ k, p (some t) = (skip >>= fun _ => k) ∧ Reads k es f g) :
    Reads (peekAt 0 >>= p) (e :: es) f g := by
  intro ts rest b q hts hrest
  obtain ⟨t, us, rfl, ht, hus⟩ := List.map_eq_cons_iff.mp hts
  obtain ⟨k, hk, hr⟩ := h t ht
  obtain ⟨a, b', q', ha, hg⟩ := hr us rest t.isLineEnd t.position hus hrest
  refine ⟨a, b', q', ?_, hg⟩
  rw [List.cons_append, run_bind, run_peekAt, andThen_ok, List.getElem?_cons_zero, hk, run_bind,
    run_skip_cons, andThen_ok, ha]

/-- Three productions in a row, the last two of which stand together. -/
theorem Reads.assoc {γ : Type} {p : Production α} {k : α → Production β} {h : β → Production γ}
    {es : List Token} {g : γ → Prop} (hr : Reads ((p >>= k) >>= h) es f g) :
    Reads (p >>= fun a => k a >>= h) es f g := by
  intro ts rest b q hts hrest
  obtain ⟨y, b', q', hy, hg⟩ := hr ts rest b q hts hrest
  refine ⟨y, b', q', ?_, hg⟩
  rw [← hy, run_bind, run_bind, run_bind, andThen_andThen]
  exact congrArg _ (funext fun a => funext fun c => run_bind (k a) h c)

/-- A loop is over in front of a token that is not admitted. -/
theorem Reads.loop_nil {s : σ} {admits : σ → Token → Bool} {body : σ → Token → Production σ}
    {g : σ → Prop} (hf : ∀ rest, f rest → ∀ t ∈ rest.head?, admits s t = false) (hg : g s) :
    Reads (repeatWhile s admits body) [] f g := by
  intro ts rest b q hts hrest
  obtain rfl := List.map_eq_nil_iff.mp hts
  refine ⟨s, b, q, ?_, hg⟩
  cases rest with
  | nil => rw [List.nil_append, run_repeatWhile_nil]
  | cons t rest =>
    rw [List.nil_append, run_repeatWhile_cons, hf _ hrest t rfl]
    rfl

/-- A loop goes on behind a token that is admitted and what its body takes. -/
theorem Reads.loop_cons {s : σ} {admits : σ → Token → Bool} {body : σ → Token → Production σ}
    {e : Token} {es es' : List Token} {g g' : σ → Prop}
    (ha : ∀ t : Token, t.unplaced = e → admits s t = true)
    (hb : ∀ t : Token, t.unplaced = e → Reads (body s t) es f g)
    (hf : ∀ ts rest, ts.map Token.unplaced = es' → f' rest → f (ts ++ rest))
    (hn : ∀ s', g s' → Reads (repeatWhile s' admits body) es' f' g') :
    Reads (repeatWhile s admits body) (e :: (es ++ es')) f' g' := by
  intro ts rest b q hts hrest
  obtain ⟨t, us, rfl, ht, hus⟩ := List.map_eq_cons_iff.mp hts
  obtain ⟨vs, ws, rfl, hvs, hws⟩ := List.map_eq_append_iff.mp hus
  rw [List.cons_append, List.append_assoc, run_repeatWhile_cons, if_pos (ha t ht)]
  obtain ⟨s', b₁, q₁, hs, hg⟩ := hb t ht vs (ws ++ rest) _ _ hvs (hf ws rest hws hrest)
  obtain ⟨s'', b₂, q₂, hs', hg'⟩ := hn s' hg ws rest b₁ q₁ hws hrest
  exact ⟨s'', b₂, q₂, by rw [hs, andThen_ok, hs'], hg'⟩

/-! ## Tokens -/

/-- What is known of a token whose position is left out. -/
theorem of_unplaced_eq {t e : Token} (h : t.unplaced = e) :
    t.kind = e.kind ∧ t.value = e.value ∧ t.indent = e.indent := by
  subst h
  exact ⟨rfl, rfl, rfl⟩

section Token

variable {t : Token} {d : Nat}

theorem isText_of_unplaced {v : String} (h : t.unplaced = (Lexeme.text v).token d) :
    t.isText = true ∧ t.literal.unplaced = ⟨v, .origin⟩ := by
  obtain ⟨hk, hv, -⟩ := of_unplaced_eq h
  unfold Token.isText Token.literal Literal.unplaced
  rw [hk, hv]
  exact ⟨rfl, rfl⟩

theorem keyword_of_unplaced {k : Keyword} (h : t.unplaced = (Lexeme.word k).token d) :
    t.keyword? = some k := by
  obtain ⟨hk, hv, -⟩ := of_unplaced_eq h
  have hword : t.isKeyword = true := by
    unfold Token.isKeyword
    rw [hk]
    rfl
  have hvalue : t.value = k.spelling := hv
  unfold Token.keyword?
  rw [if_pos hword, hvalue, k.ofWord_spelling]

theorem isSeparator_of_unplaced (h : t.unplaced = Lexeme.comma.token d) :
    t.isSeparator = true := by
  obtain ⟨hk, -, -⟩ := of_unplaced_eq h
  unfold Token.isSeparator
  rw [hk]
  rfl

theorem isLineEnd_of_unplaced (h : t.unplaced = lineEndAt d) : t.isLineEnd = true := by
  obtain ⟨hk, -, -⟩ := of_unplaced_eq h
  unfold Token.isLineEnd
  rw [hk]
  rfl

/-- A lexeme is read as no end of line and no increase of indentation. -/
theorem lexeme_of_unplaced {x : Lexeme} (h : t.unplaced = x.token d) :
    t.isIndent = false ∧ t.isLineEnd = false ∧ t.indent = d := by
  obtain ⟨hk, -, hi⟩ := of_unplaced_eq h
  unfold Token.isIndent Token.isLineEnd
  rw [hk, hi]
  cases x <;> exact ⟨rfl, rfl, rfl⟩

end Token

/-! ## Lines -/

variable {d : Nat}

theorem reads_literal (expected : String) (l : Literal) :
    Reads (literal expected) [(Lexeme.text l.value).token d] f
      fun l' => l'.unplaced = l.unplaced := by
  intro ts rest b q hts _
  obtain ⟨t, us, rfl, ht, hus⟩ := List.map_eq_cons_iff.mp hts
  obtain rfl := List.map_eq_nil_iff.mp hus
  obtain ⟨htext, hlit⟩ := isText_of_unplaced ht
  exact ⟨t.literal, _, _, run_literal expected htext, hlit⟩

theorem reads_lineEnd : Reads lineEnd [lineEndAt d] f fun _ => True := by
  intro ts rest b q hts _
  obtain ⟨t, us, rfl, ht, hus⟩ := List.map_eq_cons_iff.mp hts
  obtain rfl := List.map_eq_nil_iff.mp hus
  exact ⟨(), _, _, run_lineEnd (isLineEnd_of_unplaced ht), trivial⟩

theorem reads_literalLine (expected : String) (l : Literal) :
    Reads (literalLine expected) [(Lexeme.text l.value).token d, lineEndAt d] f
      fun l' => l'.unplaced = l.unplaced := by
  unfold literalLine
  refine Reads.andThen (reads_literal expected l) fun l' hl' => ?_
  exact Reads.map reads_lineEnd fun _ _ => hl'

/-- In front of the end of a line there is no separator. -/
def NoSeparator (rest : List Token) : Prop := ∀ t ∈ rest.head?, t.isSeparator = false

theorem noSeparator_lineEnd (ts rest : List Token) (h : ts.map Token.unplaced = [lineEndAt d]) :
    NoSeparator (ts ++ rest) := by
  obtain ⟨t, us, rfl, ht, -⟩ := List.map_eq_cons_iff.mp h
  obtain ⟨hk, -, -⟩ := of_unplaced_eq ht
  rintro _ ⟨⟩
  unfold Token.isSeparator
  rw [hk]
  rfl

theorem reads_moreLiterals (expected : String) (items ls : List Literal) :
    Reads (moreLiterals expected items)
      (ls.flatMap fun l => [Lexeme.comma.token d, (Lexeme.text l.value).token d]) NoSeparator
      fun items' => items'.map Literal.unplaced = (items ++ ls).map Literal.unplaced := by
  unfold moreLiterals
  induction ls generalizing items with
  | nil => exact .loop_nil (fun rest hrest => hrest) (by rw [List.append_nil])
  | cons l ls ih =>
    show Reads _ (Lexeme.comma.token d :: ([(Lexeme.text l.value).token d] ++ _)) _ _
    refine Reads.loop_cons (f := Anything)
      (g := fun items' => items'.map Literal.unplaced = (items ++ [l]).map Literal.unplaced)
      (fun t ht => isSeparator_of_unplaced ht) (fun t ht => ?_) (fun _ _ _ _ => trivial)
      fun items' hitems' => ?_
    · refine Reads.map (reads_literal expected l) fun l' hl' => ?_
      simp [hl']
    · refine (ih items').mono (fun _ h => h) fun items'' hitems'' => ?_
      rw [hitems'', List.map_append, hitems']
      simp

/-- The tokens of texts with commas between them. -/
theorem map_listLexemes (l : Literal) (ls : List Literal) :
    (listLexemes (l :: ls)).map (Lexeme.token d) = (Lexeme.text l.value).token d
      :: ls.flatMap fun l => [Lexeme.comma.token d, (Lexeme.text l.value).token d] := by
  unfold listLexemes
  rw [List.map_cons, separated, List.map_append, List.flatMap_map, List.map_flatMap]
  rfl

theorem reads_literalsLine (expected : String) {ls : List Literal} (hne : ls ≠ []) :
    Reads (literalsLine expected) ((listLexemes ls).map (Lexeme.token d) ++ [lineEndAt d]) f
      fun ls' => ls'.map Literal.unplaced = ls.map Literal.unplaced := by
  obtain ⟨l, ls, rfl⟩ := List.exists_cons_of_ne_nil hne
  have hall : Reads (literals expected) ((listLexemes (l :: ls)).map (Lexeme.token d)) NoSeparator
      fun ls' => ls'.map Literal.unplaced = (l :: ls).map Literal.unplaced := by
    rw [map_listLexemes]
    unfold literals
    show Reads _ ([(Lexeme.text l.value).token d] ++ _) _ _
    refine Reads.andThen (reads_literal expected l) fun l' hl' => ?_
    refine (reads_moreLiterals expected [l'] ls).mono (fun _ h => h) fun ls' hls' => ?_
    rw [hls']
    simp [hl']
  unfold literalsLine
  refine hall.bind (fun ts rest hts _ => noSeparator_lineEnd ts rest hts) fun ls' hls' => ?_
  exact Reads.map reads_lineEnd fun _ _ => hls'

/-! ## Blocks -/

/-- What stands behind a line of a depth, and behind the block below it: no deeper line. -/
def Follows (d : Nat) (rest : List Token) : Prop :=
  ∀ t ∈ rest.head?, t.isIndent = false ∧ t.indent ≤ d

theorem Follows.of_le {d d' : Nat} {rest : List Token} (h : Follows d rest) (hd : d ≤ d') :
    Follows d' rest := fun t ht => ⟨(h t ht).1, (h t ht).2.trans hd⟩

/-- Behind a line stand trees of its depth, or what stands behind all of them. -/
theorem follows_trees {trees : List Tree} {ts rest : List Token}
    (hts : ts.map Token.unplaced = trees.flatMap (Tree.tokens d)) (hrest : Follows d rest) :
    Follows d (ts ++ rest) := by
  cases trees with
  | nil =>
    obtain rfl := List.map_eq_nil_iff.mp hts
    exact hrest
  | cons tree trees =>
    rw [List.flatMap_cons, Tree.tokens_eq, List.cons_append] at hts
    obtain ⟨t, us, rfl, ht, -⟩ := List.map_eq_cons_iff.mp hts
    rintro _ ⟨⟩
    obtain ⟨hi, -, hd⟩ := lexeme_of_unplaced ht
    exact ⟨hi, hd.le⟩

/-- The lines of a block behind its opening. -/
def memberLines (depth : Nat) (s : σ) (member : σ → Token → Production σ) : Production σ :=
  repeatWhile s (fun _ t => t.isIndent || depth ≤ t.indent) fun s t =>
    if t.isIndent then
      fail (.unexpected ("a line at indentation depth " ++ toString depth) t)
    else member s t

variable {member : σ → Token → Production σ} {s : σ} {g : σ → Prop}

/-- A block is over in front of a line that is not deeper than its opening. -/
theorem reads_lines_nil (hg : g s) : Reads (memberLines (d + 1) s member) [] (Follows d) g := by
  unfold memberLines
  refine .loop_nil (fun rest hrest t ht => ?_) hg
  obtain ⟨hi, hd⟩ := hrest t ht
  have hends : ¬ d + 1 ≤ t.indent := by omega
  simp [hi, hends]

/-- The lines of a block are read tree by tree. -/
theorem reads_lines_cons {tree : Tree} {trees : List Tree} {g' : σ → Prop}
    (hm : ∀ t : Token, t.unplaced = tree.first.token (d + 1) →
      Reads (member s t) (tree.behind (d + 1)) (Follows (d + 1)) g)
    (hn : ∀ s', g s' →
      Reads (memberLines (d + 1) s' member) (trees.flatMap (Tree.tokens (d + 1))) (Follows d) g') :
    Reads (memberLines (d + 1) s member) ((tree :: trees).flatMap (Tree.tokens (d + 1)))
      (Follows d) g' := by
  rw [List.flatMap_cons, Tree.tokens_eq, List.cons_append]
  refine Reads.loop_cons (f := Follows (d + 1)) (fun t ht => ?_) (fun t ht => ?_)
    (fun ts rest hts hrest => ?_) hn
  · obtain ⟨-, -, hi⟩ := lexeme_of_unplaced ht
    simp [hi]
  · obtain ⟨hi, -, -⟩ := lexeme_of_unplaced ht
    rw [if_neg (by simp [hi])]
    exact hm t ht
  · exact follows_trees hts (hrest.of_le (Nat.le_succ d))

/-- The lines of a block that come from a list are read item by item. What holds of the items that
were read is carried along. -/
theorem reads_lines_map {ι : Type} {tree : ι → Tree} {trees : List Tree} {i : List ι → σ → Prop}
    {g' : σ → Prop} (items : List ι) (h0 : i [] s)
    (hm : ∀ known x rest s, items = known ++ x :: rest → i known s → ∀ t : Token,
      t.unplaced = (tree x).first.token (d + 1) →
        Reads (member s t) ((tree x).behind (d + 1)) (Follows (d + 1)) (i (known ++ [x])))
    (hn : ∀ s', i items s' →
      Reads (memberLines (d + 1) s' member) (trees.flatMap (Tree.tokens (d + 1))) (Follows d) g') :
    Reads (memberLines (d + 1) s member)
      ((items.map tree ++ trees).flatMap (Tree.tokens (d + 1))) (Follows d) g' := by
  -- induction on the items that are left; those before them are what the invariant knows
  have hrest (known rest : List ι) (hitems : items = known ++ rest) (s : σ) (hs : i known s) :
      Reads (memberLines (d + 1) s member)
        ((rest.map tree ++ trees).flatMap (Tree.tokens (d + 1))) (Follows d) g' := by
    induction rest generalizing known s with
    | nil =>
      rw [List.append_nil] at hitems
      exact hn s (hitems ▸ hs)
    | cons x rest ih =>
      refine reads_lines_cons (hm known x rest s hitems hs) fun s' hs' => ?_
      exact ih (known ++ [x]) (by rw [hitems, List.append_assoc]; rfl) s' hs'
  exact hrest [] items rfl s h0

/-- A line of a block that may be missing. -/
theorem reads_lines_option {ι : Type} {tree : ι → Tree} {trees : List Tree}
    {i : Option ι → σ → Prop} {g' : σ → Prop} (o : Option ι) (h0 : i none s)
    (hm : ∀ x, o = some x → ∀ t : Token, t.unplaced = (tree x).first.token (d + 1) →
      Reads (member s t) ((tree x).behind (d + 1)) (Follows (d + 1)) (i (some x)))
    (hn : ∀ s', i o s' →
      Reads (memberLines (d + 1) s' member) (trees.flatMap (Tree.tokens (d + 1))) (Follows d) g') :
    Reads (memberLines (d + 1) s member)
      (((o.map tree).toList ++ trees).flatMap (Tree.tokens (d + 1))) (Follows d) g' := by
  cases o with
  | none => exact hn s h0
  | some x => exact reads_lines_cons (hm x rfl) hn

/-- A line of a list of texts that may be missing. -/
theorem reads_lines_list {k : Keyword} {ls : List Literal} {trees : List Tree}
    {i : List Literal → σ → Prop} {g' : σ → Prop} (h0 : i [] s)
    (hm : ls ≠ [] → ∀ t : Token, t.keyword? = some k →
      Reads (member s t) ((listLexemes ls).map (Lexeme.token (d + 1)) ++ [lineEndAt (d + 1)])
        (Follows (d + 1)) (i ls))
    (hn : ∀ s', i ls s' →
      Reads (memberLines (d + 1) s' member) (trees.flatMap (Tree.tokens (d + 1))) (Follows d) g') :
    Reads (memberLines (d + 1) s member)
      ((listTrees k ls ++ trees).flatMap (Tree.tokens (d + 1))) (Follows d) g' := by
  unfold listTrees
  split_ifs with hempty
  · rw [List.isEmpty_iff] at hempty
    exact hn s (hempty ▸ h0)
  · exact reads_lines_cons (fun t ht => hm (by simpa using hempty) t (keyword_of_unplaced ht)) hn

/-- A block is read from the end of the line of its opener on. -/
theorem reads_block {opener : Token} {trees : List Tree} (hopener : opener.indent = d)
    (hne : trees ≠ [])
    (h : Reads (memberLines (d + 1) s member) (trees.flatMap (Tree.tokens (d + 1))) (Follows d) g) :
    Reads (block opener s member) (lineEndAt d :: blockTokens (d + 1) trees) (Follows d) g := by
  intro ts rest b q hts hrest
  unfold blockTokens at hts
  rw [if_neg (by simpa using hne)] at hts
  obtain ⟨t, us, rfl, ht, hus⟩ := List.map_eq_cons_iff.mp hts
  obtain ⟨i, vs, rfl, hi, hvs⟩ := List.map_eq_cons_iff.mp hus
  obtain ⟨hik, hiv, -⟩ := of_unplaced_eq hi
  have hmarker : i.isIndent = true := by
    unfold Token.isIndent
    rw [hik]
    rfl
  have hvalue : i.value = toString (opener.indent + 1) := by
    rw [hiv, hopener]
    rfl
  have hopen : (openBlock opener).run (.before (t :: i :: (vs ++ rest)) b q) = _ :=
    run_openBlock (isLineEnd_of_unplaced ht) hmarker hvalue
  obtain ⟨s', b', q', hs', hg⟩ := h vs rest i.isLineEnd i.position hvs hrest
  refine ⟨s', b', q', ?_, hg⟩
  unfold block
  rw [List.cons_append, List.cons_append, run_bind_of_ok hopen, hopener]
  exact hs'

/-- A block follows a line that ends in front of a deeper one. -/
theorem opens_block {trees : List Tree} {ts : List Token} (rest : List Token) (hne : trees ≠ [])
    (hts : ts.map Token.unplaced = lineEndAt d :: blockTokens (d + 1) trees) :
    opens (ts ++ rest) = true := by
  unfold blockTokens at hts
  rw [if_neg (by simpa using hne)] at hts
  obtain ⟨t, us, rfl, ht, hus⟩ := List.map_eq_cons_iff.mp hts
  obtain ⟨i, vs, rfl, hi, -⟩ := List.map_eq_cons_iff.mp hus
  obtain ⟨hik, -, -⟩ := of_unplaced_eq hi
  have hmarker : i.isIndent = true := by
    unfold Token.isIndent
    rw [hik]
    rfl
  show (t.isLineEnd && i.isIndent) = true
  rw [isLineEnd_of_unplaced ht, hmarker]
  rfl

/-- A production that looks for a block reads one that is there. -/
theorem reads_opensBlock {p : Bool → Production σ} {trees : List Tree} (hne : trees ≠ [])
    (h : Reads (p true) (lineEndAt d :: blockTokens (d + 1) trees) f g) :
    Reads (opensBlock >>= p) (lineEndAt d :: blockTokens (d + 1) trees) f g := by
  intro ts rest b q hts hrest
  rw [run_bind, run_opensBlock, andThen_ok, opens_block rest hne hts]
  exact h ts rest b q hts hrest

/-- A production that looks for a block reads on if there is a lexeme on the line. -/
theorem reads_opensBlock_inline {p : Bool → Production σ} {x : Lexeme} {es : List Token}
    (h : Reads (p false) (x.token d :: es) f g) :
    Reads (opensBlock >>= p) (x.token d :: es) f g := by
  intro ts rest b q hts hrest
  obtain ⟨t, us, rfl, ht, -⟩ := List.map_eq_cons_iff.mp hts
  have hopens : opens (t :: us ++ rest) = false := by
    obtain ⟨-, hl, -⟩ := lexeme_of_unplaced ht
    show opens (t :: (us ++ rest)) = false
    -- the line goes on, so that whatever stands behind is no block
    cases us ++ rest with
    | nil => rfl
    | cons m vs =>
      show (t.isLineEnd && m.isIndent) = false
      rw [hl]
      rfl
  rw [run_bind, run_opensBlock, andThen_ok, hopens]
  exact h (t :: us) rest b q hts hrest

/-! ## Fields -/

/-- A value that is done is handed on. -/
theorem done_bind (a : α) (k : α → Production β) : (done a >>= k) = k a := rfl

theorem memberKeyword_eq {t : Token} {k : Keyword} {accepts : Keyword → Bool}
    (expected : String) (hk : t.keyword? = some k) (ha : accepts k = true) :
    memberKeyword t expected accepts = .done k := by
  unfold memberKeyword
  rw [hk]
  exact if_pos ha

theorem keys_unplaced (fields : Fields) : fields.unplaced.keys = fields.keys := by
  unfold Fields.unplaced Fields.keys
  rw [List.map_map]
  rfl

/-- A field that comes next stands under one of the keywords. -/
theorem mem_keywords_next {keywords : List Keyword} {items known rest : Fields}
    {x : Keyword × Literal} (hp : items.Proper keywords) (hitems : items = known ++ x :: rest) :
    x.1 ∈ keywords := by
  refine hp.subset x.1 (List.mem_map_of_mem ?_)
  rw [hitems]
  exact List.mem_append_right known List.mem_cons_self

/-- A field that comes next was not declared before, if no keyword stands twice. -/
theorem not_declares_next {items known rest fields : Fields} {x : Keyword × Literal}
    (hn : items.keys.Nodup) (hitems : items = known ++ x :: rest)
    (hf : fields.unplaced = known.unplaced) : fields.declares x.1 = false := by
  have hkeys : fields.keys = known.keys := by rw [← keys_unplaced, hf, keys_unplaced]
  -- a field that was declared stands among those before it, and then its keyword stands twice
  by_contra hd
  have hmem : x.1 ∈ known.keys := by
    rw [← hkeys, ← Fields.declares_iff]
    simpa using hd
  rw [hitems, Fields.keys, List.map_append, List.nodup_append] at hn
  exact hn.2.2 x.1 hmem x.1 (by simp) rfl

/-- One more field, from the text behind its keyword on. -/
theorem reads_addField {fields known : Fields} {x : Keyword × Literal} (t : Token)
    (hnew : fields.declares x.1 = false) (hf : fields.unplaced = known.unplaced) :
    Reads (fieldValue x.1 >>= addField fields t x.1) ((fieldTree x).behind d) f
      fun fields' => fields'.unplaced = Fields.unplaced (known ++ [x]) := by
  show Reads _ ([(Lexeme.text x.2.value).token d, lineEndAt d] ++ []) _ _
  refine Reads.andThen (reads_literalLine _ x.2) fun l hl => ?_
  unfold addField
  rw [if_neg (by simp [hnew])]
  refine .done ?_
  unfold Fields.unplaced Fields.add at *
  rw [List.map_append, List.map_append, hf]
  simp [hl]

/-- The lines of fields are read as the fields. -/
theorem reads_fieldBlock {opener : Token} {keywords : List Keyword} {items : Fields}
    (expected : String) (hopener : opener.indent = d) (hp : items.Proper keywords)
    (hne : items ≠ []) :
    Reads (fieldBlock opener expected keywords)
      (lineEndAt d :: blockTokens (d + 1) (items.map fieldTree)) (Follows d)
      fun fields => fields.unplaced = items.unplaced := by
  unfold fieldBlock
  refine reads_block hopener (by simpa using hne) ?_
  rw [← List.append_nil (items.map fieldTree)]
  refine reads_lines_map (i := fun known fields => fields.unplaced = Fields.unplaced known)
    items rfl (fun known x rest fields hitems hf t ht => ?_) fun fields hf => reads_lines_nil hf
  have hk : x.1 ∈ keywords := mem_keywords_next hp hitems
  rw [memberKeyword_eq expected (keyword_of_unplaced ht) (by simpa using hk)]
  exact reads_addField t (not_declares_next hp.nodup hitems hf) hf

/-- What a record declares stands under its own keywords. -/
theorem proper_declared {α : Type} [Fielded α] (a : α) :
    (Fielded.declared a).Proper (Fielded.keywords α) := by
  have hsub := Fields.keys_collect_sublist (Fielded.keywords α) (Fielded.get a)
  exact ⟨hsub.nodup Fielded.nodup, fun k hk => hsub.subset hk⟩

/-- A record that is printed as a block is read as a record that is the same up to positions. -/
theorem reads_record {α : Type} [PlacedRecord α] {opener : Token} {a : α} {k : α → β}
    {g : β → Prop} (expected : String) (p : Position) (hopener : opener.indent = d)
    (hne : Fielded.declared a ≠ [])
    (hg : ∀ a', PlacedRecord.unplaced a' = PlacedRecord.unplaced a → g (k a')) :
    Reads
      (fieldBlock opener expected (Fielded.keywords α) >>= fun fields =>
        pure (k (FieldRecord.ofFields fields p)))
      (lineEndAt d :: blockTokens (d + 1) ((Fielded.declared a).map fieldTree)) (Follows d) g :=
  Reads.map (reads_fieldBlock expected hopener (proper_declared a) hne) fun _ hfields =>
    hg _ (unplaced_ofFields hfields p)

end Grammar

end Manuscript
