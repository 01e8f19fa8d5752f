import Mathlib.Data.List.TakeWhile
import Manuscript.Proofs.Grammar.LazyReading
import Manuscript.Proofs.Grammar.Nesting
import Manuscript.Proofs.Reordering.Rescanning

/-!
# Sources as passages

A source that is parsed consists of passages, if its last line is complete: it is cut behind the
ends of its lines, and a line takes the deeper ones behind it as its block.

* `exists_sourceLines`: characters that are read are those of lines.
* `nest`: the passages that lines make up.
* `exists_passages`: the passages of a source that is parsed.
-/

namespace Manuscript

open Canonical

/-! ## The ends of lines -/

/-- How many lines end in some tokens. -/
def lineEnds (ts : List Token) : Nat := ts.countP Token.isLineEnd

variable {ts us : List Token}

theorem lineEnds_append (ts us : List Token) : lineEnds (ts ++ us) = lineEnds ts + lineEnds us :=
  List.countP_append

theorem lineEnds_unplaced (ts : List Token) : lineEnds (ts.map Token.unplaced) = lineEnds ts :=
  List.countP_map

/-- A line ends once. -/
theorem TokenLine.lineEnds_tokens (line : TokenLine) : lineEnds line.tokens = 1 := by
  have hmarker : ∀ t ∈ line.marker.toList, t.isLineEnd = false := by
    intro t ht
    have hkind : (t.kind == .indent) = true :=
      beq_iff_eq.mpr (line.marker_indent t (Option.mem_toList.mp ht)).1
    exact Token.not_isLineEnd (by decide) hkind
  have hcontent : ∀ t ∈ line.content, t.isLineEnd = false := fun t ht =>
    (SourceLine.plain_of_speaks (line.content_speaks t ht)).1
  have hstop : line.stop.isLineEnd = true := beq_iff_eq.mpr line.stop_lineEnd
  unfold TokenLine.tokens lineEnds
  rw [List.countP_append, List.countP_append, List.countP_eq_zero.mpr (by simpa using hmarker),
    List.countP_eq_zero.mpr (by simpa using hcontent), List.countP_singleton, hstop]
  rfl

/-- As many lines end as there are. -/
theorem lineEnds_lines (lines : List TokenLine) :
    lineEnds (lines.flatMap TokenLine.tokens) = lines.length := by
  induction lines with
  | nil => rfl
  | cons line lines ih =>
    rw [List.flatMap_cons, lineEnds_append, line.lineEnds_tokens, ih, List.length_cons,
      Nat.add_comm]

namespace Lexer

variable {l m n : Lexer} {c : Char} {p : Position} {cs ds : List Char}

/-- A step ends no line, or it ends one and the next character is the first of a line. -/
def Step.Ends (s : Step) : Prop := lineEnds s.tokens = 0 ∨ lineEnds s.tokens = 1 ∧ s.lexer.Fresh

theorem ends_stepBetween (l : Lexer) (c : Char) (p : Position) : (l.stepBetween c p).Ends := by
  unfold stepBetween
  split_ifs
  · exact .inl rfl
  · exact .inr ⟨rfl, fresh_endLine l⟩
  · exact .inl rfl
  · exact .inl rfl
  · exact .inl rfl
  · exact .inl rfl

/-- Tokens that are no ends of lines stand in front. -/
theorem Step.Ends.after {s : Step} (h : s.Ends) (hts : lineEnds ts = 0) : (s.after ts).Ends := by
  unfold Step.Ends Step.after at *
  rwa [lineEnds_append, hts, Nat.zero_add]

theorem ends_stepLineStart (l : Lexer) (c : Char) (p : Position) : (l.stepLineStart c p).Ends := by
  unfold stepLineStart
  dsimp only
  split_ifs
  · exact .inl rfl
  · exact .inl rfl
  · exact .inl rfl
  · exact .inl rfl
  · exact (ends_stepBetween _ c p).after (by rfl)
  · exact ends_stepBetween _ c p

theorem ends_stepKeyword (l : Lexer) (c : Char) (p : Position) : (l.stepKeyword c p).Ends := by
  unfold stepKeyword
  split_ifs
  · exact .inl rfl
  · exact (ends_stepBetween _ c p).after (by rfl)
  · exact .inl rfl

theorem ends_stepText (l : Lexer) (c : Char) : (l.stepText c).Ends := by
  unfold stepText
  split_ifs
  · exact .inl rfl
  · exact .inl rfl
  · exact .inl rfl
  · exact .inl rfl
  · exact .inl rfl

/-- One character ends at most one line. -/
theorem ends_step (l : Lexer) (c : Char) : (l.step c).Ends := by
  unfold step
  by_cases hc : c = '\r'
  · rw [if_pos hc]
    exact .inl rfl
  rw [if_neg hc]
  generalize { l with column := l.column + 1 } = l'
  dsimp only
  cases l'.mode with
  | lineStart => exact ends_stepLineStart l' c _
  | comment => exact .inl rfl
  | between => exact ends_stepBetween l' c _
  | keyword => exact ends_stepKeyword l' c _
  | text => exact ends_stepText l' c
  | escape =>
    dsimp only
    unfold stepEscape
    cases unescape? c with
    | none | some => exact .inl rfl

/-! ## Lines of a source -/

/-- What is read from the start of a line on and ends one line makes up a line. -/
theorem exists_sourceLine (hp : Passes l cs ts n) (hl : l.Fresh) (hn : n.Fresh)
    (hts : lineEnds ts = 1) : ∃ line : SourceLine, line.chars = cs := by
  have hbeside : Beside l {} := ⟨hl.mode.symm, hl.column.symm, hl.tabs.symm, hl.spaces.symm⟩
  have hne : ts ≠ [] := by
    rintro rfl
    cases hts
  obtain ⟨d, us, vs, m, -, htokens, hpasses, hus, hm⟩ := hbeside.passes hp (.inl hl.mode) hn hne
  -- the mark in front ends no line
  have hmarks (previous : Nat) : lineEnds (marks previous d ++ vs.map Token.unplaced)
      = lineEnds (vs.map Token.unplaced) := by
    unfold marks
    split_ifs <;> rfl
  have hends : lineEnds us = 1 := by
    rw [← lineEnds_unplaced, hus, hmarks, ← hmarks l.previousDepth, ← htokens, lineEnds_unplaced,
      hts]
  have hsettled := hpasses.settled settled_start
  obtain ⟨lines, hlines, -⟩ := hpasses.promise settled_start (promise_nil (hm.mode.trans hn.mode))
  rw [List.append_nil] at hlines
  rw [hlines, lineEnds_lines] at hends
  obtain ⟨line, rfl⟩ := List.length_eq_one_iff.mp hends
  rw [List.flatMap_singleton] at hlines
  exact ⟨⟨cs, line, m, hlines ▸ hpasses, hm.fresh hn hsettled⟩, rfl⟩

/-- What is read up to the start of a line ends no line, or it is the rest of one and then lines. -/
theorem exists_rest (hp : Passes l cs ts n) (hn : n.Fresh) :
    lineEnds ts = 0 ∨ ∃ ds us m, ∃ lines : List SourceLine,
      cs = ds ++ lines.flatMap SourceLine.chars ∧ Passes l ds us m ∧ m.Fresh ∧ lineEnds us = 1 := by
  induction hp with
  | nil l => exact .inl rfl
  | @cons l l' n c cs ts us hs hrest ih =>
    have hends := ends_step l c
    rw [hs] at hends
    rcases ih hn with hnone | ⟨ds, vs, m, lines, rfl, hds, hm, hvs⟩
    · rcases hends with hts | ⟨hts, -⟩
      · left
        rw [lineEnds_append, hts, hnone]
      · -- what ends no line belongs to the line in front of it
        refine .inr ⟨c :: cs, ts ++ us, n, [], (List.append_nil _).symm, .cons hs hrest, hn, ?_⟩
        rw [lineEnds_append, hts, hnone]
    · rcases hends with hts | ⟨hts, hl'⟩
      · refine .inr ⟨c :: ds, ts ++ vs, m, lines, rfl, .cons hs hds, hm, ?_⟩
        rw [lineEnds_append, hts, hvs]
      · obtain ⟨line, rfl⟩ := exists_sourceLine hds hl' hm hvs
        have hc : Passes l [c] ts l' := by simpa using Passes.cons hs (.nil l')
        exact .inr ⟨[c], ts, l', line :: lines, by simp, hc, hl', hts⟩

/-- What is read up to the start of a line is nothing, or it is the characters of lines. -/
theorem exists_sourceLines (hp : Passes {} cs ts n) (hn : n.Fresh) :
    ts = [] ∨ ∃ lines : List SourceLine, cs = lines.flatMap SourceLine.chars := by
  rcases exists_rest hp hn with hnone | ⟨ds, us, m, lines, rfl, hds, hm, hus⟩
  · left
    obtain ⟨lines, hlines, -⟩ := hp.promise settled_start (promise_nil hn.mode)
    rw [List.append_nil] at hlines
    rw [hlines, lineEnds_lines] at hnone
    rw [hlines, List.eq_nil_of_length_eq_zero hnone]
    rfl
  · obtain ⟨line, rfl⟩ := exists_sourceLine hds fresh_start hm hus
    exact .inr ⟨line :: lines, List.flatMap_cons.symm⟩

/-- Behind a line break stands the first character of a line, if no text goes on. -/
theorem fresh_step_lineBreak (he : (l.step '\n').error = none) :
    (l.step '\n').lexer.Fresh ∨ (l.step '\n').lexer.mode = .text := by
  unfold step at he ⊢
  rw [if_neg (by decide)] at he ⊢
  generalize { l with column := l.column + 1 } = l' at he ⊢
  dsimp only at he ⊢
  cases hm : l'.mode with
  | lineStart => exact .inl (fresh_endLine l')
  | comment => exact .inl (fresh_endLine l')
  | between => exact .inl (fresh_endLine l')
  | keyword => exact .inl (fresh_endLine l'.closeWord)
  | text => exact .inr hm
  | escape =>
    rw [hm] at he
    cases he

theorem Passes.fresh_or_text (hp : Passes l cs ts n) (hcs : cs.getLast? = some '\n') :
    n.Fresh ∨ n.mode = .text := by
  induction hp with
  | nil => cases hcs
  | @cons l l' n c cs ts us hs hrest ih =>
    cases cs with
    | nil =>
      cases hrest
      obtain rfl : c = '\n' := Option.some.inj hcs
      have hstep := fresh_step_lineBreak (l := l) (by rw [hs])
      rwa [hs] at hstep
    | cons d cs => exact ih (by rwa [List.getLast?_cons_cons] at hcs)

/-- A source whose last line is complete is passed up to the start of a line. -/
theorem passes_of_tokenize {source : String} (h : tokenize source = .ok ts)
    (hend : source.toList.getLast? = some '\n') :
    ∃ n, Passes {} source.toList ts n ∧ n.Fresh := by
  obtain ⟨us, n, hpasses, he, rfl⟩ := passes_of_read h
  have hn : n.Fresh := by
    rcases hpasses.fresh_or_text hend with hn | hm
    · exact hn
    · unfold finish at he
      rw [hm] at he
      cases he
  have hnone : n.finish.tokens = [] := by
    simp [finish, hn.mode, closeLine, hn.lineHasTokens]
  exact ⟨n, by rwa [hnone, List.append_nil], hn⟩

end Lexer

open Lexer

/-! ## The depths of lines -/

/-- The tokens of lines behind one of a depth, without their positions. -/
def tokensBehind : Nat → List SourceLine → List Token
  | _, [] => []
  | previous, line :: lines =>
    marks previous line.depth
      ++ (line.first :: line.rest ++ line.stop :: tokensBehind line.depth lines)

/-- Lines behind one of a depth: no line is deeper than the one before by more than one level. -/
def Stepwise : Nat → List SourceLine → Prop
  | _, [] => True
  | previous, line :: lines => line.depth ≤ previous + 1 ∧ Stepwise line.depth lines

/-- Lines are read as their tokens. -/
theorem passes_lines (lines : List SourceLine) {m : Lexer} (hm : m.Fresh) (hs : m.Settled) :
    ∃ us n, Passes m (lines.flatMap SourceLine.chars) us n
      ∧ us.map Token.unplaced = tokensBehind m.previousDepth lines := by
  induction lines generalizing m with
  | nil => exact ⟨[], m, .nil m, rfl⟩
  | cons line lines ih =>
    obtain ⟨us, n, hpasses, hn, hsettled, hdepth, hus⟩ := line.passes hm hs
    obtain ⟨vs, n', hpasses', hvs⟩ := ih hn hsettled
    refine ⟨us ++ vs, n', ?_, ?_⟩
    · rw [List.flatMap_cons]
      exact hpasses.append hpasses'
    · rw [List.map_append, hus, hvs, hdepth]
      simp [tokensBehind]

/-- The same characters are read as the same tokens. -/
theorem Lexer.Passes.unique {l n n' : Lexer} {cs : List Char} (h : Passes l cs ts n)
    (h' : Passes l cs us n') : us = ts := by
  induction h generalizing us with
  | nil =>
    cases h'
    rfl
  | cons hs _ ih =>
    obtain _ | ⟨hs', hrest⟩ := h'
    rw [hs] at hs'
    cases hs'
    rw [ih hrest]

variable {o o' t : Token}

/-- Nesting does not depend on positions. -/
theorem nested_unplaced (ho : o'.indent = o.indent) (h : Nested o ts) :
    Nested o' (ts.map Token.unplaced) := by
  induction ts generalizing o o' with
  | nil => trivial
  | cons t ts ih =>
    refine ⟨fun hmark => ?_, ih (o := t) rfl h.2⟩
    rw [ho]
    exact h.1 hmark

/-- Tokens behind others are nested as they are. -/
theorem Nested.behind (h : Nested o (ts ++ t :: us)) : Nested t us := by
  induction ts generalizing o with
  | nil => exact h.2
  | cons t ts ih => exact ih h.2

theorem stepwise_of_nested {lines : List SourceLine} (h : Nested o (tokensBehind o.indent lines)) :
    Stepwise o.indent lines := by
  induction lines generalizing o with
  | nil => trivial
  | cons line lines ih =>
    have hstop : line.stop.indent = line.depth := line.tokens.indent_eq line.tokens.stop (by simp)
    unfold tokensBehind at h
    constructor
    · by_cases hdeeper : o.indent < line.depth
      · unfold marks at h
        rw [if_pos hdeeper] at h
        have hvalue : toString line.depth = toString (o.indent + 1) := h.1 rfl
        exact (eq_of_toString_eq hvalue).le
      · omega
    · rw [← List.append_assoc] at h
      have hlines := h.behind
      rw [← hstop] at hlines ⊢
      exact ih hlines

/-- The lines of a source that is parsed climb one level at a time, from depth 0 on. -/
theorem stepwise_of_parse {source : String} {spec : Specification} {lines : List SourceLine}
    (htokenize : tokenize source = .ok ts) (h : (TokenWindow.ofTokens ts).parse.1 = .ok spec)
    (hpasses : ∃ n, Passes {} (lines.flatMap SourceLine.chars) ts n) :
    Stepwise 0 lines ∧ ∀ line ∈ lines.head?, line.depth = 0 := by
  obtain ⟨n, hpasses⟩ := hpasses
  obtain ⟨us, n', hpasses', hus⟩ := passes_lines lines fresh_start settled_start
  obtain rfl := hpasses.unique hpasses'
  -- the first line stands behind the end of a line of depth 0, as it were
  let start : Token := ⟨.lineEnd, "", .origin, 0⟩
  obtain ⟨hnested, hfirst⟩ := Grammar.nested_of_parse (o := start) htokenize h rfl
  have hlines : Nested start (tokensBehind start.indent lines) := by
    have hunplaced : Nested start (us.map Token.unplaced) := nested_unplaced rfl hnested
    rwa [hus] at hunplaced
  refine ⟨stepwise_of_nested hlines, ?_⟩
  cases lines with
  | nil => exact nofun
  | cons line lines =>
    rintro _ ⟨⟩
    by_contra hdepth
    unfold tokensBehind marks at hus
    rw [if_pos (Nat.pos_of_ne_zero hdepth), List.singleton_append] at hus
    obtain ⟨mark, _, rfl, hmark, -⟩ := List.map_eq_cons_iff.mp hus
    have hplain := hfirst mark rfl
    have hindent : mark.unplaced.isIndent = true := by
      rw [hmark]
      rfl
    exact Bool.false_ne_true (hplain.symm.trans hindent)

/-! ## Lines in blocks -/

namespace Passage

/-- The passage begins with a line that is deeper than another one. -/
def deeper (line : SourceLine) (p : Passage) : Bool := line.depth < p.line.depth

/-- The passages that lines make up: the block of a line are the deeper ones behind it. -/
def nest : List SourceLine → List Passage
  | [] => []
  | line :: rest =>
    .lines line ((nest rest).takeWhile (deeper line)) :: (nest rest).dropWhile (deeper line)

variable {d : Nat} {F : List Passage} {ls : List SourceLine}

theorem charsOf_append (F G : List Passage) : charsOf (F ++ G) = charsOf F ++ charsOf G := by
  induction F with
  | nil =>
    rw [charsOf]
    rfl
  | cons p F ih => rw [List.cons_append, charsOf, charsOf, ih, List.append_assoc]

/-- The characters of lines stay in their order. -/
theorem charsOf_nest (ls : List SourceLine) :
    charsOf (nest ls) = ls.flatMap SourceLine.chars := by
  induction ls with
  | nil =>
    rw [nest, charsOf]
    rfl
  | cons line ls ih =>
    rw [nest, charsOf, chars, List.append_assoc, ← charsOf_append, List.takeWhile_append_dropWhile,
      ih, List.flatMap_cons]

/-- Passages of which none is deeper than one before it. -/
def Falling (F : List Passage) : Prop := F.Pairwise fun p q => q.line.depth ≤ p.line.depth

/-- Behind the deeper passages none is deeper. -/
theorem Falling.depth_le (h : Falling F) (line : SourceLine) :
    ∀ p ∈ F.dropWhile (deeper line), p.line.depth ≤ line.depth := by
  induction F with
  | nil => exact nofun
  | cons q F ih =>
    obtain ⟨hq, hF⟩ := List.pairwise_cons.mp h
    by_cases hdeeper : deeper line q = true
    · rw [List.dropWhile_cons_of_pos hdeeper]
      exact ih hF
    · rw [List.dropWhile_cons_of_neg hdeeper]
      have hle : q.line.depth ≤ line.depth := by simpa [deeper] using hdeeper
      exact List.forall_mem_cons.mpr ⟨hle, fun p hp => (hq p hp).trans hle⟩

/-- Lines that climb one level at a time make up passages whose blocks stand one level deeper. -/
theorem nest_at (h : Stepwise d ls) :
    Falling (nest ls) ∧ ∀ p ∈ nest ls, p.At p.line.depth ∧ p.line.depth ≤ d + 1 := by
  induction ls generalizing d with
  | nil => exact ⟨List.Pairwise.nil, List.forall_mem_nil _⟩
  | cons line ls ih =>
    obtain ⟨hfalling, hat⟩ := ih h.2
    have hmembers : ∀ p ∈ (nest ls).takeWhile (deeper line), p.At (line.depth + 1) := by
      intro p hp
      have hdeeper : line.depth < p.line.depth := by
        simpa [deeper] using List.mem_takeWhile_imp hp
      obtain ⟨hp, hle⟩ := hat p ((List.takeWhile_sublist _).subset hp)
      rwa [show p.line.depth = line.depth + 1 by omega] at hp
    have hothers := hfalling.depth_le line
    rw [nest]
    constructor
    · exact List.pairwise_cons.mpr ⟨hothers, hfalling.sublist (List.dropWhile_sublist _)⟩
    · refine List.forall_mem_cons.mpr ⟨⟨.lines hmembers, h.1⟩, fun p hp => ?_⟩
      exact ⟨(hat p ((List.dropWhile_sublist _).subset hp)).1, (hothers p hp).trans h.1⟩

/-- Lines from depth 0 on make up passages at depth 0. -/
theorem nest_at_zero (h : Stepwise 0 ls) (hfirst : ∀ line ∈ ls.head?, line.depth = 0) :
    ∀ p ∈ nest ls, p.At 0 := by
  obtain ⟨hfalling, hat⟩ := nest_at h
  intro p hp
  have hzero : p.line.depth = 0 := by
    cases ls with
    | nil =>
      rw [nest] at hp
      cases hp
    | cons line ls =>
      have hline : line.depth = 0 := hfirst line rfl
      rw [nest] at hp hfalling
      rcases List.mem_cons.mp hp with rfl | hp
      · exact hline
      · exact Nat.le_zero.mp (((List.pairwise_cons.mp hfalling).1 p hp).trans hline.le)
  exact hzero ▸ (hat p hp).1

end Passage

open Passage Grammar

/-- A source that is parsed, and whose last line is complete, consists of passages, unless it has no
tokens at all. -/
theorem exists_passages {source : String} {spec : Specification}
    (hend : source.toList.getLast? = some '\n') (h : parse source = .ok spec) :
    tokenize source = .ok []
      ∨ ∃ F : List Passage, (∀ m ∈ F, m.At 0) ∧ charsOf F = source.toList := by
  obtain ⟨ts, htokenize, -⟩ := tokenize_of_parse h
  obtain ⟨n, hpasses, hn⟩ := passes_of_tokenize htokenize hend
  rcases exists_sourceLines hpasses hn with rfl | ⟨lines, hlines⟩
  · exact .inl htokenize
  · have hparse : (TokenWindow.ofTokens ts).parse.1 = .ok spec := by
      rw [parse_of_tokenize htokenize] at h
      rwa [parseTokens_of_gate (gate_of_parseTokens h)] at h
    obtain ⟨hstepwise, hfirst⟩ :=
      stepwise_of_parse htokenize hparse ⟨n, hlines ▸ hpasses⟩
    exact .inr ⟨nest lines, nest_at_zero hstepwise hfirst, (charsOf_nest lines).trans hlines.symm⟩

end Manuscript
