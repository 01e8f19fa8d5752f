import Manuscript.Proofs.Canonical.Tree
import Manuscript.Proofs.Token.Passing

/-!
# Texts written with escapes

A value is quoted by writing its quotes, backslashes, line feeds and tabs as escapes and the rest as
it is. Wherever a token may begin, the quotation is read as one text with this value: none of the
characters between its quotes ends the text, and no line break is there to be read as a space. The
values that can be quoted so are those without carriage returns, and no other value is ever read.

* `quotation`: a value between quotes, with escapes.
* `passes_quotation`: the quotation is read as one text.
* `Passes.fits`: the tokens of a part fit, so that no text of it holds a carriage return.
* `tokenize_quotation`: a quotation on its own, within a source, and the values that are covered.
-/

namespace Manuscript

open Canonical (escaped)

/-- A value between quotes, with escapes. -/
def quotation (value : String) : String := String.ofList (Canonical.Lexeme.text value).chars

theorem toList_quotation (value : String) :
    (quotation value).toList = '"' :: (value.toList.flatMap escaped ++ ['"']) :=
  String.toList_ofList

/-! ## Escapes -/

/-- A character that is escaped or written as it is adds itself to the value. -/
theorem unquoted_escaped (before : String) (c : Char) :
    Unquoted before (escaped c) (before.push c) := by
  unfold escaped
  by_cases hquote : c = '"'
  · rw [if_pos hquote, hquote]
    exact .escape rfl (.nil _)
  rw [if_neg hquote]
  by_cases hback : c = '\\'
  · rw [if_pos hback, hback]
    exact .escape rfl (.nil _)
  rw [if_neg hback]
  by_cases hbreak : c = '\n'
  · rw [if_pos hbreak, hbreak]
    exact .escape rfl (.nil _)
  rw [if_neg hbreak]
  by_cases htab : c = '\t'
  · rw [if_pos htab, htab]
    exact .escape rfl (.nil _)
  · rw [if_neg htab]
    exact .char hquote hback hbreak (.nil _)

theorem unquoted_flatMap_escaped (before : String) (cs : List Char) :
    Unquoted before (cs.flatMap escaped) (before ++ String.ofList cs) := by
  induction cs generalizing before with
  | nil =>
    have hempty : before ++ String.ofList [] = before := String.append_empty
    rw [hempty]
    exact .nil before
  | cons c cs ih =>
    have hvalue : before ++ String.ofList (c :: cs) = before.push c ++ String.ofList cs := by
      apply String.toList_injective
      simp
    rw [List.flatMap_cons, hvalue]
    exact (unquoted_escaped before c).append (ih (before.push c))

/-- An escape holds a carriage return only if it is one, and never a line feed. -/
theorem mem_escaped {c d : Char} (h : d ∈ escaped c) : d ≠ '\n' ∧ (d = '\r' → c = '\r') := by
  have hpair {e : Char} (he : e ≠ '\n' ∧ e ≠ '\r') (hd : d ∈ ['\\', e]) :
      d ≠ '\n' ∧ (d = '\r' → c = '\r') := by
    have hne : d ≠ '\n' ∧ d ≠ '\r' := by
      rcases List.mem_cons.mp hd with rfl | hd
      · decide
      · rwa [List.mem_singleton.mp hd]
    exact ⟨hne.1, fun heq => absurd heq hne.2⟩
  unfold escaped at h
  split_ifs at h with hquote hback hbreak htab
  · exact hpair (by decide) h
  · exact hpair (by decide) h
  · exact hpair (by decide) h
  · exact hpair (by decide) h
  · rw [List.mem_singleton.mp h]
    exact ⟨hbreak, id⟩

/-- A quotation has no line breaks, and no carriage returns if its value has none. -/
theorem mem_quotation {value : String} {d : Char} (h : d ∈ (quotation value).toList) :
    d ≠ '\n' ∧ (CleanValue value → d ≠ '\r') := by
  have hquote : '"' ≠ '\n' ∧ (CleanValue value → '"' ≠ '\r') := ⟨by decide, fun _ => by decide⟩
  rw [toList_quotation, List.mem_cons, List.mem_append, List.mem_singleton] at h
  rcases h with rfl | h | rfl
  · exact hquote
  · obtain ⟨c, hc, hd⟩ := List.mem_flatMap.mp h
    obtain ⟨hbreak, hreturn⟩ := mem_escaped hd
    refine ⟨hbreak, fun hclean heq => hclean ?_⟩
    rwa [← hreturn heq]
  · exact hquote

namespace Position

/-- Characters on one line are counted. -/
theorem pastAll_of_forall_ne {cs : List Char} (p : Position) (h : ∀ c ∈ cs, c ≠ '\n') :
    p.pastAll cs = ⟨p.line, p.column + cs.length⟩ := by
  induction cs generalizing p with
  | nil => rfl
  | cons c cs ih =>
    obtain ⟨hc, hcs⟩ := List.forall_mem_cons.mp h
    rw [pastAll_cons, past_of_ne hc, ih _ hcs, List.length_cons]
    unfold next
    rw [Nat.add_right_comm, Nat.add_assoc]

end Position

/-! ## Reading a quotation -/

namespace Lexer

variable {l m : Lexer} {cs : List Char} {ts : List Token} {value : String}

/-- A token may begin here: at the start of a line, between two tokens or right behind a word. -/
def AtBorder (l : Lexer) : Prop := l.mode = .lineStart ∨ l.mode = .between ∨ l.mode = .keyword

/-- The quote that opens a text; what is given out first is a word that ends here or the
indentation of the line. -/
theorem passes_openingQuote (h : l.AtBorder) :
    ∃ marks m, Passes l ['"'] marks m ∧ (∀ t ∈ marks, t.isText = false)
      ∧ m.mode = .text ∧ m.buffer = "" ∧ m.start = l.here := by
  rcases h with hm | hm | hm
  · by_cases hdeeper : l.previousDepth < l.tabs + l.spaces / spacesPerIndent
    · have hstep : l.step '"' = ⟨{ l with
          column := l.column + 1, mode := .text, depth := l.measuredDepth
          previousDepth := l.measuredDepth, start := l.here, buffer := "", lineHasTokens := true },
          [⟨.indent, toString l.measuredDepth, ⟨l.line, 1⟩, l.measuredDepth⟩], none⟩ := by
        simp [Lexer.step, stepLineStart, hm, measuredDepth, hdeeper, stepBetween, Step.after, token,
          here]
      exact ⟨_, _, .cons hstep (.nil _), by simp [Token.isText], rfl, rfl, rfl⟩
    · have hstep : l.step '"' = ⟨{ l with
          column := l.column + 1, mode := .text, depth := l.measuredDepth
          previousDepth := l.measuredDepth, start := l.here, buffer := "" }, [], none⟩ := by
        simp [Lexer.step, stepLineStart, hm, measuredDepth, hdeeper, stepBetween, here]
      exact ⟨_, _, .cons hstep (.nil _), by simp, rfl, rfl, rfl⟩
  · have hstep : l.step '"' = ⟨{ l with
        column := l.column + 1, mode := .text, start := l.here, buffer := "" }, [], none⟩ := by
      simp [Lexer.step, hm, stepBetween, here]
    exact ⟨_, _, .cons hstep (.nil _), by simp, rfl, rfl, rfl⟩
  · have hstep : l.step '"' = ⟨{ l with
        column := l.column + 1, mode := .text, start := l.here, buffer := ""
        lineHasTokens := true }, [l.word], none⟩ := by
      simp [Lexer.step, stepKeyword, hm, isWordLetter, stepBetween, closeWord, Step.after, word,
        token, here]
    exact ⟨_, _, .cons hstep (.nil _), by simp [word, token, Token.isText], rfl, rfl, rfl⟩

/-- Behind the opening quote, the rest of a quotation gives out the text. -/
theorem passes_quoted (hvalue : CleanValue value) (hm : l.mode = .text) (hb : l.buffer = "") :
    ∃ line column, Passes l (value.toList.flatMap escaped ++ ['"'])
      [l.token .text value l.start]
      { l with line, column, mode := .between, buffer := "", lineHasTokens := true } := by
  have hraw : Unquoted "" (value.toList.flatMap escaped) value := by
    have hall := unquoted_flatMap_escaped "" value.toList
    rwa [String.ofList_toList, String.empty_append] at hall
  have hreturn : '\r' ∉ value.toList.flatMap escaped := by
    intro hmem
    obtain ⟨c, hc, hd⟩ := List.mem_flatMap.mp hmem
    obtain rfl := (mem_escaped hd).2 rfl
    exact hvalue hc
  obtain ⟨line, column, hpass⟩ := passes_unquoted hraw hreturn hm hb
  have hclose : step { l with line, column, mode := .text, buffer := value } '"' = ⟨{ l with
      line, column := column + 1, mode := .between, buffer := "", lineHasTokens := true },
      [l.token .text value l.start], none⟩ := by
    simp [Lexer.step, stepText, token]
  exact ⟨line, column + 1, hpass.append (.cons hclose (.nil _))⟩

/-- Where a token may begin, a quotation gives out one text, and it has the value that was
quoted. -/
theorem passes_quotation (h : l.AtBorder) (hvalue : CleanValue value) :
    ∃ marks m, Passes l (quotation value).toList (marks ++ [⟨.text, value, l.here, m.depth⟩]) m
      ∧ (∀ t ∈ marks, t.isText = false) ∧ m.mode = .between := by
  obtain ⟨marks, m, hopen, hmarks, hm, hb, hstart⟩ := passes_openingQuote h
  obtain ⟨line, column, hpass⟩ := passes_quoted hvalue hm hb
  have hall := hopen.append hpass
  rw [List.singleton_append, ← toList_quotation] at hall
  rw [← hstart]
  exact ⟨marks, { m with line, column, mode := .between, buffer := "", lineHasTokens := true },
    hall, hmarks, rfl⟩

/-- The tokens of a part fit, and so does what was read of the next one. -/
theorem Passes.fits (h : Passes l cs ts m) (hb : CleanValue l.buffer) :
    Fits l.awaited ts m.awaited ∧ CleanValue m.buffer := by
  induction h with
  | nil l => exact ⟨fun d hd => hd, hb⟩
  | @cons l m n c cs ts us hs _ ih =>
    have hok : (l.step c).error = none := by rw [hs]
    have hfine := fine_step hb hok
    rw [hs] at hfine
    obtain ⟨hrest, hbuffer⟩ := ih hfine.buffer
    exact ⟨hfine.tokens.append hrest, hbuffer⟩

end Lexer

/-! ## Sources -/

/-- A quotation on its own is a source of one text. -/
theorem tokenize_quotation_alone {value : String} (h : CleanValue value) :
    tokenize (quotation value) = .ok [⟨.text, value, ⟨1, 1⟩, 0⟩,
      ⟨.lineEnd, "", ⟨1, (quotation value).toList.length + 1⟩, 0⟩] := by
  let opened : Lexer := { mode := .text, column := 1, start := ⟨1, 1⟩ }
  have hopen : Lexer.step {} '"' = ⟨opened, [], none⟩ := by decide
  obtain ⟨line, column, hpass⟩ := Lexer.passes_quoted (l := opened) h rfl rfl
  have hall := Lexer.Passes.skip hopen hpass
  rw [← toList_quotation] at hall
  have hhere := hall.here fun hmem => (mem_quotation hmem).2 h rfl
  rw [Position.pastAll_of_forall_ne _ fun d hd => (mem_quotation hd).1] at hhere
  have hread := hall.read []
  rw [List.append_nil] at hread
  unfold tokenize
  rw [hread]
  -- the lexer is behind the closing quote, where the end of the source closes the line
  have hend : (⟨line, column + 1⟩ : Position) = ⟨1, (quotation value).toList.length + 1⟩ := by
    rw [Nat.add_comm (quotation value).toList.length 1]
    exact hhere
  show Except.ok [_, (⟨.lineEnd, "", ⟨line, column + 1⟩, 0⟩ : Token)] = _
  rw [hend]
  rfl

/-- A value without carriage returns that is quoted with escapes is read as itself. The quotation on
its own is a source of one text; within a source, wherever a token may begin, it gives out one text
and the rest is read from behind it. Every text of a source has a value that can be quoted so, also
if an error stands behind it. -/
theorem tokenize_quotation :
    (∀ value, CleanValue value → tokenize (quotation value) = .ok [⟨.text, value, ⟨1, 1⟩, 0⟩,
      ⟨.lineEnd, "", ⟨1, (quotation value).toList.length + 1⟩, 0⟩])
    ∧ (∀ front ts l value, Lexer.Passes {} front ts l → l.AtBorder → CleanValue value →
      ∃ marks m, Lexer.Passes l (quotation value).toList
          (marks ++ [⟨.text, value, l.here, m.depth⟩]) m
        ∧ (∀ t ∈ marks, t.isText = false) ∧ m.mode = .between
        ∧ ∀ back, tokenize (String.ofList (front ++ (quotation value).toList ++ back))
          = (m.read back).map (ts ++ (marks ++ [⟨.text, value, l.here, m.depth⟩]) ++ ·))
    ∧ (∀ front ts l, Lexer.Passes {} front ts l → ∀ t ∈ ts, t.isText = true → CleanValue t.value)
    ∧ ∀ source ts, tokenize source = .ok ts → ∀ t ∈ ts, t.isText = true → CleanValue t.value := by
  refine ⟨fun _ => tokenize_quotation_alone, ?_, ?_, ?_⟩
  · intro front ts l value hfront hborder hvalue
    obtain ⟨marks, m, hpass, hmarks, hm⟩ := Lexer.passes_quotation hborder hvalue
    refine ⟨marks, m, hpass, hmarks, hm, fun back => ?_⟩
    unfold tokenize
    rw [String.toList_ofList]
    exact (hfront.append hpass).read back
  · intro front ts l hfront t ht
    have hfits := (hfront.fits (by simp [CleanValue])).1
    exact (hfits.wellFormed t ht).text
  · intro source ts h t ht
    exact ((fits_tokenize h).wellFormed t ht).text

/-- A value of characters that mean something elsewhere is read on its own and in a block. -/
theorem tokenize_quotation_marks :
    let value := " #,\\\"\n\n\t \\"
    let l := (Scanner.feedAll {} "title\n\t".toList).1.lexer
    CleanValue value
      ∧ tokenize (quotation value)
        = .ok [⟨.text, value, ⟨1, 1⟩, 0⟩, ⟨.lineEnd, "", ⟨1, 19⟩, 0⟩]
      ∧ ∃ marks m, Lexer.Passes l (quotation value).toList
          (marks ++ [⟨.text, value, ⟨2, 2⟩, m.depth⟩]) m
        ∧ (∀ t ∈ marks, t.isText = false) ∧ m.mode = .between := by
  intro value l
  have hclean : CleanValue value := by
    show '\r' ∉ value.toList
    decide
  have hlength : (quotation value).toList.length + 1 = 19 := by decide
  have halone := tokenize_quotation.1 value hclean
  rw [hlength] at halone
  have hfeed : Scanner.feedAll {} "title\n\t".toList
      = ((Scanner.feedAll {} "title\n\t".toList).1, none) := by decide
  obtain ⟨ts, -, hfront⟩ := Lexer.Passes.of_feedAll hfeed
  have hborder : l.AtBorder := .inl (by decide)
  have hhere : l.here = ⟨2, 2⟩ := by decide
  obtain ⟨marks, m, hpass, hmarks, hm, -⟩ :=
    tokenize_quotation.2.1 _ ts l value hfront hborder hclean
  rw [hhere] at hpass
  exact ⟨hclean, halone, marks, m, hpass, hmarks, hm⟩

end Manuscript
