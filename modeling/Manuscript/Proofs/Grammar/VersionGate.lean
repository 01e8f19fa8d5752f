import Manuscript.Proofs.Grammar.Conservation
import Manuscript.Proofs.Grammar.LazyReading
import Manuscript.Proofs.Token.Passing

/-!
# The version gate

A source that declares a version says so first, and the version is looked at before anything else.
The gate reads as far as the closing quote of the version, so that nothing behind it can hide that
the version is refused; and the parser, which counts the sections in front of a version itself, lets
no version pass that the gate did not look at.

* `stream_opening`: what a source that opens with a version gives first.
* `version_of_parse`: the version of what was parsed is the second token of the source.
* `parse_version_gate`: both directions together.
-/

namespace Manuscript

/-! ## Sources that open with a version -/

/-- The characters up to the text of a version at the start of a source: lines without tokens, less
than one unit of indentation, the keyword and blanks. -/
def OpensVersion (front : List Char) : Prop :=
  ∃ lines margin gap, front = lines ++ margin ++ Keyword.version.spelling.toList ++ gap
    ∧ Quiet lines ∧ (∀ c ∈ margin, c = ' ') ∧ margin.length < Lexer.spacesPerIndent
    ∧ ∀ c ∈ gap, c = ' ' ∨ c = '\t'

namespace Lexer

variable {l : Lexer}

/-- Blanks between tokens are passed over. -/
theorem passes_gap {gap : List Char} (hm : l.mode = .between)
    (hgap : ∀ c ∈ gap, c = ' ' ∨ c = '\t') : ∃ column, Passes l gap [] { l with column } := by
  induction gap generalizing l with
  | nil => exact ⟨l.column, .nil l⟩
  | cons c gap ih =>
    have hstep : l.step c = ⟨{ l with column := l.column + 1 }, [], none⟩ := by
      rcases hgap c List.mem_cons_self with rfl | rfl <;>
        simp [Lexer.step, stepBetween, hm]
    obtain ⟨column, hpass⟩ := ih (l := { l with column := l.column + 1 }) hm
      fun d hd => hgap d (List.mem_cons_of_mem c hd)
    exact ⟨column, .skip hstep hpass⟩

/-- Blanks and a quote behind a word complete the word and begin a text at the quote. -/
theorem passes_wordEnd {gap : List Char} (hm : l.mode = .keyword)
    (hgap : ∀ c ∈ gap, c = ' ' ∨ c = '\t') :
    ∃ m, Passes l (gap ++ ['"']) [l.word] m ∧ m.mode = .text ∧ m.buffer = ""
      ∧ m.start = ⟨m.line, m.column⟩ := by
  have hquote : ∀ l' : Lexer, l'.mode = .between → l'.step '"' = ⟨{ l' with
      column := l'.column + 1, mode := .text, start := ⟨l'.line, l'.column + 1⟩, buffer := "" },
      [], none⟩ := by
    intro l' hl'
    simp [Lexer.step, stepBetween, hl']
  cases gap with
  | nil =>
    -- the quote itself ends the word
    have hstep : l.step '"' = ⟨{ l with
        column := l.column + 1, mode := .text, start := ⟨l.line, l.column + 1⟩, buffer := ""
        lineHasTokens := true }, [l.word], none⟩ := by
      simp [Lexer.step, stepKeyword, hm, isWordLetter, stepBetween, closeWord, Step.after, word,
        token]
    exact ⟨_, .cons hstep (.nil _), rfl, rfl, rfl⟩
  | cons c gap =>
    have hstep : l.step c = ⟨{ l.closeWord with column := l.column + 1 }, [l.word], none⟩ := by
      rcases hgap c List.mem_cons_self with rfl | rfl <;>
        simp [Lexer.step, stepKeyword, hm, isWordLetter, stepBetween, closeWord, Step.after, word,
          token]
    obtain ⟨column, hpass⟩ := passes_gap (l := { l.closeWord with column := l.column + 1 }) rfl
      fun d hd => hgap d (List.mem_cons_of_mem c hd)
    have hrest := hpass.append (.skip (hquote _ rfl) (.nil _))
    exact ⟨_, .cons hstep hrest, rfl, rfl, rfl⟩

/-- A letter begins a word on a line that is not deeper than the one before. -/
theorem step_letter {c : Char} (hm : l.mode = .lineStart) (hd : l.measuredDepth = l.previousDepth)
    (hc : isWordLetter c = true) :
    l.step c = ⟨{ l with
      column := l.column + 1, mode := .keyword, depth := l.previousDepth
      start := ⟨l.line, l.column + 1⟩, buffer := String.singleton c }, [], none⟩ := by
  have hne : ∀ d, isWordLetter d = false → c ≠ d := by
    rintro d hd rfl
    rw [hc] at hd
    cases hd
  have hsame : measuredDepth { l with mode := .lineStart, column := l.column + 1 }
      = l.previousDepth := hd
  have hblank : ¬ (c = ' ' ∨ c = '\t') := not_or.mpr ⟨hne _ (by decide), hne _ (by decide)⟩
  unfold step
  rw [if_neg (hne _ (by decide))]
  simp only [hm, stepLineStart]
  rw [if_neg (hne _ (by decide)), if_neg (hne _ (by decide)), if_neg (hne _ (by decide)),
    if_neg (fun hboth => hne _ (by decide) hboth.1), hsame, if_neg (Nat.lt_irrefl _)]
  unfold stepBetween
  rw [if_neg hblank, if_neg (hne _ (by decide)), if_neg (hne _ (by decide)),
    if_neg (hne _ (by decide)), if_pos hc]

/-- A word that begins a line which is not deeper than the one before is read up to its end. -/
theorem passes_firstWord {c : Char} {letters : List Char} (hm : l.mode = .lineStart)
    (hd : l.measuredDepth = l.previousDepth)
    (hc : ∀ d ∈ c :: letters, isWordLetter d = true) :
    ∃ m, Passes l (c :: letters) [] m ∧ m.mode = .keyword
      ∧ m.buffer = String.singleton c ++ String.ofList letters := by
  have hfirst := step_letter hm hd (hc c List.mem_cons_self)
  have hletters : ∀ d ∈ letters, isWordLetter d = true := fun d hd => hc d (.tail c hd)
  obtain ⟨column, hrest⟩ := passes_letters hletters
    (l := { l with
      column := l.column + 1, mode := .keyword, depth := l.previousDepth
      start := ⟨l.line, l.column + 1⟩, buffer := String.singleton c }) rfl
  exact ⟨_, .skip hfirst hrest, rfl, rfl⟩

/-- A source that opens with a version gives its keyword before the text. -/
theorem passes_opening {front : List Char} (h : OpensVersion front) :
    ∃ t m, Passes {} (front ++ ['"']) [t] m ∧ t.keyword? = some .version ∧ m.mode = .text
      ∧ m.buffer = "" ∧ m.start = ⟨m.line, m.column⟩ := by
  obtain ⟨lines, margin, gap, rfl, hlines, hmargin, hlength, hgap⟩ := h
  obtain ⟨l, hpass, hfresh, hprevious⟩ := passes_quiet (l := {}) hlines ⟨rfl, rfl, rfl, rfl, rfl⟩
  obtain ⟨column, tabs, spaces, hindent, hcount⟩ :=
    passes_margin hfresh.mode fun c hc => .inl (hmargin c hc)
  -- the margin has no tab, so that it is less than one unit deep
  have hnotab : '\t' ∉ margin := by
    intro hmem
    have hspace : '\t' = ' ' := hmargin _ hmem
    exact absurd hspace (by decide)
  obtain ⟨htabs, hspaces⟩ := hcount hnotab
  have hdepth : measuredDepth { l with column, tabs, spaces } = l.previousDepth := by
    unfold measuredDepth
    rw [htabs, hspaces, hprevious, hfresh.tabs, hfresh.spaces, Nat.zero_add, Nat.zero_add]
    exact Nat.div_eq_of_lt hlength
  have hletters : ∀ c ∈ 'v' :: "ersion".toList, isWordLetter c = true :=
    List.all_eq_true.mp (by decide)
  obtain ⟨w, hword, hwmode, hbuffer⟩ :=
    passes_firstWord (l := { l with column, tabs, spaces }) hfresh.mode hdepth hletters
  obtain ⟨m, hend, hm⟩ := passes_wordEnd hwmode hgap
  refine ⟨w.word, m, ?_, ?_, hm⟩
  · have hall := hpass.append (hindent.append (hword.append hend))
    have hchars : lines ++ margin ++ Keyword.version.spelling.toList ++ gap ++ ['"']
        = lines ++ (margin ++ ('v' :: "ersion".toList ++ (gap ++ ['"']))) := by
      rw [show Keyword.version.spelling.toList = 'v' :: "ersion".toList from rfl]
      simp
    rw [hchars]
    exact hall
  · unfold Token.keyword? word token Token.isKeyword
    rw [hbuffer]
    rfl

end Lexer

/-- A source that opens with a version gives the keyword and the text first, whatever stands behind
the closing quote. The text stands where the opening ends. -/
theorem stream_opening {source value : String} {front raw rest : List Char}
    (h : OpensVersion front) (hraw : Unquoted "" raw value)
    (hs : visible source.toList = front ++ '"' :: raw ++ '"' :: rest) :
    ∃ t u s, (TokenWindow.ofSource source).stream = TokenStream.after [t, u] s
      ∧ t.keyword? = some .version ∧ u.isText = true ∧ u.value = value
      ∧ u.position = Position.pastAll ⟨1, 1⟩ front := by
  have hclean : '\r' ∉ front ++ '"' :: raw ++ '"' :: rest := by
    rw [← hs]
    unfold visible
    simp
  simp only [List.mem_append, List.mem_cons, not_or] at hclean
  obtain ⟨⟨hfront, -, hrawclean⟩, -⟩ := hclean
  obtain ⟨t, m, hopen, ht, hmode, hbuffer, hstart⟩ := Lexer.passes_opening h
  obtain ⟨line, column, htext⟩ := Lexer.passes_unquoted hraw hrawclean hmode hbuffer
  have hclose : Lexer.step { m with line, column, mode := .text, buffer := value } '"' = ⟨{ m with
      line, column := column + 1, mode := .between, buffer := "", lineHasTokens := true },
      [m.token .text value m.start], none⟩ := by
    simp [Lexer.step, Lexer.stepText, Lexer.token]
  have hpass := hopen.append (htext.append (.cons hclose (.nil _)))
  refine ⟨t, m.token .text value m.start, Scanner.stream ⟨{ m with
      line, column := column + 1, mode := .between, buffer := "", lineHasTokens := true }, []⟩
      rest, ?_, ht, rfl, rfl, ?_⟩
  · rw [TokenWindow.stream_ofSource]
    show Scanner.stream ⟨{}, []⟩ source.toList = _
    rw [← Lexer.stream_visible, hs]
    have hstream := hpass.stream rest
    simpa using hstream
  · -- the lexer stands behind the quote, and the text starts at it
    have hhere : m.here = Position.pastAll ⟨1, 1⟩ (front ++ ['"']) := by
      apply hopen.here
      simp [hfront]
    rw [Position.pastAll_append] at hhere
    show m.start = _
    rw [hstart]
    have hnext : Position.next ⟨m.line, m.column⟩ = (Position.pastAll ⟨1, 1⟩ front).next := hhere
    unfold Position.next at hnext
    simp only [Position.mk.injEq, Nat.add_right_cancel_iff] at hnext
    rw [hnext.1, hnext.2]

/-! ## What the gate refuses -/

/-- A source whose first tokens declare a version that is not supported is refused, whatever becomes
of the rest. -/
theorem parse_of_stream {source : String} {t u : Token} {s : TokenStream}
    (hs : (TokenWindow.ofSource source).stream = s.after [t, u])
    (ht : t.keyword? = some .version) (hu : u.isText = true)
    (hv : Text.trim u.value ∉ supportedVersions) :
    parse source
      = .error (.unsupportedVersion (Text.trim u.value) supportedVersions (some u.position)) := by
  have hgate : (TokenWindow.ofSource source).checkVersion.1
      = .error (.unsupportedVersion (Text.trim u.value) supportedVersions (some u.position)) := by
    rw [TokenWindow.checkVersion_fst, hs]
    unfold TokenStream.checkVersion
    rw [TokenStream.peek_after s (show 0 < [t, u].length by simp),
      TokenStream.peek_after s (show 1 < [t, u].length by simp)]
    simp only [List.getElem?_cons_zero, List.getElem?_cons_succ, ht, ne_eq, not_true_eq_false,
      if_false, hu, if_true]
    unfold checkVersion
    rw [if_neg (by simpa using hv)]
  unfold parse TokenWindow.specification
  rcases hc : (TokenWindow.ofSource source).checkVersion with ⟨e | x, w⟩
  · rw [hc] at hgate
    cases hgate
    rfl
  · rw [hc] at hgate
    cases hgate

/-! ## What the parser lets pass -/

/-- The version of what was parsed is supported, and it is the second token of the source, behind
its keyword. -/
theorem version_of_parse {source : String} {spec : Specification} {l : Literal}
    (h : parse source = .ok spec) (hl : spec.version = some l) :
    checkVersion l.value (some l.position) = .ok () ∧ ∃ t u us, tokenize source = .ok (t :: u :: us)
      ∧ t.keyword? = some .version ∧ u.isText = true ∧ l = u.literal := by
  obtain ⟨ts, htokens, hparse⟩ := tokenize_of_parse h
  have hgate := gate_of_parseTokens hparse
  rw [parseTokens_of_gate hgate] at hparse
  obtain ⟨progress, c, hrun, hok, rfl⟩ := Grammar.of_parse hparse
  have hsound : Grammar.Sound False ts progress [] := Grammar.sound_sections False.elim hrun hok
  obtain ⟨t, u, us, rfl, ht, hu, rfl⟩ := hsound.version l hl
  -- the gate looked at the same two tokens
  have hsupported := (TokenWindow.checkVersion_complete (t :: u :: us)).mp hgate t u us rfl ht hu
  refine ⟨?_, t, u, us, htokens, ht, hu, rfl⟩
  show checkVersion u.value (some u.position) = .ok ()
  unfold checkVersion
  rw [if_pos (by simpa using hsupported)]

/-- Of a specification that was parsed, the gate of the compiler looks at the checks alone. -/
theorem gate_of_parse {source : String} {spec : Specification} (h : parse source = .ok spec) :
    Compiler.gate spec = Sheet.orInvalid spec.check := by
  unfold Compiler.gate
  cases hl : spec.version with
  | none => rfl
  | some l =>
    have hversion := (version_of_parse h hl).1
    dsimp only
    rw [hversion]
    rfl

/-- The version gate is first and complete. A source that opens with a version which is not
supported is refused at the text of the version, whatever stands behind its closing quote; this can
also be told from its first two tokens. A source that is parsed has no version, or one that is
supported and whose keyword is the first token; so the compiler, which looks at the version again,
never refuses it. -/
theorem parse_version_gate :
    (∀ (source value : String) (front raw rest : List Char),
      OpensVersion front → Unquoted "" raw value →
        visible source.toList = front ++ '"' :: raw ++ '"' :: rest →
          Text.trim value ∉ supportedVersions →
            parse source = .error (.unsupportedVersion (Text.trim value) supportedVersions
              (some (Position.pastAll ⟨1, 1⟩ front))))
    ∧ (∀ (source : String) (t u : Token) (s : TokenStream),
      (TokenWindow.ofSource source).stream = s.after [t, u] →
        t.keyword? = some .version → u.isText = true → Text.trim u.value ∉ supportedVersions →
          parse source = .error (.unsupportedVersion (Text.trim u.value) supportedVersions
            (some u.position)))
    ∧ ∀ (source : String) (spec : Specification), parse source = .ok spec →
      (spec.version = none ∨ ∃ l, spec.version = some l
        ∧ checkVersion l.value (some l.position) = .ok ()
        ∧ ∃ t u us, tokenize source = .ok (t :: u :: us) ∧ t.keyword? = some .version
          ∧ u.isText = true ∧ l = u.literal)
      ∧ Compiler.gate spec = Sheet.orInvalid spec.check
      ∧ ∀ version known p, Compiler.gate spec ≠ .error (.unsupportedVersion version known p) := by
  refine ⟨?_, ?_, ?_⟩
  · intro source value front raw rest hfront hraw hs hv
    obtain ⟨t, u, s, hstream, ht, hu, rfl, hp⟩ := stream_opening hfront hraw hs
    rw [parse_of_stream hstream ht hu hv, hp]
  · intro source t u s hs ht hu hv
    exact parse_of_stream hs ht hu hv
  · intro source spec h
    have hgate := gate_of_parse h
    refine ⟨?_, hgate, ?_⟩
    · cases hl : spec.version with
      | none => exact .inl rfl
      | some l =>
        obtain ⟨hversion, htokens⟩ := version_of_parse h hl
        exact .inr ⟨l, rfl, hversion, htokens⟩
    · intro version known p
      rw [hgate]
      unfold Sheet.orInvalid
      cases spec.check <;> simp

/-- A version behind a comment and a blank line, with a character behind it that no token begins
with; and a version that is supported. -/
theorem parse_version_gate_comment :
    parse "# 2\n  \n  version\t\" 9.9\"%"
        = .error (.unsupportedVersion "9.9" ["1.0"] (some ⟨3, 11⟩))
    ∧ ∃ spec, parse "version \"1.0\"\n" = .ok spec
      ∧ ∀ version known p, Compiler.gate spec ≠ .error (.unsupportedVersion version known p) := by
  constructor
  · have hfront : OpensVersion "# 2\n  \n  version\t".toList := by
      refine ⟨"# 2\n  \n".toList, "  ".toList, "\t".toList, by decide, ?_, by simp, by decide,
        by simp⟩
      have hblank : Quiet ("  ".toList ++ '\n' :: []) := .blank (by simp) .nil
      have hcomment : Quiet ('#' :: " 2".toList ++ '\n' :: "  \n".toList) :=
        .comment (by decide) hblank
      exact hcomment
    have hraw : Unquoted "" " 9.9".toList " 9.9" := by
      refine .char (by decide) (by decide) (by decide) (.char (by decide) (by decide) (by decide)
        (.char (by decide) (by decide) (by decide) (.char (by decide) (by decide) (by decide) ?_)))
      exact .nil _
    exact parse_version_gate.1 "# 2\n  \n  version\t\" 9.9\"%" " 9.9" _ _ ['%'] hfront hraw
      (by decide) (by decide)
  · have hparse : parse "version \"1.0\"\n" = .ok { version := some ⟨"1.0", ⟨1, 9⟩⟩ } := by
      decide +kernel
    exact ⟨_, hparse, (parse_version_gate.2.2 _ _ hparse).2.2⟩

end Manuscript
