import Manuscript.Grammar.Content
import Manuscript.Proofs.Canonical.Read
import Manuscript.Proofs.Grammar.Ledger
import Manuscript.Proofs.Specification.Grammatical

/-!
# Reading printed content

Sentences, images and sources of the canonical form are read as what they were printed from, up to
positions.

* `reads_sentence`: a sentence is read run by run.
-/

namespace Manuscript.Grammar

open Canonical Production

variable {d : Nat} {f : List Token → Prop}

/-! ## Sentences -/

/-- The next token is not the one that introduces the page of a citation. -/
def NoPage (rest : List Token) : Prop := ∀ t ∈ rest.head?, t.keyword? ≠ some .page

/-- In front of a run there is no page. -/
theorem noPage_of_lexeme {x : Lexeme} (hx : x ≠ .word .page) {es : List Token}
    (ts rest : List Token) (h : ts.map Token.unplaced = x.token d :: es) : NoPage (ts ++ rest) := by
  obtain ⟨t, us, rfl, ht, -⟩ := List.map_eq_cons_iff.mp h
  rintro _ ⟨⟩ hpage
  cases x with
  | word k =>
    rw [keyword_of_unplaced ht] at hpage
    exact hx (by rw [Option.some.inj hpage])
  | text v => simp [Token.keyword?, Token.isKeyword, (of_unplaced_eq ht).1, Lexeme.token] at hpage
  | comma => simp [Token.keyword?, Token.isKeyword, (of_unplaced_eq ht).1, Lexeme.token] at hpage

theorem noPage_lineEnd (ts rest : List Token) (h : ts.map Token.unplaced = [lineEndAt d]) :
    NoPage (ts ++ rest) := by
  obtain ⟨t, us, rfl, ht, -⟩ := List.map_eq_cons_iff.mp h
  rintro _ ⟨⟩ hpage
  simp [Token.keyword?, Token.isKeyword, (of_unplaced_eq ht).1, lineEndAt] at hpage

/-- A run is a text, or begins with a keyword that introduces it. -/
theorem runLexemes_cases (r : Run) :
    (∃ l, r = .text l) ∨ ∃ k xs, runLexemes r = .word k :: xs ∧ k.opensRun = true := by
  cases r with
  | text l => exact .inl ⟨l, rfl⟩
  | citation source page => cases page <;> exact .inr ⟨_, _, rfl, rfl⟩
  | _ => exact .inr ⟨_, _, rfl, rfl⟩

theorem runLexemes_cons (r : Run) : ∃ x xs, runLexemes r = x :: xs := by
  obtain ⟨l, rfl⟩ | ⟨k, xs, hr, -⟩ := runLexemes_cases r
  · exact ⟨_, _, rfl⟩
  · exact ⟨_, _, hr⟩

/-- What follows a run of a sentence. -/
theorem noPage_runs (runs : List Run) (ts rest : List Token)
    (h : ts.map Token.unplaced
      = (runs.flatMap runLexemes).map (Lexeme.token d) ++ [lineEndAt d]) :
    NoPage (ts ++ rest) := by
  cases runs with
  | nil => exact noPage_lineEnd ts rest h
  | cons r runs =>
    rw [List.flatMap_cons] at h
    obtain ⟨l, rfl⟩ | ⟨k, xs, hr, hk⟩ := runLexemes_cases r
    · exact noPage_of_lexeme (x := .text l.value) (by simp) ts rest h
    · rw [hr] at h
      refine noPage_of_lexeme (x := .word k) ?_ ts rest h
      rintro ⟨⟩
      cases hk

theorem reads_noPage : Reads citedPage [] NoPage fun page => page = none := by
  intro ts rest b q hts hrest
  obtain rfl := List.map_eq_nil_iff.mp hts
  refine ⟨none, b, q, ?_, rfl⟩
  unfold citedPage
  rw [List.nil_append, run_bind, run_peekAt, andThen_ok]
  cases rest with
  | nil => rfl
  | cons t rest =>
    show (if t.keyword? = some .page then _ else _ : Production _).run _ = _
    rw [if_neg (hrest t rfl)]
    rfl

theorem reads_citedPage (l : Literal) :
    Reads citedPage [(Lexeme.word .page).token d, (Lexeme.text l.value).token d] f
      fun page => page.map Literal.unplaced = some l.unplaced := by
  unfold citedPage
  refine .ahead fun t ht => ⟨_, if_pos (keyword_of_unplaced ht), ?_⟩
  exact Reads.map (reads_literal _ l) fun l' hl' => congrArg some hl'

/-- A run from the text behind its keyword on. -/
theorem reads_runOf {r : Run} {k : Keyword} {xs : List Lexeme} (hr : runLexemes r = .word k :: xs) :
    Reads (runOf k) (xs.map (Lexeme.token d)) NoPage fun r' => r'.unplaced = r.unplaced := by
  unfold runOf
  cases r with
  | text l => cases hr
  | citation source page =>
    cases page with
    | none =>
      cases hr
      show Reads _ ([(Lexeme.text source.value).token d] ++ []) _ _
      refine Reads.andThen (reads_literal _ source) fun l hl => ?_
      refine Reads.map reads_noPage fun page hpage => ?_
      rw [hpage]
      exact congrArg (Run.citation · none) hl
    | some page =>
      cases hr
      show Reads _ ([(Lexeme.text source.value).token d] ++ _) _ _
      refine Reads.andThen (reads_literal _ source) fun l hl => ?_
      refine Reads.map (reads_citedPage page) fun page' hpage => ?_
      exact congrArg₂ Run.citation hl hpage
  | emphasise l =>
    cases hr
    exact Reads.map (reads_literal _ l) fun l' hl' => congrArg Run.emphasise hl'
  | bold l =>
    cases hr
    exact Reads.map (reads_literal _ l) fun l' hl' => congrArg Run.bold hl'
  | work l =>
    cases hr
    exact Reads.map (reads_literal _ l) fun l' hl' => congrArg Run.work hl'
  | quote l =>
    cases hr
    exact Reads.map (reads_literal _ l) fun l' hl' => congrArg Run.quote hl'
  | note l =>
    cases hr
    exact Reads.map (reads_literal _ l) fun l' hl' => congrArg Run.note hl'

/-- A run of a sentence, whose first token was taken, is added to the line. -/
theorem reads_sentenceStep (line : SentenceLine) {r : Run} {x : Lexeme} {xs : List Lexeme}
    (hr : runLexemes r = x :: xs) {t : Token} (ht : t.unplaced = x.token d) :
    Reads (sentenceStep line t) (xs.map (Lexeme.token d)) NoPage
      fun line' => line'.runs.map Run.unplaced = (line.runs ++ [r]).map Run.unplaced
        ∧ line'.ended = line.ended := by
  obtain ⟨hk, -, -⟩ := of_unplaced_eq ht
  obtain ⟨-, hend, -⟩ := lexeme_of_unplaced ht
  have hsep : x ≠ .comma → t.isSeparator = false := by
    intro hx
    unfold Token.isSeparator
    rw [hk]
    cases x <;> first | rfl | exact (hx rfl).elim
  unfold sentenceStep
  rw [if_neg (by simp [hend])]
  obtain ⟨l, rfl⟩ | ⟨k, ys, hword, hopens⟩ := runLexemes_cases r
  · cases hr
    obtain ⟨htext, hlit⟩ := isText_of_unplaced ht
    rw [if_neg (by simp [hsep]), if_pos htext]
    refine .done ⟨?_, rfl⟩
    rw [List.map_append, List.map_append]
    exact congrArg (fun l => _ ++ [Run.text l]) hlit
  · cases hword.symm.trans hr
    have hkeyword := keyword_of_unplaced ht
    rw [if_neg (by simp [hsep]), if_neg (by simp [Token.not_isText_of_keyword hkeyword]), hkeyword]
    show Reads (if k.opensRun = true then _ else _) _ _ _
    rw [if_pos hopens]
    refine Reads.map (reads_runOf hword) fun r' hr' => ⟨?_, rfl⟩
    rw [List.map_append, List.map_append]
    exact congrArg (fun r => _ ++ [r]) hr'

/-- The runs of a line are read one after the other, and then the end of the line. -/
theorem reads_moreRuns {line : SentenceLine} (hline : line.ended = false) (runs : List Run) :
    Reads (repeatWhile line (fun line _ => !line.ended) sentenceStep)
      ((runs.flatMap runLexemes).map (Lexeme.token d) ++ [lineEndAt d]) f
      fun line' => line'.runs.map Run.unplaced = (line.runs ++ runs).map Run.unplaced := by
  induction runs generalizing line with
  | nil =>
    show Reads _ (lineEndAt d :: ([] ++ [])) _ _
    -- the end of the line is a token like the others; it is taken, and then the loop is over
    refine Reads.loop_cons (f := Anything)
      (g := fun line' => line'.runs = line.runs ∧ line'.ended = true)
      (fun t ht => by simp [hline]) (fun t ht => ?_) (fun _ _ _ _ => trivial) fun line' hline' => ?_
    · unfold sentenceStep
      rw [if_pos (isLineEnd_of_unplaced ht)]
      exact .done ⟨rfl, rfl⟩
    · refine .loop_nil (fun rest _ t _ => by simp [hline'.2]) ?_
      rw [hline'.1, List.append_nil]
  | cons r runs ih =>
    obtain ⟨x, xs, hr⟩ := runLexemes_cons r
    rw [List.flatMap_cons, hr, List.cons_append, List.map_cons, List.map_append, List.cons_append,
      List.append_assoc]
    refine Reads.loop_cons (fun t ht => by simp [hline])
      (fun t ht => reads_sentenceStep line hr ht)
      (fun ts rest hts _ => noPage_runs runs ts rest hts) fun line' hline' => ?_
    refine (ih (hline'.2.trans hline)).mono (fun _ h => h) fun line'' hline'' => ?_
    rw [hline'', List.map_append, hline'.1, ← List.map_append, List.append_assoc]
    rfl

/-- A sentence is read run by run up to the end of its line. -/
theorem reads_sentence {s : Sentence} (hne : s.runs ≠ []) {t : Token}
    (ht : t.unplaced = (sentenceTree s).first.token d) :
    Reads (sentenceFrom t) ((sentenceTree s).behind d) f fun s' => s'.unplaced = s.unplaced := by
  obtain ⟨runs, p⟩ := s
  obtain ⟨r, runs, rfl⟩ := List.exists_cons_of_ne_nil hne
  obtain ⟨x, xs, hr⟩ := runLexemes_cons r
  have htree : sentenceTree ⟨r :: runs, p⟩ = .line x (xs ++ runs.flatMap runLexemes) [] := by
    unfold sentenceTree
    rw [List.flatMap_cons, hr]
    rfl
  rw [htree] at ht ⊢
  have hbehind : (Tree.line x (xs ++ runs.flatMap runLexemes) []).behind d
      = xs.map (Lexeme.token d)
        ++ (((runs.flatMap runLexemes).map (Lexeme.token d) ++ [lineEndAt d]) ++ []) := by
    simp [Tree.behind, blockTokens]
  rw [hbehind]
  unfold sentenceFrom
  refine (reads_sentenceStep {} hr ht).bind
    (fun ts rest hts _ => noPage_runs runs ts rest (by simpa using hts)) fun line hline => ?_
  refine (reads_moreRuns hline.2 runs).andThen fun line' hline' => ?_
  have hruns : line'.runs.map Run.unplaced = (r :: runs).map Run.unplaced := by
    rw [hline', List.map_append, hline.1]
    rfl
  -- the first run is still there, so that the sentence is not refused
  have hempty : line'.runs ≠ [] := by
    intro he
    rw [he] at hruns
    cases hruns
  rw [if_neg (by simpa using hempty)]
  exact .pure (congrArg (Sentence.mk · .origin) hruns)

theorem reads_contentSection {opener : Token} {b : ContentBlock} (hopener : opener.indent = d)
    (hb : b.Grammatical) :
    Reads (contentSection b.kind opener)
      (lineEndAt d :: blockTokens (d + 1) (b.sentences.map sentenceTree)) (Follows d)
      fun b' => b'.unplaced = b.unplaced := by
  have hne : b.sentences.map sentenceTree ≠ [] := by simpa using hb.1
  unfold contentSection
  refine reads_opensBlock hne ?_
  refine Reads.map (g := fun ss => ss.map Sentence.unplaced = b.sentences.map Sentence.unplaced)
    (reads_block hopener hne ?_) fun ss hss => congrArg (ContentBlock.mk b.kind · .origin) hss
  rw [← List.append_nil (b.sentences.map sentenceTree)]
  refine reads_lines_map
    (i := fun known ss => ss.map Sentence.unplaced = known.map Sentence.unplaced)
    b.sentences rfl (fun known s rest ss hitems hss t ht => ?_) fun ss hss => reads_lines_nil hss
  have hs : s.runs ≠ [] := hb.2 s (by simp [hitems])
  refine Reads.map (reads_sentence hs ht) fun s' hs' => ?_
  rw [List.map_append, List.map_append, hss]
  exact congrArg (fun s => _ ++ [s]) hs'

/-! ## Images -/

theorem reads_imageSection {opener : Token} {a : Image} (hopener : opener.indent = d)
    (hne : Fielded.declared a ≠ []) :
    Reads (imageSection opener)
      (lineEndAt d :: blockTokens (d + 1) ((Fielded.declared a).map fieldTree)) (Follows d)
      fun a' => a'.unplaced = a.unplaced := by
  unfold imageSection
  refine reads_opensBlock (by simpa using hne) ?_
  exact reads_record (k := id) _ opener.position hopener hne fun _ ha' => ha'

/-! ## Bibliography -/

theorem accepts_author (kind : SourceKind) : kind.accepts .author = true := by
  cases kind <;> rfl

/-- What a source declares stands under keywords that its kind accepts. -/
theorem accepts_declared {s : Source} (hs : s.Grammatical) {x : Keyword × Literal}
    (hx : x ∈ Fielded.declared s) : s.kind.accepts x.1 = true := by
  have hget : s.get x.1 = some x.2 := ((Fields.mem_collect Source.keywords s.get x.1 x.2).mp hx).2
  exact hs.accepted x.1 (by simp [hget])

/-- A source: the line of its authors, if there are any, and then its fields. -/
theorem reads_source {opener : Token} {s : Source} (hopener : opener.indent = d)
    (hs : s.Grammatical) :
    Reads (source s.kind opener) ((sourceTree s).behind d) (Follows d)
      fun s' => s'.unplaced = s.unplaced := by
  have hne : listTrees .author s.authors ++ (Fielded.declared s).map fieldTree ≠ [] := by
    unfold listTrees
    rcases hs.declaresAny with h | h <;> simp [h]
  have hp := proper_declared s
  unfold source
  refine Reads.map (g := fun st => st.1.map Literal.unplaced = s.authors.map Literal.unplaced
      ∧ st.2.unplaced = (Fielded.declared s).unplaced) ?_
    fun st hst => Source.unplaced_ofFields hst.2 hst.1 _
  refine reads_block hopener hne ?_
  rw [← List.append_nil ((Fielded.declared s).map fieldTree)]
  refine reads_lines_list
    (i := fun ls st => st.1.map Literal.unplaced = ls.map Literal.unplaced ∧ st.2 = [])
    ⟨rfl, rfl⟩ (fun hls t hk => ?_) fun st hst => ?_
  -- the authors, which are printed first
  · dsimp only
    rw [memberKeyword_eq _ hk (accepts_author s.kind), done_bind, if_pos rfl]
    exact Reads.map (reads_literalsLine _ hls) fun ls hls => ⟨hls, rfl⟩
  · refine reads_lines_map (i := fun known st =>
      st.1.map Literal.unplaced = s.authors.map Literal.unplaced
        ∧ st.2.unplaced = Fields.unplaced known)
      (Fielded.declared s) ⟨hst.1, by rw [hst.2]⟩
      (fun known x rest st hitems hst t ht => ?_) fun st hst => reads_lines_nil hst
    have hx : x ∈ Fielded.declared s := by
      rw [hitems]
      exact List.mem_append_right known List.mem_cons_self
    have hk : x.1 ∈ Source.keywords := mem_keywords_next hp hitems
    have hauthor : x.1 ≠ .author := by
      intro he
      rw [he] at hk
      exact absurd hk (by decide)
    obtain ⟨authors, fields⟩ := st
    dsimp only
    rw [memberKeyword_eq _ (keyword_of_unplaced ht) (accepts_declared hs hx), done_bind,
      if_neg hauthor]
    exact Reads.assoc (Reads.map (reads_addField t (not_declares_next hp.nodup hitems hst.2) hst.2)
      fun fields' hf' => ⟨hst.1, hf'⟩)

theorem reads_bibliographySection {opener : Token} {sources : List Source}
    (hopener : opener.indent = d) (hne : sources ≠ []) (hs : ∀ s ∈ sources, s.Grammatical) :
    Reads (bibliographySection opener)
      (lineEndAt d :: blockTokens (d + 1) (sources.map sourceTree)) (Follows d)
      fun sources' => sources'.map Source.unplaced = sources.map Source.unplaced := by
  unfold bibliographySection
  refine reads_block hopener (by simpa using hne) ?_
  rw [← List.append_nil (sources.map sourceTree)]
  refine reads_lines_map (i := fun known ss => ss.map Source.unplaced = known.map Source.unplaced)
    sources rfl (fun known s rest ss hitems hss t ht => ?_) fun ss hss => reads_lines_nil hss
  have hkind : SourceKind.ofKeyword? s.kind.keyword = some s.kind := by
    cases s.kind <;> rfl
  rw [memberKeyword_eq _ (keyword_of_unplaced ht) (by rw [hkind]; rfl), done_bind, hkind]
  refine Reads.map (reads_source (lexeme_of_unplaced ht).2.2 (hs s (by simp [hitems]))) ?_
  intro s' hs'
  rw [List.map_append, List.map_append, hss]
  exact congrArg (fun s => _ ++ [s]) hs'

end Manuscript.Grammar
