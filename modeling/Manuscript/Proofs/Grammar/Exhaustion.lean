import Manuscript.Proofs.Grammar.Matching
import Manuscript.Proofs.Grammar.Recovery

/-!
# The parser reads everything

A list of tokens is read to its end, whatever the tokens are, and every loop of the parser takes a
token in each round that goes on. The loops of a reading only look at the token that they hand out,
so that it is the sections, the lines and the sentences that have to take it. They all do: the
reading is never stuck, and gives what the parser gives.

* `Matches.block`: a block makes progress if each of its lines does.
* `round_sentence`: so does each round of a sentence, up to the end of its line.
* `same_resynchronize`: so does each round of what is skipped behind a broken section.
* `same_sections`: so does each section, with what is skipped behind it.
* `parse_exhausts`: the parser reads every list of tokens to its end.
-/

namespace Manuscript.Grammar.Ahead

open Production

variable {start : Position} {t : Token} {ts us : List Token} {b : Bool} {q : Position}

/-! ## Blocks -/

/-- No section begins with a token that is no keyword at depth 0. -/
theorem stops_of_not_isTopLevel (h : t.isTopLevel = false) : stops start b t = false := by
  unfold Token.isTopLevel at h
  unfold stops
  rw [Bool.and_assoc b, h, Bool.and_false, Bool.false_and]

/-- What a block looks at in front of a token. -/
theorem nextMember_before (depth : Nat) :
    nextMember depth (.before (t :: ts) b q) =
      if t.isIndent then
        .error (.stopped (.byGrammar
          (.unexpected ("a line at indentation depth " ++ toString depth) t)))
          (.before (t :: ts) b q)
      else if depth ≤ t.indent then .ok (some t) (.before (t :: ts) b q)
      else .ok none (.before (t :: ts) b q) := by
  unfold nextMember
  rw [bind_of_ok shown_before]
  dsimp only [List.getElem?_cons_zero]
  split
  · rfl
  · split
    · rfl
    · rfl

/-- One line of a block, or what ends the block. -/
theorem round_block {σ : Type} {depth : Nat} {member : σ → Token → Reading σ}
    {body : σ → Token → Production σ} (hdepth : depth ≠ 0)
    (h : ∀ s t, Takes start t (member s t) (body s t)) (s : σ) (ts : List Token) (b : Bool)
    (q : Position) :
    Round start id (fun _ _ _ => True) (fun _ t => t.isIndent || decide (depth ≤ t.indent))
      (fun s t => if t.isIndent then
          fail (.unexpected ("a line at indentation depth " ++ toString depth) t) else body s t)
      s ts b q
      ((do
        match ← nextMember depth with
        | some t => return .yield (← member s t)
        | none => return .done s : Reading (ForInStep σ)) (.before ts b q)) := by
  cases ts with
  | nil => exact .ends (by simp)
  | cons t ts =>
    have hnext := @nextMember_before t ts b q depth
    by_cases hi : t.isIndent = true
    · have hs : stops start b t = false :=
        stops_of_not_isTopLevel (Token.not_isTopLevel (by decide) hi)
      rw [if_pos hi] at hnext
      rw [bind_of_error hnext]
      refine .halt (by simp [hi]) ?_ (.behind hs)
      rw [if_pos hi]
      rfl
    · rw [if_neg hi] at hnext
      by_cases hd : depth ≤ t.indent
      · have hs : stops start b t = false := by
          apply stops_of_not_isTopLevel
          unfold Token.isTopLevel
          have hindent : t.indent ≠ 0 := by omega
          simp [hindent]
        rw [if_pos hd] at hnext
        rw [bind_of_ok hnext]
        apply Round.of_same
        · simp [hd]
        · rw [if_neg hi]
          exact h s t ts b q hs
      · rw [if_neg hd] at hnext
        rw [bind_of_ok hnext]
        exact .ends (by simpa [hi] using hd)

/-- A run that only hands on its value. -/
theorem run_bind_done {α : Type} (p : Production α) (c : Cursor) :
    (p >>= done).run c = p.run c := by
  rw [run_bind]
  rcases p.run c with ⟨_ | _, _⟩ <;> rfl

/-- A block matches if each of its lines does, whatever token the line is handed. -/
theorem Matches.block {σ : Type} {opener : Token} {state : σ} {member : σ → Token → Reading σ}
    {body : σ → Token → Production σ} (h : ∀ s t, Takes start t (member s t) (body s t)) :
    Matches start (block opener state member) (Grammar.block opener state body) := by
  intro ts b q
  apply (Same.lift (openBlock opener) _).bind
  intro depth c hrun
  obtain ⟨-, m, us, -, -, -, -, rfl, rfl⟩ := of_run_openBlock hrun
  rw [← run_bind_done]
  apply same_loop id fun _ _ _ => True
  · intro s ts b q _
    exact round_block (by simp) h s ts b q
  · trivial

/-- The keyword of a line is taken, or the token stays where it is. -/
theorem Takes.memberKeyword (member : Token) (expected : String) (accepts : Keyword → Bool) :
    Takes start member (Ahead.memberKeyword member expected accepts)
      (Grammar.memberKeyword member expected accepts) := by
  have refused : Takes start member
      (Ahead.lift (fail (.unexpected expected member)) >>= fun k => do Ahead.advance; return k)
      (fail (.unexpected expected member) : Production Keyword) :=
    fun _ _ _ hs => .error _ (.behind hs)
  unfold Ahead.memberKeyword Grammar.memberKeyword
  split
  · split
    · exact Takes.advance (f := fun _ => pure _) (.pure _)
    · exact refused
  · exact refused

/-- Each field takes its line. -/
theorem matches_fieldBlock (opener : Token) (expected : String) (keywords : List Keyword) :
    Matches start (fieldBlock opener expected keywords)
      (Grammar.fieldBlock opener expected keywords) := by
  apply Matches.block
  intro fields member
  apply (Takes.memberKeyword member expected keywords.contains).bind
  intro k
  exact .lift _

/-! ## Sections about the document -/

/-- A fragment of a title is read from its first token. -/
theorem Takes.fragment : Takes start t (Ahead.lift fragment) (fragmentFrom t) := by
  unfold Grammar.fragment
  apply Takes.lift_peek
  dsimp only
  split
  · exact .lift_skip _
  · rename_i h
    have hf : fragmentFrom t = fail (.unexpected titleFragment t) := by
      unfold beginsFragment at h
      rw [Bool.or_eq_true, beq_iff_eq, not_or] at h
      unfold fragmentFrom
      rw [if_neg h.1, if_neg h.2]
    rw [hf]
    exact .refused titleFragment

theorem matches_titleSection (opener : Token) :
    Matches start (titleSection opener) (Grammar.titleSection opener) := by
  apply (Matches.lift opensBlock).bind
  intro opened
  apply Matches.ite
  · apply Matches.block
    intro fragments first
    exact Takes.fragment.bind fun _ => .lift _
  · exact .lift _

theorem matches_peopleSection (opener : Token) :
    Matches start (peopleSection opener) (Grammar.peopleSection opener) := by
  apply (Matches.lift opensBlock).bind
  intro opened
  apply Matches.ite
  · exact (matches_fieldBlock _ _ _).bind fun _ => .pure _
  · exact .lift _

theorem matches_publicationSection (opener : Token) :
    Matches start (publicationSection opener) (Grammar.publicationSection opener) :=
  (matches_fieldBlock _ _ _).bind fun _ => .pure _

theorem matches_numerationBlock (opener : Token) :
    Matches start (numerationBlock opener) (Grammar.numerationBlock opener) := by
  apply Matches.bind
  · apply Matches.block
    intro settings member
    apply (Takes.memberKeyword _ _ _).bind
    intro k
    exact .lift _
  · intro settings
    exact .pure _

/-- A part of an order is read from its first token. -/
theorem Takes.part (expected : String) (f : Literal → Production (List Literal)) :
    Takes start t (Ahead.lift (literal expected) >>= fun l => Ahead.lift (f l))
      (if t.isText then f ⟨t.value, t.position⟩ else fail (.unexpected expected t)) := by
  have first : Takes start t (Ahead.lift (literal expected))
      (if t.isText then done ⟨t.value, t.position⟩ else fail (.unexpected expected t)) := by
    unfold Grammar.literal
    apply Takes.lift_peek
    dsimp only
    split
    · exact .lift_skip _
    · exact .refused expected
  have both := first.bind fun l => Matches.lift (f l)
  by_cases ht : t.isText = true
  · rw [if_pos ht] at both ⊢
    exact both
  · rw [if_neg ht] at both ⊢
    exact both

theorem matches_partList (opener : Token) :
    Matches start (partList opener) (Grammar.partList opener) := by
  apply (Matches.lift opensBlock).bind
  intro opened
  apply Matches.ite
  · apply Matches.bind
    · apply Matches.block
      intro parts first
      exact .part _ _
    · intro parts
      exact .pure _
  · exact .lift _

theorem Matches.once {α β : Type} (declared : Option α) (member : Token) {r : Reading β}
    {p : Production β} (h : Matches start r p) :
    Matches start (once declared member r) (Grammar.once declared member p) :=
  .ite (.failed _) h

/-- Each setting takes its line, with the block that it opens. -/
theorem takes_styleLine (style : StyleBlock) (member : Token) :
    Takes start member
      (do styleSetting style member (← memberKeyword member styleMember styleKeywords.contains))
      (Grammar.styleLine style member) := by
  apply (Takes.memberKeyword _ _ _).bind
  intro k
  unfold styleSetting
  cases k with
  | of => exact .lift _
  | citation => exact .lift _
  | font => exact .once _ _ ((matches_fieldBlock _ _ _).bind fun _ => .pure _)
  | layout => exact .once _ _ ((matches_fieldBlock _ _ _).bind fun _ => .pure _)
  | paragraph => exact .once _ _ ((matches_fieldBlock _ _ _).bind fun _ => .pure _)
  | sentence => exact .once _ _ ((matches_fieldBlock _ _ _).bind fun _ => .pure _)
  | numeration => exact .once _ _ ((matches_numerationBlock _).bind fun _ => .pure _)
  | sectionOrder => exact .once _ _ ((matches_partList _).bind fun _ => .pure _)
  | endnotes => exact .once _ _ ((matches_fieldBlock _ _ _).bind fun _ => .pure _)
  | _ => exact .failed _

theorem matches_styleSection (opener : Token) :
    Matches start (styleSection opener) (Grammar.styleSection opener) := by
  apply (Matches.lift opensBlock).bind
  intro opened
  apply Matches.ite
  · exact .block takes_styleLine
  · exact .lift _

/-! ## Sections of content -/

/-- Behind a text no line starts. -/
theorem inLine_of_literal {expected : String} {l : Literal} {c : Cursor}
    (h : (literal expected).run (.before ts b q) = (.ok l, c)) : c.atLineStart = false := by
  obtain ⟨t, us, -, ht, -, rfl⟩ := of_run_literal h
  exact Token.not_isLineEnd (by decide) ht

/-- Behind the page of a citation no line starts, nor where there is none. -/
theorem inLine_of_citedPage {page : Option Literal} {c : Cursor}
    (h : citedPage.run (.before ts false q) = (.ok page, c)) : c.atLineStart = false := by
  unfold citedPage at h
  rw [run_bind, run_peekAt, andThen_ok] at h
  cases ts with
  | nil =>
    cases h
    rfl
  | cons t ts =>
    dsimp only [List.getElem?_cons_zero] at h
    split at h
    · rw [run_bind, run_skip_cons, andThen_ok] at h
      obtain ⟨l, d, hl, hpage⟩ := of_run_bind h
      cases hpage
      exact inLine_of_literal hl
    · cases h
      rfl

/-- Behind a run of a sentence no line starts. -/
theorem inLine_of_runOf {k : Keyword} {run : Run} {c : Cursor}
    (h : (runOf k).run (.before ts b q) = (.ok run, c)) : c.atLineStart = false := by
  unfold runOf at h
  obtain ⟨value, d, hvalue, hrest⟩ := of_run_bind h
  have hline := inLine_of_literal hvalue
  split at hrest
  case h_6 =>
    obtain ⟨page, e, hpage, hrun⟩ := of_run_bind hrest
    obtain ⟨t, us, -, -, -, rfl⟩ := of_run_literal hvalue
    obtain rfl : e = c := congrArg Prod.snd hrun
    have hfalse : t.isLineEnd = false := hline
    rw [hfalse] at hpage
    exact inLine_of_citedPage hpage
  all_goals
    obtain rfl : d = c := congrArg Prod.snd hrest
    exact hline

/-- The sentence goes on, and no section may begin with its next token. -/
def Unended (start : Position) (line : SentenceLine) (b : Bool) (ts : List Token) : Prop :=
  line.ended = false ∧ ∀ t ∈ ts.head?, stops start b t = false

section Keywords

variable {line : SentenceLine}

/-- A keyword is none of the other tokens of a sentence. -/
theorem isKeyword_only (hkind : t.kind = .keyword) :
    t.isLineEnd = false ∧ t.isSeparator = false ∧ t.isText = false := by
  simp [Token.isLineEnd, Token.isSeparator, Token.isText, hkind]

/-- A keyword that a run of a sentence begins with is taken, with the texts of the run. -/
theorem round_run {k : Keyword} (hkind : t.kind = .keyword) (hk : t.keyword? = some k)
    (ho : k.opensRun = true) (hended : line.ended = false) :
    Round start SentenceLine.runs (Unended start) (fun line _ => !line.ended) sentenceStep line
      (t :: ts) b q (sentenceRound line.runs (.before (t :: ts) b q)) := by
  obtain ⟨hl, hc, hx⟩ := isKeyword_only hkind
  have ha : (!line.ended) = true := by rw [hended]; rfl
  have hround : sentenceRound line.runs (.before (t :: ts) b q) =
      (do return ForInStep.yield (line.runs ++ [← lift (runOf k)]) : Reading _)
        (.before ts t.isLineEnd t.position) := by
    unfold sentenceRound
    rw [bind_of_ok shown_before]
    dsimp only [List.getElem?_cons_zero]
    rw [if_neg (by simp [hl]), if_neg (by simp [hc]), if_neg (by simp [hx]), hk]
    dsimp only
    rw [if_pos ho]
    exact bind_of_ok advance_before
  have hstep : sentenceStep line t =
      (do return { line with runs := line.runs ++ [← runOf k] }) := by
    unfold sentenceStep
    simp [hl, hc, hx, hk, ho]
  rcases hr : (runOf k).run (.before ts t.isLineEnd t.position) with ⟨e | run, d⟩
  · rw [hround, bind_of_error (lift_of_error hr)]
    refine .halt ha ?_ (.same d)
    rw [hstep, run_bind, hr]
    rfl
  · obtain ⟨-, us, b', q', hd⟩ := run_listed (runOf k) ts t.isLineEnd t.position
    rw [hr] at hd
    obtain rfl : d = .before us b' q' := hd
    obtain rfl : b' = false := inLine_of_runOf hr
    have hrun : (sentenceStep line t).run (.before ts t.isLineEnd t.position) =
        (.ok (SentenceLine.mk (line.runs ++ [run]) line.ended), .before us false q') := by
      rw [hstep, run_bind_of_ok hr]
      rfl
    rw [hround, bind_of_ok (lift_of_ok hr)]
    show Round _ _ _ _ _ _ _ _ _
      (.ok (.yield (SentenceLine.mk (line.runs ++ [run]) line.ended).runs) (.before us false q'))
    exact .next ha hrun ⟨hended, fun _ _ => rfl⟩

/-- Another keyword is refused where it stands. -/
theorem round_refused (hkind : t.kind = .keyword)
    (hk : ∀ k, t.keyword? = some k → k.opensRun = false) (hended : line.ended = false)
    (hs : stops start b t = false) :
    Round start SentenceLine.runs (Unended start) (fun line _ => !line.ended) sentenceStep line
      (t :: ts) b q (sentenceRound line.runs (.before (t :: ts) b q)) := by
  obtain ⟨hl, hc, hx⟩ := isKeyword_only hkind
  have ha : (!line.ended) = true := by rw [hended]; rfl
  have hround : sentenceRound line.runs (.before (t :: ts) b q) =
      failed (.unexpected sentenceContent t) (.before (t :: ts) b q) := by
    unfold sentenceRound
    rw [bind_of_ok shown_before]
    cases hw : t.keyword? with
    | none => simp [hl, hc, hx, hw]
    | some k => simp [hl, hc, hx, hw, hk k hw]
  have hstep : sentenceStep line t = fail (.unexpected sentenceContent t) := by
    unfold sentenceStep
    cases hw : t.keyword? with
    | none => simp [hl, hc, hx]
    | some k => simp [hl, hc, hx, hk k hw]
  rw [hround]
  exact .halt ha (by rw [hstep]; rfl) (.behind hs)

end Keywords

/-- One token of a sentence, with what belongs to it. -/
theorem round_sentence {line : SentenceLine} (h : Unended start line b ts) :
    Round start SentenceLine.runs (Unended start) (fun line _ => !line.ended) sentenceStep line
      ts b q (sentenceRound line.runs (.before ts b q)) := by
  obtain ⟨hended, hstops⟩ := h
  cases ts with
  | nil => exact .ends (by simp)
  | cons t ts =>
    have ha : (!line.ended) = true := by rw [hended]; rfl
    have hs : stops start b t = false := hstops t rfl
    obtain ⟨kind, value, p, depth⟩ := t
    cases kind with
    | lineEnd =>
      show Round _ _ _ _ _ _ _ _ _
        (.ok (.done (SentenceLine.mk line.runs true).runs) (.before ts true p))
      exact .last ha rfl fun _ => rfl
    | separator =>
      show Round _ _ _ _ _ _ _ _ _ (.ok (.yield line.runs) (.before ts false p))
      exact .next ha rfl ⟨hended, fun _ _ => rfl⟩
    | text =>
      show Round _ _ _ _ _ _ _ _ _
        (.ok (.yield (SentenceLine.mk (line.runs ++ [.text ⟨value, p⟩]) line.ended).runs)
          (.before ts false p))
      exact .next ha rfl ⟨hended, fun _ _ => rfl⟩
    | indent => exact .halt ha rfl (.behind hs)
    | keyword =>
      cases hk : (Token.mk .keyword value p depth).keyword? with
      | none => exact round_refused rfl (by simp [hk]) hended hs
      | some k =>
        by_cases ho : k.opensRun = true
        · exact round_run rfl hk ho hended
        · exact round_refused rfl (by simpa [hk] using ho) hended hs

/-- A sentence is read from its first token. -/
theorem takes_sentenceLine : Takes start t (sentenceLine t) (sentenceFrom t) := by
  intro ts b q hs
  -- the first token is taken by the loop itself
  have hfirst : (sentenceFrom t).run (.before ts t.isLineEnd t.position) =
      ((do return (← repeatWhile {} (fun line _ => !line.ended) sentenceStep).runs) >>= fun runs =>
        if runs.isEmpty then fail (.unexpected sentenceContent t)
        else return ⟨runs, t.position⟩ : Production Sentence).run (.before (t :: ts) b q) := by
    have ha : (!({} : SentenceLine).ended) = true := rfl
    unfold sentenceFrom
    rw [run_bind, run_bind, run_bind, run_repeatWhile_cons, if_pos ha, andThen_andThen,
      andThen_andThen]
    congr 1
    funext line c
    rw [run_bind]
    rfl
  rw [hfirst]
  apply Same.bind_matches
  · have hunended : Unended start {} b (t :: ts) := ⟨rfl, by simpa using hs⟩
    exact same_loop SentenceLine.runs (Unended start) (fun _ _ _ _ => round_sentence) {} (t :: ts)
      b q hunended
  · intro runs
    exact .ite (.failed _) (.pure _)

/-- On the line of the keyword, no section begins with the first token of a sentence. -/
theorem same_contentSection (kind : ContentKind) (opener : Token) (ts : List Token)
    (q : Position) :
    Same start (contentSection kind opener (.before ts false q))
      ((Grammar.contentSection kind opener).run (.before ts false q)) := by
  apply (Same.lift opensBlock _).bind
  intro opened c hrun
  rw [run_opensBlock] at hrun
  cases hrun
  cases opens ts with
  | true =>
    apply Matches.bind
    · apply Matches.block
      intro sentences first
      exact takes_sentenceLine.bind fun _ => .pure _
    · intro sentences
      exact .pure _
  | false =>
    cases ts with
    | nil => exact .error _ (.same _)
    | cons t ts =>
      have hread : Takes start t (do return ContentBlock.mk kind [← sentenceLine t] opener.position)
          (do return ContentBlock.mk kind [← sentenceFrom t] opener.position) :=
        takes_sentenceLine.bind fun _ => .pure _
      exact hread ts false q rfl

theorem matches_imageSection (opener : Token) :
    Matches start (imageSection opener) (Grammar.imageSection opener) := by
  apply (Matches.lift opensBlock).bind
  intro opened
  apply Matches.ite
  · exact (matches_fieldBlock _ _ _).bind fun _ => .pure _
  · exact .lift _

theorem matches_source (kind : SourceKind) (opener : Token) :
    Matches start (source kind opener) (Grammar.source kind opener) := by
  apply Matches.bind
  · apply Matches.block
    intro entries member
    apply (Takes.memberKeyword _ _ _).bind
    intro k
    exact .lift _
  · intro entries
    exact .pure _

theorem matches_bibliographySection (opener : Token) :
    Matches start (bibliographySection opener) (Grammar.bibliographySection opener) := by
  apply Matches.block
  intro sources member
  apply (Takes.memberKeyword _ _ _).bind
  intro k
  cases SourceKind.ofKeyword? k with
  | some kind => exact (matches_source kind member).bind fun _ => .pure _
  | none => exact .failed _

/-! ## The whole source -/

/-- The rest of a section, on the line of its keyword. -/
theorem same_sectionBody (first : Bool) (k : Keyword) (opener : Token) (ts : List Token)
    (q : Position) :
    Same start (sectionBody first k opener (.before ts false q))
      ((Grammar.sectionBody first k opener).run (.before ts false q)) := by
  unfold sectionBody
  cases k with
  | title => exact (matches_titleSection opener ts false q).bind_matches fun _ => .pure _
  | author => exact (matches_peopleSection opener ts false q).bind_matches fun _ => .pure _
  | assessor => exact (matches_peopleSection opener ts false q).bind_matches fun _ => .pure _
  | publication =>
    exact (matches_publicationSection opener ts false q).bind_matches fun _ => .pure _
  | style => exact (matches_styleSection opener ts false q).bind_matches fun _ => .pure _
  | paragraph => exact (same_contentSection _ opener ts q).bind_matches fun _ => .pure _
  | abstract => exact (same_contentSection _ opener ts q).bind_matches fun _ => .pure _
  | preface => exact (same_contentSection _ opener ts q).bind_matches fun _ => .pure _
  | acknowledgements => exact (same_contentSection _ opener ts q).bind_matches fun _ => .pure _
  | appendix => exact (same_contentSection _ opener ts q).bind_matches fun _ => .pure _
  | bibliography =>
    exact (matches_bibliographySection opener ts false q).bind_matches fun _ => .pure _
  | image => exact (matches_imageSection opener ts false q).bind_matches fun _ => .pure _
  | _ => exact .lift _ _

/-- The section that begins with a token, which may stay where it is if it opens none. -/
theorem same_sectionFrom (seen : List Keyword) (first : Bool) (t : Token) (ts : List Token)
    (b : Bool) (q : Position) :
    Same t.position (sectionFrom seen first t (.before (t :: ts) b q))
      ((Grammar.sectionFrom seen first t).run (.before ts t.isLineEnd t.position)) := by
  unfold sectionFrom Grammar.sectionFrom
  cases hk : sectionKeyword? t with
  | none =>
    have hs : stops t.position b t = false := by simp [stops]
    exact .error _ (.behind hs)
  | some k =>
    have hline : t.isLineEnd = false :=
      Token.not_isLineEnd_of_keyword (Option.filter_eq_some_iff.mp hk).1
    dsimp only
    rw [bind_of_ok advance_before, hline]
    split
    · exact .error _ (.same _)
    · exact same_sectionBody first k t ts t.position

/-- What is skipped behind a broken section, told by where the next one may begin. -/
theorem run_resynchronize_eq (ts : List Token) (b : Bool) (q : Position) :
    (Grammar.resynchronize start).run (.before ts b q) =
      ((fun _ => ()) <$> repeatWhile b (fun b t => !stops start b t) fun _ t =>
        done t.isLineEnd).run (.before ts b q) := rfl

/-- Tokens are skipped up to the next line at which a section may begin. -/
theorem same_resynchronize (start : Position) (ts : List Token) (b : Bool) (q : Position) :
    Same start (resynchronize start (.before ts b q))
      ((Grammar.resynchronize start).run (.before ts b q)) := by
  rw [run_resynchronize_eq]
  apply same_loop (fun _ => ()) fun s b _ => s = b
  · rintro s ts _ q rfl
    cases ts with
    | nil => exact .ends (by simp)
    | cons t ts =>
      have hround : (do
          if stops start (← lift (atLineStart done)) t then return .done ()
          else
            advance
            return .yield () : Reading (ForInStep Unit)) (.before (t :: ts) s q) =
          (if stops start s t then pure (.done ()) else advance >>= fun _ => pure (.yield ()))
            (.before (t :: ts) s q) := rfl
      rw [bind_of_ok shown_before]
      dsimp only [List.getElem?_cons_zero]
      rw [hround]
      by_cases hs : stops start s t = true
      · rw [if_pos hs]
        exact .ends (by simp [hs])
      · rw [if_neg hs, bind_of_ok advance_before]
        exact .next (by simpa using hs) rfl rfl
  · rfl

/-- What is skipped from a token on that no section may begin with is what is skipped behind it. -/
theorem run_resynchronize_of_overtaken {c d : Cursor} (h : Overtaken start c d) :
    (Grammar.resynchronize start).run c = (Grammar.resynchronize start).run d := by
  cases h with
  | same => rfl
  | @behind t ts b q hs =>
    have ha : (!stops start b t) = true := by rw [hs]; rfl
    rw [run_resynchronize_eq, run_resynchronize_eq]
    show (_ >>= _ : Production Unit).run _ = (_ >>= _ : Production Unit).run _
    rw [run_bind, run_bind, run_repeatWhile_cons, if_pos ha]
    rfl

/-- Behind a broken section, reading goes on at the same place. -/
theorem resynchronize_of_overtaken {c : Cursor} (h : Overtaken start c (.before us b q)) :
    ∃ d, resynchronize start c = .ok () d
      ∧ (Grammar.resynchronize start).run (.before us b q) = (.ok (), d) := by
  obtain ⟨vs, b', q', hskip⟩ := run_resynchronize start us b q
  have hlisted : ∃ ts b q, c = .before ts b q := by
    cases h with
    | same => exact ⟨us, b, q, rfl⟩
    | behind hs => exact ⟨_, _, _, rfl⟩
  obtain ⟨ts, b₁, q₁, rfl⟩ := hlisted
  have hsame := same_resynchronize start ts b₁ q₁
  rw [run_resynchronize_of_overtaken h, hskip] at hsame
  exact ⟨.before vs b' q', hsame.eq_of_ok, hskip⟩

theorem outcome_of_ok {α : Type} {r : Reading α} {c d : Cursor} {a : α} (h : r c = .ok a d) :
    outcome r c = .ok (.ok a) d := by
  unfold outcome
  rw [h]

theorem outcome_of_error {α : Type} {r : Reading α} {c d : Cursor} {e : SyntaxError}
    (h : r c = .error (.stopped (.byGrammar e)) d) : outcome r c = .ok (.error e) d := by
  unfold outcome
  rw [h]

/-- A section that was read is recorded, and so is the error of one that is broken, behind which
the reading goes on where the parser does. -/
theorem same_step (progress : Progress) (t : Token) (ts : List Token) (b : Bool) (q : Position) :
    Same start (step progress t (.before (t :: ts) b q))
      ((Grammar.step progress t).run (.before ts t.isLineEnd t.position)) := by
  have hsame := same_sectionFrom progress.seen progress.declarations.isEmpty t ts b q
  obtain ⟨hlexer, us, b', q', hc⟩ := run_listed
    (Grammar.sectionFrom progress.seen progress.declarations.isEmpty t) ts t.isLineEnd t.position
  unfold step Grammar.step Production.outcome
  rw [run_bind]
  unfold run
  generalize hr : sectionFrom progress.seen progress.declarations.isEmpty t
    (.before (t :: ts) b q) = x at hsame
  generalize (Grammar.sectionFrom progress.seen progress.declarations.isEmpty t).run
    (.before ts t.isLineEnd t.position) = y at hsame hlexer hc
  cases hsame with
  | ok d c =>
    rw [bind_of_ok (outcome_of_ok hr)]
    exact .ok _ c
  | @error e c d ho =>
    cases e with
    | byLexer e => exact (hlexer e rfl).elim
    | byGrammar e =>
      obtain rfl : d = .before us b' q' := hc
      obtain ⟨d, hskip, hrun⟩ := resynchronize_of_overtaken ho
      rw [bind_of_ok (outcome_of_error hr)]
      dsimp only
      rw [bind_of_ok hskip]
      show Same start _ ((Grammar.resynchronize t.position >>= _ : Production Progress).run _)
      rw [run_bind_of_ok hrun]
      exact .ok _ d

/-- The loop over the sections, of which each takes at least its first token. -/
theorem same_sections (ts : List Token) (b : Bool) (q : Position) :
    Same start (sections (.before ts b q)) (Grammar.sections.run (.before ts b q)) := by
  unfold Grammar.sections
  rw [← run_bind_done]
  apply same_loop id fun _ _ _ => True
  · intro progress ts b q _
    cases ts with
    | nil => exact .ends (by simp)
    | cons t ts =>
      rw [bind_of_ok shown_before]
      exact .of_same rfl (same_step progress t ts b q)
  · trivial

end Manuscript.Grammar.Ahead

namespace Manuscript

open Grammar

/-- The parser reads every list of tokens to its end, whatever their kinds, values, depths and
positions are: it gives a specification, or errors of which there is at least one, and no token is
left in front of it. The loops over sections, over the lines of blocks and over what is skipped
behind a broken section take a token in every round that goes on: with each of them only looking at
the token that it hands out, nothing gets stuck, and the result is the same. -/
theorem parse_exhausts (ts : List Token) :
    ((∃ spec, (TokenWindow.ofTokens ts).parse.1 = .ok spec)
      ∨ ∃ es, es ≠ [] ∧ (TokenWindow.ofTokens ts).parse.1 = .error (.grammar es))
    ∧ (TokenWindow.ofTokens ts).parse.2.queue = []
    ∧ ∃ c, Ahead.parse { window := .ofTokens ts } = .ok (TokenWindow.ofTokens ts).parse.1 c
      ∧ c.window.queue = [] := by
  obtain ⟨attempts, final, b, q, -, hrun⟩ := run_sections {} ts true ⟨1, 1⟩
  have hsections : sections.run { window := .ofTokens ts } = (.ok final, .before [] b q) := hrun
  have hahead : Ahead.sections { window := .ofTokens ts } = .ok final (.before [] b q) := by
    have hsame := @Ahead.same_sections ⟨1, 1⟩ ts true ⟨1, 1⟩
    rw [show sections.run (.before ts true ⟨1, 1⟩) = _ from hrun] at hsame
    exact hsame.eq_of_ok
  have hresult : (TokenWindow.ofTokens ts).parse =
      (if final.errors.isEmpty then .ok (.ofDeclarations final.declarations)
        else .error (.grammar final.errors), .ofTokens []) := by
    unfold TokenWindow.parse
    rw [hsections]
    dsimp only
    split <;> rfl
  rw [hresult]
  refine ⟨?_, rfl, .before [] b q, ?_, rfl⟩
  · dsimp only
    by_cases he : final.errors.isEmpty = true
    · rw [if_pos he]
      exact .inl ⟨_, rfl⟩
    · rw [if_neg he]
      exact .inr ⟨final.errors, by simpa using he, rfl⟩
  · unfold Ahead.parse
    rw [Ahead.bind_of_ok hahead]
    dsimp only
    split <;> rfl

end Manuscript
