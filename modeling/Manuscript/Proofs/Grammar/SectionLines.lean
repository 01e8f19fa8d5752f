import Manuscript.Grammar.Parse
import Manuscript.Proofs.Grammar.Confined

/-!
# Sections that keep to their lines

Every section of the grammar keeps to its lines: behind its opening keyword it takes no keyword that
starts a line at depth 0, and if it succeeds its last line is over.

* `confined_sectionFrom`: the same for a section of any keyword.
-/

namespace Manuscript.Grammar

open Production

variable {α : Type} {lo hi : Position} {pre : Place}

/-! ## Title -/

theorem confined_fragmentFrom {first : Token} (h : first.position = hi) :
    Confined lo hi anywhere (fragmentFrom first) fun _ => anywhere := by
  unfold fragmentFrom
  by_cases ht : first.isText = true
  · rw [if_pos ht]
    exact .done fun _ _ h => h
  · rw [if_neg ht]
    by_cases hw : first.keyword? = some .work
    · rw [if_pos hw]
      refine (confined_literal _).bind fun l => ?_
      exact .pure fun _ _ _ => trivial
    · rw [if_neg hw]
      exact .fail h

/-- A fragment may begin with a keyword, so that it has to stand inside a line. -/
theorem confined_fragment : Confined lo hi inLine fragment fun _ => anywhere := by
  unfold fragment
  refine .ahead .refuse fun t => ?_
  dsimp only
  by_cases ht : beginsFragment t = true
  · rw [if_pos ht]
    refine .skip (fun b ts hb => ?_) ?_
    · rw [show b = false from hb, Bool.false_and]
    · exact (confined_fragmentFrom rfl).elsewhere
  · rw [if_neg ht]
    exact .refuse

theorem confined_moreFragments (fragments : List TitleFragment) :
    Confined lo hi anywhere (moreFragments fragments) fun _ => anywhere := by
  unfold moreFragments
  refine Confined.mono (.repeatWhile (fun _ => anywhere) ?_ ?_) (fun _ _ h => h)
    fun _ _ _ _ => trivial
  · intro _ b t _ _ ht
    rw [Token.not_isTopLevel (by decide) ht, Bool.and_false]
  · intro fragments _ t _ _ ht
    refine Confined.map ?_ _
    refine confined_fragment.mono (fun b _ hb => ?_) fun _ _ _ h => h
    exact hb.trans (Token.not_isLineEnd (by decide) ht)

/-- The fragments of a line and its end. -/
theorem confined_fragmentsLine {p : Production (List TitleFragment)} {pre : Place}
    (h : Confined lo hi pre p fun _ => anywhere) :
    Confined lo hi pre (do
      let fragments ← p
      lineEnd
      return fragments) fun _ => lineOver := by
  refine h.bind fun fragments => ?_
  exact confined_lineEnd.map _

theorem confined_titleSection (opener : Token) :
    Confined lo hi inLine (titleSection opener) fun _ => lineOver := by
  unfold titleSection
  refine confined_opensBlock.bind fun opens => ?_
  by_cases ho : opens = true
  · rw [if_pos ho]
    refine Confined.mono (.block fun fragments first => ?_) (fun _ _ _ => trivial)
      fun _ _ _ h => h
    refine (confined_fragmentFrom rfl).elsewhere.bind fun f => ?_
    exact confined_fragmentsLine (confined_moreFragments _)
  · rw [if_neg ho]
    refine confined_fragment.bind fun f => ?_
    exact confined_fragmentsLine (confined_moreFragments _)

/-! ## People and publication -/

theorem confined_peopleSection (opener : Token) :
    Confined lo hi anywhere (peopleSection opener) fun _ => lineOver := by
  unfold peopleSection
  refine confined_opensBlock.bind fun opens => ?_
  by_cases ho : opens = true
  · rw [if_pos ho]
    exact (confined_fieldBlock opener _ _).map _
  · rw [if_neg ho]
    exact (confined_literalsLine _).map _

theorem confined_publicationSection (opener : Token) :
    Confined lo hi anywhere (publicationSection opener) fun _ => lineOver := by
  unfold publicationSection
  exact (confined_fieldBlock opener _ _).map _

/-! ## Style -/

theorem Confined.once {β : Type} {declared : Option β} {member : Token} {p : Production α}
    {post : α → Place} (hm : member.position = hi) (h : Confined lo hi pre p post) :
    Confined lo hi pre (once declared member p) post := by
  unfold Grammar.once
  by_cases hd : declared.isSome = true
  · rw [if_pos hd]
    exact .fail hm
  · rw [if_neg hd]
    exact h

theorem confined_nameOnce (declared : Option Literal) {member : Token} (h : member.position = hi) :
    Confined lo hi anywhere (nameOnce declared member) fun _ => lineOver := by
  unfold nameOnce
  refine (confined_literalLine _).bind fun name => ?_
  by_cases hd : declared.isSome = true
  · rw [if_pos hd]
    exact .fail h
  · rw [if_neg hd]
    exact .pure fun _ _ hover => hover

theorem confined_numerationBlock (opener : Token) :
    Confined lo hi anywhere (numerationBlock opener) fun _ => lineOver := by
  unfold numerationBlock
  refine Confined.map ?_ _
  refine .block fun (fields, skip) member => ?_
  refine (confined_memberKeyword rfl _ _).bind fun k => ?_
  by_cases hskip : k = .skip
  · rw [if_pos hskip]
    by_cases hempty : skip.isEmpty = true
    · rw [if_pos hempty]
      exact (confined_literalsLine _).elsewhere.map _
    · rw [if_neg hempty]
      exact .fail rfl
  · rw [if_neg hskip]
    refine (confined_literalLine _).elsewhere.bind fun l => ?_
    exact (confined_addField rfl fields k l).map _

theorem confined_partList (opener : Token) :
    Confined lo hi anywhere (partList opener) fun _ => lineOver := by
  unfold partList
  refine confined_opensBlock.bind fun opens => ?_
  by_cases ho : opens = true
  · rw [if_pos ho]
    refine Confined.map ?_ _
    refine .block fun parts first => ?_
    by_cases ht : first.isText = true
    · rw [if_pos ht]
      exact (confined_moreLiterals _ _).elsewhere.bind fun parts => confined_lineEnd.map _
    · rw [if_neg ht]
      exact .fail rfl
  · rw [if_neg ho]
    exact (confined_literalsLine _).map _

/-- A block of settings that was not declared before. -/
theorem confined_settings {β : Type} {declared : Option β} {member : Token}
    (h : member.position = hi) (expected : String) (keywords : List Keyword)
    (f : Fields → StyleBlock) :
    Confined lo hi anywhere
      (once declared member (fieldBlock member expected keywords >>= fun fields => pure (f fields)))
      fun _ => lineOver :=
  .once h ((confined_fieldBlock member expected keywords).map _)

theorem confined_styleLine (style : StyleBlock) {member : Token} (h : member.position = hi) :
    Confined lo hi anywhere (styleLine style member) fun _ => lineOver := by
  unfold styleLine
  refine (confined_memberKeyword h _ _).bind fun k => ?_
  split
  · exact (confined_nameOnce _ h).map _
  · exact (confined_nameOnce _ h).map _
  · exact confined_settings h _ _ _
  · exact confined_settings h _ _ _
  · exact confined_settings h _ _ _
  · exact confined_settings h _ _ _
  · exact .once h ((confined_numerationBlock member).map _)
  · exact .once h ((confined_partList member).map _)
  · exact confined_settings h _ _ _
  · exact .fail h

theorem confined_styleSection (opener : Token) :
    Confined lo hi anywhere (styleSection opener) fun _ => lineOver := by
  unfold styleSection
  refine confined_opensBlock.bind fun opens => ?_
  by_cases ho : opens = true
  · rw [if_pos ho]
    refine .block fun style member => ?_
    exact (confined_styleLine style rfl).elsewhere
  · rw [if_neg ho]
    exact (confined_literalLine _).map _

/-! ## Sentences -/

/-- The page of a citation begins with a keyword, which stands inside the line. -/
theorem confined_citedPage : Confined lo hi inLine citedPage fun _ => inLine := by
  unfold citedPage
  refine .ahead (.pure fun _ _ h => h.1) fun t => ?_
  dsimp only
  by_cases hp : t.keyword? = some .page
  · rw [if_pos hp]
    refine .skip (fun b ts hb => ?_) ?_
    · rw [show b = false from hb, Bool.false_and]
    · exact (confined_literal _).elsewhere.map _
  · rw [if_neg hp]
    exact .pure fun _ _ h => h.1

theorem confined_runOf (k : Keyword) : Confined lo hi anywhere (runOf k) fun _ => inLine := by
  unfold runOf
  refine (confined_literal _).bind fun l => ?_
  split
  · exact .pure fun _ _ h => h
  · exact .pure fun _ _ h => h
  · exact .pure fun _ _ h => h
  · exact .pure fun _ _ h => h
  · exact .pure fun _ _ h => h
  · exact confined_citedPage.map _

/-- The end of the line was met exactly if the token taken last is one. -/
def endedThere (line : SentenceLine) : Place := fun b _ => b = line.ended

theorem confined_sentenceStep {line : SentenceLine} (hline : line.ended = false) {t : Token}
    (h : t.position = hi) :
    Confined lo hi (fun b _ => b = t.isLineEnd) (sentenceStep line t) endedThere := by
  unfold sentenceStep
  by_cases hend : t.isLineEnd = true
  · rw [if_pos hend]
    exact .done fun b _ hb => hb.trans hend
  · rw [if_neg hend]
    have hopen : ∀ {line' : SentenceLine}, line'.ended = line.ended → ∀ b (ts : List Token),
        b = t.isLineEnd → endedThere line' b ts := by
      intro line' hline' b ts hb
      exact (hb.trans (Bool.eq_false_iff.mpr hend)).trans (hline'.trans hline).symm
    by_cases hsep : t.isSeparator = true
    · rw [if_pos hsep]
      exact .done (hopen rfl)
    · rw [if_neg hsep]
      by_cases ht : t.isText = true
      · rw [if_pos ht]
        exact .done (hopen rfl)
      · rw [if_neg ht]
        cases t.keyword? with
        | none => exact .fail h
        | some k =>
          dsimp only
          by_cases hk : k.opensRun = true
          · rw [if_pos hk]
            refine (confined_runOf k).elsewhere.bind fun r => ?_
            exact .pure fun b _ hb => Eq.trans hb hline.symm
          · rw [if_neg hk]
            exact .fail h

/-- The runs of a sentence go on until the end of the line is met. -/
theorem confined_moreRuns (line : SentenceLine) :
    Confined lo hi (endedThere line)
      (repeatWhile line (fun line _ => !line.ended) sentenceStep) fun _ => lineOver := by
  refine Confined.mono (.repeatWhile endedThere ?_ ?_) (fun _ _ hb => hb) ?_
  · intro line b t _ hb hopen
    have hmid : b = false := Eq.trans hb (by simpa using hopen)
    rw [hmid, Bool.false_and]
  · intro line b t _ _ hopen
    exact confined_sentenceStep (by simpa using hopen) rfl
  · rintro line b ts ⟨hb, hend⟩
    cases ts with
    | nil => exact .inr rfl
    | cons t ts =>
      have hended : line.ended = true := by simpa using hend t rfl
      exact .inl (Eq.trans hb hended)

/-- A sentence reaches to the end of its line. -/
theorem confined_sentenceFrom {first : Token} (h : first.position = hi) :
    Confined lo hi (fun b _ => b = first.isLineEnd) (sentenceFrom first) fun _ => lineOver := by
  unfold sentenceFrom
  refine (confined_sentenceStep rfl h).bind fun line => ?_
  refine (confined_moreRuns line).bind fun line => ?_
  by_cases hempty : line.runs.isEmpty = true
  · rw [if_pos hempty]
    exact .fail h
  · rw [if_neg hempty]
    exact .pure fun _ _ hover => hover

theorem confined_contentSection (kind : ContentKind) (opener : Token) :
    Confined lo hi inLine (contentSection kind opener) fun _ => lineOver := by
  unfold contentSection
  refine confined_opensBlock.bind fun opens => ?_
  by_cases ho : opens = true
  · rw [if_pos ho]
    refine Confined.map ?_ _
    refine Confined.mono (.block fun sentences first => ?_) (fun _ _ _ => trivial)
      fun _ _ _ h => h
    exact (confined_sentenceFrom rfl).map _
  · rw [if_neg ho]
    refine .ahead .refuse fun first => ?_
    refine .skip (fun b ts hb => ?_) ?_
    · rw [show b = false from hb, Bool.false_and]
    · exact (confined_sentenceFrom rfl).map _

/-! ## Images and bibliography -/

theorem confined_imageSection {opener : Token} (h : opener.position = hi) :
    Confined lo hi anywhere (imageSection opener) fun _ => lineOver := by
  unfold imageSection
  refine confined_opensBlock.bind fun opens => ?_
  by_cases ho : opens = true
  · rw [if_pos ho]
    exact (confined_fieldBlock opener _ _).map _
  · rw [if_neg ho]
    refine (confined_literals _).bind fun ls => ?_
    cases Image.ofValues? opener.position ls with
    | none => exact .fail h
    | some image => exact confined_lineEnd.map _

theorem confined_source (kind : SourceKind) (opener : Token) :
    Confined lo hi anywhere (source kind opener) fun _ => lineOver := by
  unfold source
  refine Confined.map ?_ _
  refine .block fun (authors, fields) member => ?_
  refine (confined_memberKeyword rfl _ _).bind fun k => ?_
  by_cases hauthor : k = .author
  · rw [if_pos hauthor]
    by_cases hempty : authors.isEmpty = true
    · rw [if_pos hempty]
      exact (confined_literalsLine _).elsewhere.map _
    · rw [if_neg hempty]
      exact .fail rfl
  · rw [if_neg hauthor]
    refine (confined_literalLine _).elsewhere.bind fun l => ?_
    exact (confined_addField rfl fields k l).map _

theorem confined_bibliographySection (opener : Token) :
    Confined lo hi anywhere (bibliographySection opener) fun _ => lineOver := by
  unfold bibliographySection
  refine .block fun sources member => ?_
  refine (confined_memberKeyword rfl _ _).bind fun k => ?_
  cases SourceKind.ofKeyword? k with
  | none => exact .fail rfl
  | some kind => exact (confined_source kind member).elsewhere.map _

/-! ## Any section -/

theorem confined_sectionBody (first : Bool) (k : Keyword) {opener : Token}
    (h : opener.position = hi) :
    Confined lo hi inLine (sectionBody first k opener) fun _ => lineOver := by
  unfold sectionBody
  split
  · by_cases hf : first = true
    · rw [if_pos hf]
      exact (confined_literalLine _).elsewhere.map _
    · rw [if_neg hf]
      exact .fail h
  · exact (confined_literalLine _).elsewhere.map _
  · exact (confined_titleSection opener).map _
  · exact (confined_peopleSection opener).elsewhere.map _
  · exact (confined_peopleSection opener).elsewhere.map _
  · exact (confined_publicationSection opener).elsewhere.map _
  · exact (confined_styleSection opener).elsewhere.map _
  · exact (confined_literalLine _).elsewhere.map _
  · exact (confined_contentSection _ opener).map _
  · exact (confined_contentSection _ opener).map _
  · exact (confined_contentSection _ opener).map _
  · exact (confined_contentSection _ opener).map _
  · exact (confined_contentSection _ opener).map _
  · exact (confined_bibliographySection opener).elsewhere.map _
  · exact confined_lineEnd.elsewhere.map _
  · exact confined_lineEnd.elsewhere.map _
  · exact (confined_imageSection h).elsewhere.map _
  · exact .fail h

/-- A section keeps to its lines, whatever its opening token is. -/
theorem confined_sectionFrom (seen : List Keyword) (first : Bool) {opener : Token}
    (h : opener.position = hi) :
    Confined lo hi (fun b _ => b = opener.isLineEnd) (sectionFrom seen first opener)
      fun _ => lineOver := by
  unfold sectionFrom
  cases hk : sectionKeyword? opener with
  | none => exact .fail h
  | some k =>
    dsimp only
    by_cases hseen : (!k.isRepeatable && seen.contains k) = true
    · rw [if_pos hseen]
      exact .fail h
    · rw [if_neg hseen]
      refine (confined_sectionBody first k h).mono (fun b _ hb => ?_) fun _ _ _ hover => hover
      -- the opening token is a keyword, so that it ends no line
      have hword : opener.keyword? = some k := (Option.filter_eq_some_iff.mp hk).1
      exact hb.trans (Token.not_isLineEnd_of_keyword hword)

end Manuscript.Grammar
