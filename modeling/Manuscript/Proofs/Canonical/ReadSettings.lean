import Manuscript.Grammar.Settings
import Manuscript.Proofs.Canonical.Read
import Manuscript.Proofs.Grammar.Ledger
import Manuscript.Proofs.Specification.Grammatical

/-!
# Reading printed sections about the document

The title, the people, the publication and the style of the canonical form are read as what they
were printed from, up to positions.

* `reads_styleLines`: a style is read setting by setting.
-/

namespace Manuscript.Grammar

open Canonical Production

variable {α σ : Type} {d : Nat} {f : List Token → Prop}

/-! ## Title -/

/-- A fragment of a title. -/
theorem reads_fragment (x : TitleFragment) :
    Reads fragment ((fragmentLexemes x).map (Lexeme.token d)) f
      fun x' => x'.unplaced = x.unplaced := by
  unfold fragment
  cases x with
  | plain text =>
    refine .ahead fun t ht => ⟨fragmentFrom t, ?_, ?_⟩
    · obtain ⟨htext, -⟩ := isText_of_unplaced ht
      exact if_pos (by simp [beginsFragment, htext])
    · obtain ⟨htext, hlit⟩ := isText_of_unplaced ht
      unfold fragmentFrom
      rw [if_pos htext]
      exact .done (congrArg TitleFragment.plain hlit)
  | work title =>
    refine .ahead fun t ht => ⟨fragmentFrom t, ?_, ?_⟩
    · exact if_pos (by simp [beginsFragment, keyword_of_unplaced ht])
    · have hk := keyword_of_unplaced ht
      unfold fragmentFrom
      rw [if_neg (by simp [Token.not_isText_of_keyword hk]), if_pos hk]
      exact Reads.map (reads_literal _ title) fun l hl => congrArg TitleFragment.work hl

theorem reads_moreFragments (known xs : List TitleFragment) :
    Reads (moreFragments known)
      (xs.flatMap fun x => Lexeme.comma.token d :: (fragmentLexemes x).map (Lexeme.token d))
      NoSeparator
      fun xs' => xs'.map TitleFragment.unplaced = (known ++ xs).map TitleFragment.unplaced := by
  unfold moreFragments
  induction xs generalizing known with
  | nil => exact .loop_nil (fun rest hrest => hrest) (by rw [List.append_nil])
  | cons x xs ih =>
    rw [List.flatMap_cons, List.cons_append]
    refine Reads.loop_cons (f := Anything)
      (g := fun xs' => xs'.map TitleFragment.unplaced = (known ++ [x]).map TitleFragment.unplaced)
      (fun t ht => isSeparator_of_unplaced ht) (fun t ht => ?_) (fun _ _ _ _ => trivial)
      fun known' hknown' => ?_
    · refine Reads.map (reads_fragment x) fun x' hx' => ?_
      simp [hx']
    · refine (ih known').mono (fun _ h => h) fun xs' hxs' => ?_
      rw [hxs', List.map_append, hknown']
      simp

theorem reads_titleSection (opener : Token) {xs : List TitleFragment} (hne : xs ≠ []) :
    Reads (titleSection opener)
      ((separated (xs.map fragmentLexemes)).map (Lexeme.token d) ++ [lineEndAt d]) f
      fun xs' => xs'.map TitleFragment.unplaced = xs.map TitleFragment.unplaced := by
  obtain ⟨x, xs, rfl⟩ := List.exists_cons_of_ne_nil hne
  have hline : Reads (fragment >>= fun x => moreFragments [x] >>= fun xs =>
      lineEnd >>= fun _ => pure xs)
      ((separated ((x :: xs).map fragmentLexemes)).map (Lexeme.token d) ++ [lineEndAt d]) f
      fun xs' => xs'.map TitleFragment.unplaced = (x :: xs).map TitleFragment.unplaced := by
    rw [List.map_cons, separated, List.map_append, List.flatMap_map, List.map_flatMap,
      List.append_assoc]
    refine (reads_fragment x).andThen fun x' hx' => ?_
    refine (reads_moreFragments [x'] xs).bind
      (fun ts rest hts _ => noSeparator_lineEnd ts rest hts) fun xs' hxs' => ?_
    refine Reads.map reads_lineEnd fun _ _ => ?_
    rw [hxs']
    simp [hx']
  have hlexeme : ∃ (y : Lexeme) (es : List Token),
      (separated ((x :: xs).map fragmentLexemes)).map (Lexeme.token d) ++ [lineEndAt d]
        = y.token d :: es := by
    cases x with
    | plain text => exact ⟨_, _, rfl⟩
    | work title => exact ⟨_, _, rfl⟩
  -- the line begins with a lexeme, which is how it differs from a block
  obtain ⟨y, es, hes⟩ := hlexeme
  unfold titleSection
  rw [hes] at hline ⊢
  exact reads_opensBlock_inline hline

/-! ## People and publication -/

theorem reads_peopleSection {opener : Token} {a : Person} (hopener : opener.indent = d)
    (hne : Fielded.declared a ≠ []) :
    Reads (peopleSection opener)
      (lineEndAt d :: blockTokens (d + 1) ((Fielded.declared a).map fieldTree)) (Follows d)
      fun as => as.map Person.unplaced = [a.unplaced] := by
  unfold peopleSection
  refine reads_opensBlock (by simpa using hne) ?_
  exact reads_record (k := fun a => [a]) _ opener.position hopener hne fun a' ha' =>
    congrArg (fun a => [a]) ha'

theorem reads_publicationSection {opener : Token} {a : Publication} (hopener : opener.indent = d)
    (hne : Fielded.declared a ≠ []) :
    Reads (publicationSection opener)
      (lineEndAt d :: blockTokens (d + 1) ((Fielded.declared a).map fieldTree)) (Follows d)
      fun a' => a'.unplaced = a.unplaced :=
  reads_record (k := id) _ opener.position hopener hne fun _ ha' => ha'

/-! ## Style -/

theorem reads_numerationBlock {opener : Token} {b : NumerationBlock} (hopener : opener.indent = d)
    (hb : b.Grammatical) :
    Reads (numerationBlock opener) ((numerationTree b).behind d) (Follows d)
      fun b' => b'.unplaced = b.unplaced := by
  have hne : (Fielded.declared b).map fieldTree ++ listTrees .skip b.skip ≠ [] := by
    unfold listTrees
    rcases hb with hb | hb <;> simp [hb]
  unfold numerationBlock
  refine Reads.map (g := fun s => s.1.unplaced = (Fielded.declared b).unplaced
      ∧ s.2.map Literal.unplaced = b.skip.map Literal.unplaced) ?_ fun s hs => ?_
  · refine reads_block hopener hne ?_
    -- the fields are printed before the list, so that they are read while it is empty
    refine reads_lines_map (i := fun known s => s.1.unplaced = Fields.unplaced known ∧ s.2 = [])
      (Fielded.declared b) ⟨rfl, rfl⟩ (fun known x rest s hitems hs t ht => ?_) fun s hs => ?_
    · have hp := proper_declared b
      have hk : x.1 ∈ NumerationBlock.keywords := mem_keywords_next hp hitems
      have hskip : x.1 ≠ .skip := by
        intro he
        rw [he] at hk
        exact absurd hk (by decide)
      obtain ⟨fields, skip⟩ := s
      dsimp only
      rw [memberKeyword_eq _ (keyword_of_unplaced ht) (by simp [hk]), done_bind, if_neg hskip]
      exact Reads.assoc (Reads.map (reads_addField t (not_declares_next hp.nodup hitems hs.1) hs.1)
        fun fields' hf' => ⟨hf', hs.2⟩)
    · obtain ⟨fields, skip⟩ := s
      obtain ⟨hf, rfl⟩ : fields.unplaced = (Fielded.declared b).unplaced ∧ skip = [] := hs
      rw [← List.append_nil (listTrees .skip b.skip)]
      refine reads_lines_list (i := fun ls s => s.1.unplaced = (Fielded.declared b).unplaced
        ∧ s.2.map Literal.unplaced = ls.map Literal.unplaced)
        ⟨hf, rfl⟩ (fun hls t hk => ?_) fun s hs => reads_lines_nil hs
      dsimp only
      rw [memberKeyword_eq _ hk (by decide), done_bind, if_pos rfl]
      exact Reads.map (reads_literalsLine _ hls) fun ls hls => ⟨hf, hls⟩
  · exact NumerationBlock.unplaced_ofFields hs.1 hs.2 _

theorem reads_partList (opener : Token) {list : PartList} (hne : list.parts ≠ []) :
    Reads (partList opener) ((listLexemes list.parts).map (Lexeme.token d) ++ [lineEndAt d]) f
      fun list' => list'.unplaced = list.unplaced := by
  have hline : Reads (literalsLine "a section name" >>= fun ls =>
      pure (⟨ls, opener.position⟩ : PartList))
      ((listLexemes list.parts).map (Lexeme.token d) ++ [lineEndAt d]) f
      fun list' => list'.unplaced = list.unplaced :=
    Reads.map (reads_literalsLine _ hne) fun ls hls => congrArg (PartList.mk · .origin) hls
  obtain ⟨l, ls, hparts⟩ := List.exists_cons_of_ne_nil hne
  unfold partList
  rw [hparts, map_listLexemes, List.cons_append] at hline ⊢
  exact reads_opensBlock_inline hline

theorem reads_nameOnce {name : Option Literal} (member : Token)
    (hnew : name.map Literal.unplaced = none) (k : Keyword) (l : Literal) :
    Reads (nameOnce name member) ((fieldTree (k, l)).behind d) f
      fun name' => name'.map Literal.unplaced = some l.unplaced := by
  obtain rfl := Option.map_eq_none_iff.mp hnew
  show Reads (literalLine _ >>= fun l' => pure (some l')) _ _ _
  exact Reads.map (reads_literalLine _ l) fun l' hl' => congrArg some hl'

/-- A setting that was not declared before is not refused. -/
theorem once_new {β γ : Type} {setting : Option β} {h : β → γ} (hnew : setting.map h = none)
    (member : Token) (p : Production α) : once setting member p = p := by
  unfold once
  rw [Option.map_eq_none_iff.mp hnew]
  rfl

/-- A record of settings that was not declared before. -/
theorem reads_settings {β γ : Type} [PlacedRecord α] {setting : Option β} {h : β → γ} {a : α}
    {k : α → σ} {g : σ → Prop} {member : Token} (expected : String)
    (hnew : setting.map h = none) (hmember : member.indent = d) (hne : Fielded.declared a ≠ [])
    (hg : ∀ a', PlacedRecord.unplaced a' = PlacedRecord.unplaced a → g (k a')) :
    Reads
      (once setting member (fieldBlock member expected (Fielded.keywords α) >>= fun fields =>
        pure (k (FieldRecord.ofFields fields member.position))))
      (lineEndAt d :: blockTokens (d + 1) ((Fielded.declared a).map fieldTree)) (Follows d) g := by
  rw [once_new hnew]
  exact reads_record expected member.position hmember hne hg

/-- The lines of a style section, one setting after the other: what was read so far is the part of
the style that was printed so far. -/
theorem reads_styleLines {s st : StyleBlock} (hs : s.BlocksFilled)
    (hst : st.unplaced = StyleBlock.unplaced { position := .origin }) :
    Reads (memberLines (d + 1) st styleLine) ((styleTrees s).flatMap (Tree.tokens (d + 1)))
      (Follows d) fun s' => s'.unplaced = s.unplaced := by
  rw [← List.append_nil (styleTrees s)]
  unfold styleTrees
  simp only [List.append_assoc]
  -- each setting is new, because the style read so far has none of those that are printed later
  refine reads_lines_option (i := fun o st => st.unplaced = StyleBlock.unplaced
    { base := o, position := .origin })
    s.base hst (fun l _ t ht => ?_) fun st hst => ?_
  · unfold styleLine
    rw [memberKeyword_eq _ (keyword_of_unplaced ht) rfl]
    refine Reads.map (k := fun name => { st with base := name })
      (reads_nameOnce t (congrArg StyleBlock.base hst) .of l) fun name hname => ?_
    exact congrArg₂ (fun u x => { u with base := x }) hst hname
  refine reads_lines_option (i := fun o st => st.unplaced = StyleBlock.unplaced
    { base := s.base, font := o, position := .origin })
    s.font hst (fun b hb t ht => ?_) fun st hst => ?_
  · unfold styleLine
    rw [memberKeyword_eq _ (keyword_of_unplaced ht) rfl]
    refine reads_settings (h := FontBlock.unplaced) (a := b)
      (k := fun b => { st with font := some b }) _
      (congrArg StyleBlock.font hst) (lexeme_of_unplaced ht).2.2 (hs.font b hb) fun b' hb' => ?_
    exact congrArg₂ (fun u x => { u with font := some x }) hst hb'
  refine reads_lines_option (i := fun o st => st.unplaced = StyleBlock.unplaced
    { base := s.base, font := s.font, layout := o, position := .origin })
    s.layout hst (fun b hb t ht => ?_) fun st hst => ?_
  · unfold styleLine
    rw [memberKeyword_eq _ (keyword_of_unplaced ht) rfl]
    refine reads_settings (h := LayoutBlock.unplaced) (a := b)
      (k := fun b => { st with layout := some b }) _
      (congrArg StyleBlock.layout hst) (lexeme_of_unplaced ht).2.2 (hs.layout b hb) fun b' hb' => ?_
    exact congrArg₂ (fun u x => { u with layout := some x }) hst hb'
  refine reads_lines_option (i := fun o st => st.unplaced = StyleBlock.unplaced
    { base := s.base, font := s.font, layout := s.layout, paragraph := o, position := .origin })
    s.paragraph hst (fun b hb t ht => ?_) fun st hst => ?_
  · unfold styleLine
    rw [memberKeyword_eq _ (keyword_of_unplaced ht) rfl]
    refine reads_settings (h := ParagraphBlock.unplaced) (a := b)
      (k := fun b => { st with paragraph := some b }) _
      (congrArg StyleBlock.paragraph hst) (lexeme_of_unplaced ht).2.2 (hs.paragraph b hb)
      fun b' hb' => ?_
    exact congrArg₂ (fun u x => { u with paragraph := some x }) hst hb'
  refine reads_lines_option (i := fun o st => st.unplaced = StyleBlock.unplaced
    { base := s.base, font := s.font, layout := s.layout, paragraph := s.paragraph, sentence := o
      position := .origin })
    s.sentence hst (fun b hb t ht => ?_) fun st hst => ?_
  · unfold styleLine
    rw [memberKeyword_eq _ (keyword_of_unplaced ht) rfl]
    refine reads_settings (h := SentenceBlock.unplaced) (a := b)
      (k := fun b => { st with sentence := some b }) _
      (congrArg StyleBlock.sentence hst) (lexeme_of_unplaced ht).2.2 (hs.sentence b hb)
      fun b' hb' => ?_
    exact congrArg₂ (fun u x => { u with sentence := some x }) hst hb'
  refine reads_lines_option (i := fun o st => st.unplaced = StyleBlock.unplaced
    { base := s.base, font := s.font, layout := s.layout, paragraph := s.paragraph
      sentence := s.sentence, numeration := o, position := .origin })
    s.numeration hst (fun b hb t ht => ?_) fun st hst => ?_
  · unfold styleLine
    rw [memberKeyword_eq _ (keyword_of_unplaced ht) rfl]
    show Reads (once _ t (numerationBlock t >>= fun b =>
      pure { st with numeration := some b })) _ _ _
    rw [once_new (congrArg StyleBlock.numeration hst)]
    refine Reads.map (reads_numerationBlock (lexeme_of_unplaced ht).2.2 (hs.numeration b hb))
      fun b' hb' => ?_
    exact congrArg₂ (fun u x => { u with numeration := some x }) hst hb'
  refine reads_lines_option (i := fun o st => st.unplaced = StyleBlock.unplaced
    { base := s.base, font := s.font, layout := s.layout, paragraph := s.paragraph
      sentence := s.sentence, numeration := s.numeration, parts := o, position := .origin })
    s.parts hst (fun l hl t ht => ?_) fun st hst => ?_
  · unfold styleLine
    rw [memberKeyword_eq _ (keyword_of_unplaced ht) rfl]
    show Reads (once _ t (partList t >>= fun l => pure { st with parts := some l })) _ _ _
    rw [once_new (congrArg StyleBlock.parts hst)]
    refine Reads.map (reads_partList t (hs.parts l hl)) fun l' hl' => ?_
    exact congrArg₂ (fun u x => { u with parts := some x }) hst hl'
  refine reads_lines_option (i := fun o st => st.unplaced = StyleBlock.unplaced
    { base := s.base, font := s.font, layout := s.layout, paragraph := s.paragraph
      sentence := s.sentence, numeration := s.numeration, parts := s.parts, citation := o
      position := .origin })
    s.citation hst (fun l _ t ht => ?_) fun st hst => ?_
  · unfold styleLine
    rw [memberKeyword_eq _ (keyword_of_unplaced ht) rfl]
    refine Reads.map (k := fun name => { st with citation := name })
      (reads_nameOnce t (congrArg StyleBlock.citation hst) .citation l) fun name hname => ?_
    exact congrArg₂ (fun u x => { u with citation := x }) hst hname
  refine reads_lines_option (i := fun o st => st.unplaced = StyleBlock.unplaced
    { base := s.base, font := s.font, layout := s.layout, paragraph := s.paragraph
      sentence := s.sentence, numeration := s.numeration, parts := s.parts
      citation := s.citation, endnotes := o, position := .origin })
    s.endnotes hst (fun b hb t ht => ?_) fun st hst => ?_
  · unfold styleLine
    rw [memberKeyword_eq _ (keyword_of_unplaced ht) rfl]
    refine reads_settings (h := EndnotesBlock.unplaced) (a := b)
      (k := fun b => { st with endnotes := some b }) _
      (congrArg StyleBlock.endnotes hst) (lexeme_of_unplaced ht).2.2 (hs.endnotes b hb)
      fun b' hb' => ?_
    exact congrArg₂ (fun u x => { u with endnotes := some x }) hst hb'
  exact reads_lines_nil hst

theorem styleTrees_ne_nil {s : StyleBlock} (hs : s.declaresAny = true) : styleTrees s ≠ [] := by
  intro he
  unfold styleTrees at he
  simp only [List.append_eq_nil_iff, Option.toList_eq_nil_iff, Option.map_eq_none_iff] at he
  simp [StyleBlock.declaresAny, he] at hs

theorem reads_styleSection {opener : Token} {s : StyleBlock} (hopener : opener.indent = d)
    (hs : s.Grammatical) :
    Reads (styleSection opener) (lineEndAt d :: blockTokens (d + 1) (styleTrees s)) (Follows d)
      fun s' => s'.unplaced = s.unplaced := by
  have hne := styleTrees_ne_nil hs.2
  unfold styleSection
  exact reads_opensBlock hne (reads_block hopener hne (reads_styleLines hs.1 rfl))

end Manuscript.Grammar
