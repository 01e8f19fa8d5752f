import Manuscript.Grammar.Content
import Manuscript.Proofs.Reordering.Settings

/-!
# Reordered sections of content

Sentences, images and the bibliography are read again from another form of their section. The fields
of an image and of a source may change places; sentences and sources are lists, and may not.

* `RereadsLine.repeatUntil`: a loop that is over at the end of the line, which it takes itself.
* `rereads_contentSection`: sentences as they stand.
* `rereads_source`, `rereads_bibliographySection`: the fields of the sources in any order.
-/

namespace Manuscript

open Canonical

namespace Grammar

open Production

variable {α β σ : Type} {m m' : Passage} {d : Nat}

/-! ## Sentences -/

/-- A loop that was ended takes nothing more. -/
theorem run_repeatUntil_ended {ended : σ → Bool} {body : σ → Token → Production σ} {s : σ}
    (h : ended s = true) (ts : List Token) (b : Bool) (q : Position) :
    (repeatWhile s (fun s _ => !ended s) body).run (.before ts b q) = (.ok s, .before ts b q) := by
  cases ts with
  | nil => rw [run_repeatWhile_nil]
  | cons t ts => rw [run_repeatWhile_cons, h, if_neg (by simp)]

/-- A loop whose body knows the end of the line when it takes it, and then ends the loop. -/
theorem RereadsLine.repeatUntil {same : σ → σ → Prop} {ended : σ → Bool}
    {body : σ → Token → Production σ}
    (hended : ∀ s s', same s s' → ended s' = ended s)
    (hstop : ∀ s s' t t', same s s' → t'.unplaced = t.unplaced → t.isLineEnd = true →
      ∃ r r', body s t = done r ∧ body s' t' = done r' ∧ same r r' ∧ ended r = true)
    (hbody : ∀ s s' t t', same s s' → t'.unplaced = t.unplaced → t.isLineEnd = false →
      ended s = false → Rereads (body s t) (body s' t') fun r r' => same r r' ∧ ended r = false)
    {s s' : σ} (hs : same s s') (hopen : ended s = false) :
    RereadsLine (repeatWhile s (fun s _ => !ended s) body)
      (repeatWhile s' (fun s _ => !ended s) body) same := by
  intro ts rest b q a us b' q' hts hr
  -- the body may take any number of tokens, so the induction is on how many are left of the line
  induction hn : ts.length using Nat.strongRecOn generalizing s s' ts b q with
  | _ n ih =>
    obtain ⟨t, ts, rfl⟩ := List.exists_cons_of_ne_nil hts.ne_nil
    have hopen' : ended s' = false := (hended s s' hs).trans hopen
    have hgo : (!ended s) = true := by
      rw [hopen]
      rfl
    rw [List.cons_append] at hr
    obtain ⟨s₁, vs, b₁, q₁, hbodyrun, hr⟩ := of_run_repeatWhile_cons hgo hr
    by_cases ht : t.isLineEnd = true
    · obtain rfl := hts.eq_stop ht
      obtain ⟨r, -, hr₁, -, -, hr₂⟩ := hstop s s' t t hs rfl ht
      rw [hr₁] at hbodyrun
      cases hbodyrun
      rw [run_repeatUntil_ended hr₂] at hr
      cases hr
      refine ⟨rfl, ?_⟩
      intro vs rest' c p hvs _
      obtain ⟨v, ws, rfl, hv, hws⟩ := List.map_eq_cons_iff.mp hvs
      obtain rfl := List.map_eq_nil_iff.mp hws
      obtain ⟨r₁, r₁', h₁, h₁', hsame, -⟩ := hstop s s' t v hs hv ht
      obtain rfl : a = r₁ := by
        rw [hr₁] at h₁
        cases h₁
        rfl
      refine ⟨r₁', v.isLineEnd, v.position, ?_, hsame⟩
      rw [List.cons_append, run_repeatWhile_cons, hopen', if_pos (by rfl), h₁']
      exact run_repeatUntil_ended ((hended a r₁' hsame).trans hr₂) rest' _ _
    · have hplain : t.isLineEnd = false := by simpa using ht
      have hrest := hts.tail hplain
      have hfirst (t' : Token) (ht' : t'.unplaced = t.unplaced) :=
        hbody s s' t t' hs ht' hplain hopen ts rest _ _ s₁ vs b₁ q₁ hrest hbodyrun
      obtain ⟨done, mid, rfl, hmidrest, rfl, hreads⟩ := hfirst t rfl
      have hlength : mid.length < n := by
        rw [← hn, List.length_cons, List.length_append]
        omega
      have hnext (s₂ : σ) (hs₂ : same s₁ s₂ ∧ ended s₁ = false) :=
        ih mid.length hlength hs₂.1 hs₂.2 mid b₁ q₁ hmidrest hr rfl
      obtain ⟨s₂, _, _, _, hs₂⟩ := hreads done mid t.isLineEnd t.position rfl rfl
      refine ⟨(hnext s₂ hs₂).1, ?_⟩
      rw [List.map_cons, List.map_append]
      refine Reads.loop_cons (f := BeginsLike mid) (g := fun r => same s₁ r ∧ ended s₁ = false)
        (fun _ _ => by rw [hopen']; rfl) (fun t' ht' => ?_) (fun vs rest' hvs _ => ?_)
        fun s₃ hs₃ => (hnext s₃ hs₃).2
      · obtain ⟨done', mid', heq, -, hus, hreads'⟩ := hfirst t' ht'
        obtain rfl : mid = mid' := List.append_cancel_right hus
        obtain rfl : done = done' := List.append_cancel_right heq
        exact hreads'
      · obtain ⟨e, mid, rfl⟩ := List.exists_cons_of_ne_nil hmidrest.ne_nil
        obtain ⟨u, us, rfl, hu, -⟩ := List.map_eq_cons_iff.mp hvs
        exact congrArg some hu

/-- Sentences that were begun are the same up to positions. -/
structure SameLine (line line' : SentenceLine) : Prop where
  runs : line'.runs.map Run.unplaced = line.runs.map Run.unplaced
  ended : line'.ended = line.ended

theorem SameLine.concat {line line' : SentenceLine} {r r' : Run} (h : SameLine line line')
    (hr : r'.unplaced = r.unplaced) :
    SameLine { line with runs := line.runs ++ [r] } { line' with runs := line'.runs ++ [r'] } :=
  ⟨by simp [h.runs, hr], h.ended⟩

theorem rereads_citedPage :
    Rereads citedPage citedPage fun o o' => o'.map Literal.unplaced = o.map Literal.unplaced := by
  unfold citedPage
  refine .ahead (fun t => t.keyword? = some .page) (fun t t' ht hpage => ?_)
    fun t t' ht hpage => ?_
  · have hpage : t.keyword? = some .page := of_decide_eq_true hpage
    refine ⟨Token.not_isLineEnd_of_keyword hpage, _, _, if_pos hpage,
      if_pos ((keyword_eq ht).trans hpage), ?_⟩
    exact (rereads_literal _).map fun l l' hl => congrArg some hl
  · have hpage : ¬ t.keyword? = some .page := of_decide_eq_false hpage
    dsimp only
    rw [if_neg hpage, if_neg (mt (keyword_eq ht).symm.trans hpage)]
    exact .pure rfl

theorem rereads_runOf (k : Keyword) :
    Rereads (runOf k) (runOf k) fun r r' => r'.unplaced = r.unplaced := by
  unfold runOf
  refine .bind (rereads_literal _) fun l l' hl => ?_
  split
  · exact .pure (congrArg Run.emphasise hl)
  · exact .pure (congrArg Run.bold hl)
  · exact .pure (congrArg Run.work hl)
  · exact .pure (congrArg Run.quote hl)
  · exact .pure (congrArg Run.note hl)
  · exact rereads_citedPage.map fun o o' ho => congrArg₂ Run.citation hl ho

/-- A token inside a line adds to a sentence and does not end it. -/
theorem rereads_sentenceStep {line line' : SentenceLine} {t t' : Token} (h : SameLine line line')
    (ht : t'.unplaced = t.unplaced) (hplain : t.isLineEnd = false) (hopen : line.ended = false) :
    Rereads (sentenceStep line t) (sentenceStep line' t') fun r r' =>
      SameLine r r' ∧ r.ended = false := by
  unfold sentenceStep
  rw [isLineEnd_eq ht, isSeparator_eq ht, isText_eq ht, keyword_eq ht, hplain,
    if_neg Bool.false_ne_true, if_neg Bool.false_ne_true]
  split_ifs with hseparator htext
  · exact .done ⟨h, hopen⟩
  · exact .done ⟨h.concat (congrArg Run.text (literal_eq ht)), hopen⟩
  · cases t.keyword? with
    | none => exact .fail
    | some k =>
      dsimp only
      split_ifs with hopens
      · exact (rereads_runOf k).map fun r r' hr => ⟨h.concat hr, hopen⟩
      · exact .fail

/-- The end of a line ends a sentence. -/
theorem sentenceStep_lineEnd (line : SentenceLine) {t : Token} (h : t.isLineEnd = true) :
    sentenceStep line t = done { line with ended := true } := by
  unfold sentenceStep
  exact if_pos h

/-- Sentences are the same up to positions. -/
def SameSentence (s s' : Sentence) : Prop := s'.unplaced = s.unplaced

theorem rereads_sentenceFrom {t t' : Token} (ht : t'.unplaced = t.unplaced)
    (hplain : t.isLineEnd = false) :
    RereadsLine (sentenceFrom t) (sentenceFrom t') SameSentence := by
  have hbegin : SameLine {} {} := ⟨rfl, rfl⟩
  unfold sentenceFrom
  refine .bind (rereads_sentenceStep hbegin ht hplain rfl) fun line line' hline => ?_
  have hloop : RereadsLine (repeatWhile line (fun line _ => !line.ended) sentenceStep)
      (repeatWhile line' (fun line _ => !line.ended) sentenceStep) SameLine := by
    refine RereadsLine.repeatUntil (fun _ _ h => h.ended) (fun s s' u u' hs hu hstop => ?_)
      (fun s s' u u' hs hu hmid hopen => rereads_sentenceStep hs hu hmid hopen) hline.1 hline.2
    have hstop' := (isLineEnd_eq hu).trans hstop
    exact ⟨_, _, sentenceStep_lineEnd s hstop, sentenceStep_lineEnd s' hstop', ⟨hs.runs, rfl⟩, rfl⟩
  refine hloop.settle (fun line => ?_) fun line line' s hline hs => ?_
  · split_ifs
    · exact idle_fail _
    · exact idle_pure _
  · have hempty : line'.runs.isEmpty = line.runs.isEmpty := by
      have hlength := congrArg List.length hline.runs
      rw [List.length_map, List.length_map] at hlength
      rw [Bool.eq_iff_iff, List.isEmpty_iff_length_eq_zero, List.isEmpty_iff_length_eq_zero,
        hlength]
    rw [hempty]
    split_ifs at hs ⊢ with hnone
    cases hs
    exact ⟨_, rfl, congrArg (Sentence.mk · .origin) hline.runs⟩

/-- A sentence does not begin with the end of a line. -/
theorem not_run_sentenceFrom_lineEnd {t : Token} (h : t.isLineEnd = true) {ts : List Token}
    {b : Bool} {q : Position} {s : Sentence} {c : Cursor} :
    (sentenceFrom t).run (.before ts b q) ≠ (.ok s, c) := by
  intro hr
  unfold sentenceFrom at hr
  rw [sentenceStep_lineEnd {} h, done_bind, run_bind,
    run_repeatUntil_ended (rfl : SentenceLine.ended _ = true), andThen_ok] at hr
  cases hr

/-- The first token of a line is taken, and then the others. -/
theorem RereadsLine.first {f f' : Option Token → Production α} {k k' : Token → Production α}
    {same : α → α → Prop} (hf : ∀ t, f (some t) = (skip >>= fun _ => k t))
    (hf' : ∀ t, f' (some t) = (skip >>= fun _ => k' t))
    (hstop : ∀ t ts b q a c, t.isLineEnd = true → (k t).run (.before ts b q) ≠ (.ok a, c))
    (hk : ∀ t t', t'.unplaced = t.unplaced → t.isLineEnd = false → RereadsLine (k t) (k' t') same) :
    RereadsLine (peekAt 0 >>= f) (peekAt 0 >>= f') same := by
  intro ts rest b q a us b' q' hts hr
  obtain ⟨t, ts, rfl⟩ := List.exists_cons_of_ne_nil hts.ne_nil
  rw [run_bind, run_peekAt, andThen_ok, List.cons_append, List.getElem?_cons_zero, hf, run_bind,
    run_skip_cons, andThen_ok] at hr
  have hplain : t.isLineEnd = false := by
    by_contra hstart
    exact hstop t _ _ _ _ _ (by simpa using hstart) hr
  have hagain (t' : Token) (ht' : t'.unplaced = t.unplaced) :=
    hk t t' ht' hplain ts rest _ _ a us b' q' (hts.tail hplain) hr
  refine ⟨(hagain t rfl).1, Reads.ahead fun t' ht' => ⟨k' t', hf' t', (hagain t' ht').2⟩⟩

theorem rereads_contentSection {opener opener' : Token} (kind : ContentKind) (hat : m.At d)
    (ho : opener.indent = d) (ho' : opener'.indent = d) :
    RereadsPassage (contentSection kind opener) (contentSection kind opener') m m
      fun b b' => b'.unplaced = b.unplaced := by
  obtain rfl := hat.depth_eq
  unfold contentSection
  refine .opensBlock (.refl m) ?_ ?_
  · have hblock : RereadsPassage
        (block opener [] fun ss first => sentenceFrom first >>= fun s => pure (ss ++ [s]))
        (block opener' [] fun ss first => sentenceFrom first >>= fun s => pure (ss ++ [s])) m m
        fun ss ss' => ss'.map Sentence.unplaced = ss.map Sentence.unplaced := by
      refine rereads_linesBlock (fun ss ss' t t' hss ht hplain => ?_) hat.members ho ho' rfl
      refine (rereads_sentenceFrom ht hplain).map fun s s' hs => ?_
      unfold SameSentence at hs
      simp [hss, hs]
    exact hblock.map fun ss ss' hss => congrArg (ContentBlock.mk kind · .origin) hss
  · refine RereadsLine.first (fun _ => rfl) (fun _ => rfl) (fun t ts b q a c hstop hr => ?_)
      fun t t' ht hplain => ?_
    · obtain ⟨s, c', hs, -⟩ := of_run_bind hr
      exact not_run_sentenceFrom_lineEnd hstop hs
    · exact (rereads_sentenceFrom ht hplain).map fun s s' hs =>
        congrArg (fun s => ContentBlock.mk kind [s] .origin) hs

/-! ## Images -/

/-- An image is made of values as it is of their texts. -/
theorem map_ofValues (p : Position) (ls : List Literal) :
    (Image.ofValues? p ls).map Image.unplaced
      = Image.ofValues? .origin (ls.map Literal.unplaced) := by
  rcases ls with _ | ⟨a, _ | ⟨b, _ | ⟨c, _ | ⟨e, ls⟩⟩⟩⟩ <;> rfl

theorem rereads_imageSection {opener opener' : Token} (hm : m.Permuted m') (hat : m.At d)
    (ho : opener.indent = d) (ho' : opener'.indent = d) :
    RereadsPassage (imageSection opener) (imageSection opener') m m'
      fun a a' => a'.unplaced = a.unplaced := by
  unfold imageSection
  refine .opensBlock (alike_of_permuted hm) ?_ ?_
  · exact rereads_record id id _ hm hat ho ho' fun _ _ ha => ha
  · refine .bind (rereads_literals _) fun ls ls' hls => ?_
    have hvalues : (Image.ofValues? opener'.position ls').map Image.unplaced
        = (Image.ofValues? opener.position ls).map Image.unplaced := by
      rw [map_ofValues, map_ofValues, hls.texts]
    cases himage : Image.ofValues? opener.position ls with
    | none => exact .fail
    | some a =>
      rw [himage] at hvalues
      obtain ⟨a', ha', hsame⟩ := Option.map_eq_some_iff.mp hvalues
      rw [ha']
      exact rereadsLine_lineEnd.map fun _ _ _ => hsame

/-! ## Bibliography -/

/-- The authors and the fields of a source, in any order. -/
theorem rereads_source {opener opener' : Token} (kind : SourceKind) (hm : m.Permuted m')
    (hat : m.At d) (ho : opener.indent = d) (ho' : opener'.indent = d) :
    RereadsPassage (source kind opener) (source kind opener') m m'
      fun s s' => s'.unplaced = s.unplaced := by
  obtain rfl := hat.depth_eq
  unfold source
  refine (rereads_blockPerm (fun s : List Literal × Fields => listedTexts .author s.1 s.2)
    (R := fun x x' => x' = x) (fun x x' _ hx => ?_) hm.line (List.forall₂_same.mpr fun _ _ => rfl)
    hm.members hat.members (hm.line ▸ (hm.at hat).members) ho ho' rfl).map fun s s' hs => ?_
  · subst hx
    exact fills_listed Prod.fst Prod.snd Prod.mk .author _ (fun _ _ => rfl) (fun _ _ => rfl) _ _ x'
  · obtain ⟨hauthors, hfields⟩ := of_listedTexts hs
    have hget (k : Keyword) (hk : k ∈ Source.keywords) :
        (s'.2.get k).map Literal.unplaced = (s.2.get k).map Literal.unplaced := by
      refine hfields k ?_
      rintro rfl
      exact absurd hk (by decide)
    unfold SameList at hauthors
    simp [Source.keywords] at hget
    simp [Source.unplaced, Source.ofFields, hget, hauthors]

/-- The sources of a bibliography, each with its fields in any order. -/
theorem rereads_bibliographySection {opener opener' : Token} (hm : m.SourcesPermuted m')
    (hat : m.At d) (ho : opener.indent = d) (ho' : opener'.indent = d) :
    RereadsPassage (bibliographySection opener) (bibliographySection opener') m m'
      fun ss ss' => ss'.map Source.unplaced = ss.map Source.unplaced := by
  have hat' := hm.at hat
  obtain rfl := hat.depth_eq
  unfold bibliographySection
  refine rereads_block (fun ss ss' t t' x x' hx hxx' hss ht ht' => ?_)
    (fun x x' hx => alike_of_permuted hx) hm.line hm.members hat.members
    hat'.members ho ho' rfl
  refine .memberKeyword (ht'.trans ht.symm) fun k _ _ => ?_
  cases SourceKind.ofKeyword? k with
  | none => exact .fail
  | some kind =>
    refine (rereads_source kind hxx' hx (hx.indent_eq ht) (hx.indent_eq ht')).map fun s s' hs => ?_
    simp [hss, hs]

end Grammar

end Manuscript
