import Manuscript.Grammar.Parse
import Manuscript.Proofs.Grammar.Ledger
import Manuscript.Proofs.Specification.Grammatical

/-!
# The ledger of sections

Every section of the grammar books the texts that it takes, and what it declares is grammatical.

* `books_sectionFrom`: the same for a section of any keyword.
-/

namespace Manuscript.Grammar

open Production

variable {led : Prop} {α : Type} {held : Multiset Literal}

/-- A look at the next token, which is taken by what follows or left alone. -/
theorem Books.ahead {f : Option Token → Production α} {lits : α → Multiset Literal}
    {good : α → Prop} (hnone : Books led held (f none) lits good)
    (hsome : ∀ t, Books led held (f (some t)) lits good
      ∨ ∃ g, f (some t) = (skip >>= fun _ => g) ∧ Books led (held + texts [t]) g lits good) :
    Books led held (peekAt 0 >>= f) lits good := by
  intro ts b q a us b' q' hled h
  rw [run_bind, run_peekAt, andThen_ok] at h
  cases ts with
  | nil => exact hnone [] b q a us b' q' hled h
  | cons t ts =>
    rcases hsome t with ht | ⟨g, hg, hb⟩
    · exact ht (t :: ts) b q a us b' q' hled h
    · rw [List.getElem?_cons_zero, hg, run_bind, run_skip_cons, andThen_ok] at h
      obtain ⟨h₁, h₂⟩ := hb ts _ _ a us b' q'
        (fun hl => (hled hl).suffix (List.suffix_cons t ts)) h
      refine ⟨?_, h₂⟩
      rw [texts_cons, ← add_assoc, h₁]

/-! ## Title -/

theorem books_fragmentFrom (first : Token) :
    Books led (held + texts [first]) (fragmentFrom first) (fun f => held + {f.literal})
      fun _ => True := by
  unfold fragmentFrom
  split_ifs with ht hw
  · refine .done ?_ trivial
    rw [texts_of_isText ht]
    rfl
  · rw [texts_of_not_isText (Token.not_isText_of_keyword hw), add_zero]
    exact (books_literal _).bind fun l _ => .pure rfl trivial
  · exact .fail

theorem books_fragment :
    Books led held fragment (fun f => held + {f.literal}) fun _ => True := by
  unfold fragment
  refine .ahead books_refuse fun t => ?_
  dsimp only
  split_ifs
  · exact .inr ⟨_, rfl, books_fragmentFrom t⟩
  · exact .inl books_refuse

/-- The literals of some fragments. -/
def fragmentTexts (fragments : List TitleFragment) : Multiset Literal :=
  (fragments.map TitleFragment.literal : List Literal)

theorem fragmentTexts_concat (fragments : List TitleFragment) (f : TitleFragment) :
    fragmentTexts (fragments ++ [f]) = fragmentTexts fragments + {f.literal} := by
  unfold fragmentTexts
  rw [List.map_append, ← Multiset.coe_add]
  rfl

theorem books_moreFragments {fragments : List TitleFragment} (hf : fragments ≠ []) :
    Books led (held + fragmentTexts fragments) (moreFragments fragments)
      (fun fs => held + fragmentTexts fs) fun fs => fs ≠ [] := by
  unfold moreFragments
  refine .repeatWhile rfl hf fun fragments t _ ht => ?_
  rw [texts_of_not_isText (Token.not_isText (by decide) ht), add_zero]
  refine books_fragment.bind fun f _ => .pure ?_ (by simp)
  rw [fragmentTexts_concat, add_assoc]

theorem books_titleSection (opener : Token) :
    Books led held (titleSection opener) (fun fs => held + fragmentTexts fs)
      fun fs => led → fs ≠ [] := by
  unfold titleSection
  refine books_opensBlock.bind fun opens _ => ?_
  split_ifs
  · refine Books.mono (g := fun fs => True ∧ (led → fs ≠ [])) ?_ fun fs h => h.2
    refine .block (add_zero held).symm trivial fun fragments first _ => ?_
    refine (books_fragmentFrom first).bind fun f _ => ?_
    rw [add_assoc, ← fragmentTexts_concat]
    refine (books_moreFragments (by simp)).bind fun fs hfs => ?_
    exact books_lineEnd.bind fun _ _ => .pure rfl ⟨trivial, hfs⟩
  · refine books_fragment.bind fun f _ => ?_
    refine (books_moreFragments (List.cons_ne_nil f [])).bind fun fs hfs => ?_
    exact books_lineEnd.bind fun _ _ => .pure rfl fun _ => hfs

/-! ## People and publication -/

/-- A person of one text declares it as the name. -/
theorem declared_named (l : Literal) : Fielded.declared (Person.named l) = [(.name, l)] := rfl

theorem books_peopleSection (opener : Token) :
    Books led held (peopleSection opener) (fun ps => held + ↑(ps.flatMap Fielded.literals))
      fun ps => led → ps ≠ [] ∧ ∀ p ∈ ps, Fielded.declared p ≠ [] := by
  unfold peopleSection
  refine books_opensBlock.bind fun opens _ => ?_
  split_ifs
  · refine books_record (α := Person) (f := fun p => [p]) opener _ opener.position
      (fun p => ?_) fun p hp hled => ?_
    · rw [List.flatMap_singleton]
    · exact ⟨List.cons_ne_nil p [], by simpa using hp hled⟩
  · refine (books_literalsLine _).bind fun ls hls => .pure ?_ fun _ => ⟨by simpa using hls, ?_⟩
    · rw [List.flatMap_map]
      exact congrArg (fun ls : List Literal => held + ↑ls) (List.flatMap_singleton' ls).symm
    · intro p hp
      obtain ⟨l, -, rfl⟩ := List.mem_map.mp hp
      rw [declared_named]
      exact List.cons_ne_nil _ _

theorem books_publicationSection (opener : Token) :
    Books led held (publicationSection opener) (fun p => held + ↑(Fielded.literals p))
      fun p => led → Fielded.declared p ≠ [] :=
  books_record (f := id) opener _ opener.position (fun _ => rfl) fun _ h => h

/-! ## Style -/

theorem Books.once {β : Type} {declared : Option β} {member : Token} {p : Production α}
    {lits : α → Multiset Literal} {good : α → Prop}
    (h : declared = none → Books led held p lits good) :
    Books led held (once declared member p) lits good := by
  unfold Grammar.once
  cases declared with
  | none => exact h rfl
  | some _ => exact .fail

theorem books_nameOnce (declared : Option Literal) (member : Token) :
    Books led held (nameOnce declared member) (fun o => held + ↑o.toList)
      fun o => declared = none ∧ o.isSome = true := by
  unfold nameOnce
  refine (books_literalLine _).bind fun l _ => ?_
  cases declared with
  | none => exact .pure rfl ⟨rfl, rfl⟩
  | some _ => exact .fail

theorem books_numerationBlock (opener : Token) :
    Books led held (numerationBlock opener) (fun b => held + ↑b.literals)
      fun b => led → b.Grammatical := by
  unfold numerationBlock
  refine Books.bind (Books.block (l := fun s => held + ↑s.1.literals + ↑s.2)
    (g := fun s => s.1.Proper NumerationBlock.keywords)
    (m := fun s => s.1 ≠ [] ∨ s.2 ≠ []) ?_ (Fields.proper_nil _) ?_) ?_
  · exact (add_zero held).symm.trans (add_zero _).symm
  · rintro ⟨fields, skip⟩ member hp
    refine (books_memberKeyword member _ _).bind fun k hk => ?_
    dsimp only at hp ⊢
    split_ifs with hskip hempty
    -- the skipped pages are a list of their own, which is empty until it is declared
    · obtain rfl : skip = [] := by simpa using hempty
      refine (books_literalsLine _).bind fun ls hls => .pure ?_ ⟨hp, .inr hls⟩
      rw [Multiset.coe_nil, add_zero]
    · exact .fail
    · have hmem : k ∈ NumerationBlock.keywords := by simpa [hskip] using hk.2
      refine (books_fieldValue k).bind fun l _ => ?_
      rw [show held + ↑fields.literals + ↑skip + {l} = held + ↑skip + ↑fields.literals + {l} by
        rw [add_right_comm held]]
      refine (books_addField hp member hmem l).bind fun fs hfs => .pure ?_ ⟨hfs.1, .inl hfs.2⟩
      rw [add_right_comm]
  · -- the block sorts its fields, so that the texts are booked up to order
    rintro ⟨fields, skip⟩ ⟨hp, hmade⟩
    dsimp only at hp hmade ⊢
    have hperm := NumerationBlock.declared_perm hp skip opener.position
    refine .pure ?_ fun hled => ?_
    · unfold NumerationBlock.literals Fielded.literals Fields.literals
      rw [← Multiset.coe_add, ← add_assoc, Multiset.coe_eq_coe.mpr (hperm.map Prod.snd)]
      rfl
    · refine (hmade hled).imp_left fun hne he => hne ?_
      rw [he] at hperm
      exact hperm.nil_eq.symm

theorem books_partList (opener : Token) :
    Books led held (partList opener) (fun l => held + ↑l.parts) fun l => led → l.parts ≠ [] := by
  unfold partList
  refine books_opensBlock.bind fun opens _ => ?_
  split_ifs
  · refine Books.bind (Books.block (l := fun ls => held + ↑ls) (g := fun _ => True)
      (m := fun ls => ls ≠ []) (add_zero held).symm trivial fun parts first _ => ?_)
      fun parts hparts => .pure rfl hparts.2
    split_ifs with ht
    · rw [texts_of_isText ht, add_assoc, ← Multiset.coe_singleton, Multiset.coe_add]
      refine (books_moreLiterals _ (by simp)).bind fun ls hls => ?_
      exact books_lineEnd.bind fun _ _ => .pure rfl ⟨trivial, hls⟩
    · exact .fail
  · exact (books_literalsLine _).bind fun ls hls => .pure rfl fun _ => hls

/-- The literals of a style section, setting by setting. -/
theorem coe_literals (s : StyleBlock) :
    (s.literals : Multiset Literal) = ↑s.base.toList + ↑(s.font.toList.flatMap Fielded.literals)
      + ↑(s.layout.toList.flatMap Fielded.literals)
      + ↑(s.paragraph.toList.flatMap Fielded.literals)
      + ↑(s.sentence.toList.flatMap Fielded.literals)
      + ↑(s.numeration.toList.flatMap NumerationBlock.literals)
      + ↑(s.parts.toList.flatMap PartList.parts) + ↑s.citation.toList
      + ↑(s.endnotes.toList.flatMap Fielded.literals) := by
  unfold StyleBlock.literals
  simp only [← Multiset.coe_add]

/-- A setting that was not declared before adds its literals. -/
theorem coe_of_none {β : Type} {o : Option β} (h : o = none) {g : β → List Literal} {b : β} :
    ((some b).toList.flatMap g : Multiset Literal) = ↑(o.toList.flatMap g) + ↑(g b) := by
  rw [h]
  simp

/-- A record of settings that was not declared before. -/
theorem books_settings [FieldRecord α] {style : StyleBlock} {setting : Option α}
    {k : α → StyleBlock} {g : StyleBlock → Prop} {member : Token} (expected : String)
    (hk : setting = none → ∀ a, ((k a).literals : Multiset Literal)
      = ↑style.literals + ↑(Fielded.literals a))
    (hg : ∀ a, (led → Fielded.declared a ≠ []) → g (k a)) :
    Books led (held + ↑style.literals)
      (once setting member (fieldBlock member expected (Fielded.keywords α) >>= fun fields =>
        pure (k (FieldRecord.ofFields fields member.position))))
      (fun s => held + ↑s.literals) g := by
  refine .once fun hnone => books_record member expected member.position (fun a => ?_) hg
  rw [hk hnone a, add_assoc]

theorem books_styleLine (style : StyleBlock) (member : Token) (hs : led → style.BlocksFilled) :
    Books led (held + ↑style.literals + texts [member]) (styleLine style member)
      (fun s => held + ↑s.literals)
      fun s => (led → s.BlocksFilled) ∧ s.declaresAny = true := by
  unfold styleLine
  refine (books_memberKeyword member _ _).bind fun k _ => ?_
  split
  -- the names of the guide and of the guide of citations
  · refine (books_nameOnce _ _).bind fun o ho => .pure ?_ ⟨fun hl => { hs hl with }, ?_⟩
    · rw [coe_literals, coe_literals, ho.1]
      simp only [Option.toList_none, Multiset.coe_nil]
      abel
    · simp [StyleBlock.declaresAny, ho.2]
  · refine (books_nameOnce _ _).bind fun o ho => .pure ?_ ⟨fun hl => { hs hl with }, ?_⟩
    · rw [coe_literals, coe_literals, ho.1]
      simp only [Option.toList_none, Multiset.coe_nil]
      abel
    · simp [StyleBlock.declaresAny, ho.2]
  -- records of settings
  · refine books_settings (k := fun b => { style with font := some b }) _ (fun hnone b => ?_)
      fun b hb => ⟨fun hl => { hs hl with font := ?_ }, by simp [StyleBlock.declaresAny]⟩
    · rw [coe_literals, coe_literals]
      dsimp only
      rw [coe_of_none hnone]
      abel
    · simpa using hb hl
  · refine books_settings (k := fun b => { style with layout := some b }) _ (fun hnone b => ?_)
      fun b hb => ⟨fun hl => { hs hl with layout := ?_ }, by simp [StyleBlock.declaresAny]⟩
    · rw [coe_literals, coe_literals]
      dsimp only
      rw [coe_of_none hnone]
      abel
    · simpa using hb hl
  · refine books_settings (k := fun b => { style with paragraph := some b }) _ (fun hnone b => ?_)
      fun b hb => ⟨fun hl => { hs hl with paragraph := ?_ }, by simp [StyleBlock.declaresAny]⟩
    · rw [coe_literals, coe_literals]
      dsimp only
      rw [coe_of_none hnone]
      abel
    · simpa using hb hl
  · refine books_settings (k := fun b => { style with sentence := some b }) _ (fun hnone b => ?_)
      fun b hb => ⟨fun hl => { hs hl with sentence := ?_ }, by simp [StyleBlock.declaresAny]⟩
    · rw [coe_literals, coe_literals]
      dsimp only
      rw [coe_of_none hnone]
      abel
    · simpa using hb hl
  -- the two settings with a list
  · refine .once fun hnone => (books_numerationBlock member).bind fun b hb =>
      .pure ?_ ⟨fun hl => ?_, ?_⟩
    · rw [coe_literals, coe_literals]
      dsimp only
      rw [coe_of_none hnone]
      abel
    · exact { hs hl with numeration := by simpa using hb hl }
    · simp [StyleBlock.declaresAny]
  · refine .once fun hnone => (books_partList member).bind fun b hb =>
      .pure ?_ ⟨fun hl => ?_, ?_⟩
    · rw [coe_literals, coe_literals]
      dsimp only
      rw [coe_of_none hnone]
      abel
    · exact { hs hl with parts := by simpa using hb hl }
    · simp [StyleBlock.declaresAny]
  · refine books_settings (k := fun b => { style with endnotes := some b }) _ (fun hnone b => ?_)
      fun b hb => ⟨fun hl => { hs hl with endnotes := ?_ }, by simp [StyleBlock.declaresAny]⟩
    · rw [coe_literals, coe_literals]
      dsimp only
      rw [coe_of_none hnone]
      abel
    · simpa using hb hl
  · exact .fail

theorem books_styleSection (opener : Token) :
    Books led held (styleSection opener) (fun s => held + ↑s.literals)
      fun s => led → s.Grammatical := by
  unfold styleSection
  refine books_opensBlock.bind fun opens _ => ?_
  split_ifs
  · refine Books.mono (.block (g := fun s => led → s.BlocksFilled)
      (m := fun s => s.declaresAny = true) ?_ ?_ fun style member hs => ?_)
      fun s hs hled => ⟨hs.1 hled, hs.2 hled⟩
    · exact (add_zero held).symm
    · exact fun _ => StyleBlock.blocksFilled_base none opener.position
    · exact books_styleLine style member hs
  · exact (books_literalLine _).bind fun l _ =>
      .pure rfl fun _ => ⟨StyleBlock.blocksFilled_base (some l) l.position, rfl⟩

/-! ## Sentences -/

theorem books_citedPage :
    Books led held citedPage (fun o => held + ↑o.toList) fun _ => True := by
  unfold citedPage
  refine .ahead (.pure (add_zero held).symm trivial) fun t => ?_
  dsimp only
  split_ifs with hp
  · refine .inr ⟨_, rfl, ?_⟩
    rw [texts_of_not_isText (Token.not_isText_of_keyword hp), add_zero]
    exact (books_literal _).bind fun l _ => .pure rfl trivial
  · exact .inl (.pure (add_zero held).symm trivial)

theorem books_runOf (k : Keyword) :
    Books led held (runOf k) (fun r => held + ↑r.literals) fun _ => True := by
  unfold runOf
  refine (books_literal _).bind fun l _ => ?_
  split
  all_goals try exact .pure rfl trivial
  refine books_citedPage.bind fun page _ => .pure ?_ trivial
  rw [add_assoc, ← Multiset.coe_singleton, Multiset.coe_add]
  rfl

/-- The literals of some runs. -/
def runTexts (runs : List Run) : Multiset Literal := (runs.flatMap Run.literals : List Literal)

theorem runTexts_concat (runs : List Run) (r : Run) :
    runTexts (runs ++ [r]) = runTexts runs + ↑r.literals := by
  unfold runTexts
  rw [List.flatMap_append, ← Multiset.coe_add, List.flatMap_singleton]

theorem books_sentenceStep (line : SentenceLine) (t : Token) :
    Books led (held + runTexts line.runs + texts [t]) (sentenceStep line t)
      (fun line => held + runTexts line.runs) fun _ => True := by
  unfold sentenceStep
  split_ifs with he hs ht
  · refine .done ?_ trivial
    rw [texts_of_not_isText (Token.not_isText (by decide) he), add_zero]
  · refine .done ?_ trivial
    rw [texts_of_not_isText (Token.not_isText (by decide) hs), add_zero]
  · refine .done ?_ trivial
    rw [texts_of_isText ht, runTexts_concat, add_assoc]
    rfl
  · split
    · rename_i k hk
      rw [texts_of_not_isText (Token.not_isText_of_keyword hk), add_zero]
      split_ifs
      · refine (books_runOf k).bind fun r _ => .pure ?_ trivial
        rw [runTexts_concat, add_assoc]
      · exact .fail
    · exact .fail

/-- A sentence holds the texts of its line, and there is one. -/
theorem books_sentenceFrom (first : Token) :
    Books led (held + texts [first]) (sentenceFrom first) (fun s => held + ↑s.literals)
      fun s => s.runs ≠ [] := by
  unfold sentenceFrom
  -- the first token was taken before the loop, so that it is a step of its own
  have hfirst : Books led (held + texts [first]) (sentenceStep {} first)
      (fun line => held + runTexts line.runs) fun _ => True := by
    have hempty : held = held + runTexts ({} : SentenceLine).runs := (add_zero held).symm
    rw [show held + texts [first] = held + runTexts ({} : SentenceLine).runs + texts [first] by
      rw [← hempty]]
    exact books_sentenceStep {} first
  refine hfirst.bind fun line _ => ?_
  refine Books.bind (.repeatWhile rfl trivial fun line t _ _ => books_sentenceStep line t)
    fun line _ => ?_
  split_ifs with he
  · exact .fail
  · exact .pure rfl (by simpa using he)

theorem books_contentSection (kind : ContentKind) (opener : Token) :
    Books led held (contentSection kind opener) (fun b => held + ↑b.literals)
      fun b => b.kind = kind ∧ (led → b.Grammatical) := by
  unfold contentSection
  refine books_opensBlock.bind fun opens _ => ?_
  split_ifs
  · refine Books.bind (Books.block
      (l := fun ss => held + ↑(ss.flatMap Sentence.literals))
      (g := fun ss => ∀ s ∈ ss, s.runs ≠ []) (m := fun ss => ss ≠ []) ?_ (by simp)
      fun sentences first hs => ?_) fun ss hss => ?_
    · exact (add_zero held).symm
    · refine (books_sentenceFrom first).bind fun s hne => .pure ?_ ⟨?_, by simp⟩
      · rw [List.flatMap_append, List.flatMap_singleton, ← Multiset.coe_add, add_assoc]
      · intro a ha
        rcases List.mem_append.mp ha with ha | ha
        · exact hs a ha
        · rw [List.mem_singleton] at ha
          exact ha ▸ hne
    · exact .pure rfl ⟨rfl, fun hled => ⟨hss.2 hled, hss.1⟩⟩
  · refine .ahead books_refuse fun first => .inr ⟨_, rfl, ?_⟩
    refine (books_sentenceFrom first).bind fun s hne => .pure ?_ ⟨rfl, fun _ => ?_⟩
    · unfold ContentBlock.literals
      rw [List.flatMap_singleton]
    · exact ⟨List.cons_ne_nil s [], by simpa using hne⟩

/-! ## Images -/

/-- The image of a list of values has these values, the first of which is its id. -/
theorem declared_ofValues {p : Position} {ls : List Literal} {i : Image}
    (h : Image.ofValues? p ls = some i) :
    Fielded.literals i = ls ∧ Fielded.declared i ≠ [] := by
  unfold Image.ofValues? at h
  split at h
  all_goals cases h
  all_goals exact ⟨rfl, List.cons_ne_nil _ _⟩

theorem books_imageSection (opener : Token) :
    Books led held (imageSection opener) (fun i => held + ↑(Fielded.literals i))
      fun i => led → Fielded.declared i ≠ [] := by
  unfold imageSection
  refine books_opensBlock.bind fun opens _ => ?_
  split_ifs
  · exact books_record (α := Image) (f := id) opener _ opener.position (fun _ => rfl)
      fun _ h => h
  · refine (books_literals _).bind fun ls _ => ?_
    split
    · rename_i i hi
      obtain ⟨hl, hne⟩ := declared_ofValues hi
      refine books_lineEnd.bind fun _ _ => .pure ?_ fun _ => hne
      rw [hl]
    · exact .fail

/-! ## Bibliography -/

/-- A field of a source that some kind accepts takes one value, unless it lists the authors. -/
theorem accepts_keywords {kind : SourceKind} {k : Keyword} (h : kind.accepts k = true)
    (hk : k ≠ .author) : k ∈ Source.keywords := by
  have hall : ∀ kind ∈ SourceKind.all,
      ∀ k ∈ [Keyword.id, .author, .title, .year, .url] ++ kind.ownFields,
        k ≠ .author → k ∈ Source.keywords := by decide
  refine hall kind (by cases kind <;> decide) k ?_ hk
  simpa [SourceKind.accepts, or_assoc] using h

theorem books_source (kind : SourceKind) (opener : Token) :
    Books led held (source kind opener) (fun s => held + ↑s.literals)
      fun s => led → s.Grammatical := by
  unfold source
  refine Books.bind (Books.block (l := fun s => held + ↑s.1 + ↑s.2.literals)
    (g := fun s => s.2.Proper (Source.keywords.filter kind.accepts))
    (m := fun s => s.1 ≠ [] ∨ s.2 ≠ []) ?_ (Fields.proper_nil _) ?_) ?_
  · exact (add_zero held).symm.trans (add_zero _).symm
  · rintro ⟨authors, fields⟩ member hp
    refine (books_memberKeyword member _ _).bind fun k hk => ?_
    dsimp only at hp ⊢
    split_ifs with hauthor hempty
    · obtain rfl : authors = [] := by simpa using hempty
      refine (books_literalsLine _).bind fun ls hls => .pure ?_ ⟨hp, .inl hls⟩
      rw [Multiset.coe_nil, add_zero, add_right_comm]
    · exact .fail
    · have hmem : k ∈ Source.keywords.filter kind.accepts :=
        List.mem_filter.mpr ⟨accepts_keywords hk.2 hauthor, hk.2⟩
      refine (books_fieldValue k).bind fun l _ => ?_
      exact (books_addField hp member hmem l).bind fun fs hfs => .pure rfl ⟨hfs.1, .inr hfs.2⟩
  · rintro ⟨authors, fields⟩ ⟨hp, hmade⟩
    dsimp only at hp hmade ⊢
    have hproper : fields.Proper Source.keywords :=
      ⟨hp.nodup, fun k hk => (List.mem_filter.mp (hp.subset k hk)).1⟩
    have hperm := Source.declared_perm hproper kind authors opener.position
    refine .pure ?_ fun hled => ⟨?_, ?_⟩
    · unfold Source.literals Fielded.literals Fields.literals
      rw [← Multiset.coe_add, ← add_assoc, Multiset.coe_eq_coe.mpr (hperm.map Prod.snd)]
      rfl
    · refine (hmade hled).imp_right fun hne he => hne ?_
      rw [he] at hperm
      exact hperm.nil_eq.symm
    · -- a field stands in the source only if it was read from a line of the block
      intro k hk
      have hkey := Source.mem_keywords hk
      rw [Source.get_ofFields kind authors fields opener.position k hkey] at hk
      exact (List.mem_filter.mp (hp.subset k ((Fields.declares_iff fields k).mp hk))).2

theorem books_bibliographySection (opener : Token) :
    Books led held (bibliographySection opener)
      (fun ss => held + ↑(ss.flatMap Source.literals))
      fun ss => led → ss ≠ [] ∧ ∀ s ∈ ss, s.Grammatical := by
  unfold bibliographySection
  refine Books.mono (.block (g := fun ss => led → ∀ s ∈ ss, s.Grammatical)
    (m := fun ss => ss ≠ []) ?_ (by simp) fun sources member hs => ?_)
    fun ss hss hled => ⟨hss.2 hled, hss.1 hled⟩
  · exact (add_zero held).symm
  · refine (books_memberKeyword member _ _).bind fun k _ => ?_
    split
    · refine (books_source _ member).bind fun s hgram => .pure ?_ ⟨fun hled a ha => ?_, by simp⟩
      · rw [List.flatMap_append, List.flatMap_singleton, ← Multiset.coe_add, add_assoc]
      · rcases List.mem_append.mp ha with ha | ha
        · exact hs hled a ha
        · rw [List.mem_singleton] at ha
          exact ha ▸ hgram hled
    · exact .fail

/-! ## Any section -/

/-- The rest of a section books its texts and declares what its keyword says. -/
theorem books_sectionBody (first : Bool) (k : Keyword) (opener : Token) :
    Books led held (sectionBody first k opener) (fun d => held + ↑d.literals)
      fun d => d.keyword = k ∧ (led → d.Grammatical) := by
  unfold sectionBody
  split
  · split_ifs
    · exact (books_literalLine _).bind fun l _ => .pure rfl ⟨rfl, fun _ => trivial⟩
    · exact .fail
  · exact (books_literalLine _).bind fun l _ => .pure rfl ⟨rfl, fun _ => trivial⟩
  · exact (books_titleSection opener).bind fun fs hfs => .pure rfl ⟨rfl, hfs⟩
  · exact (books_peopleSection opener).bind fun ps hps => .pure rfl ⟨rfl, hps⟩
  · exact (books_peopleSection opener).bind fun ps hps => .pure rfl ⟨rfl, hps⟩
  · exact (books_publicationSection opener).bind fun p hp => .pure rfl ⟨rfl, hp⟩
  · exact (books_styleSection opener).bind fun s hs => .pure rfl ⟨rfl, hs⟩
  · exact (books_literalLine _).bind fun l _ => .pure rfl ⟨rfl, fun _ => trivial⟩
  · exact (books_contentSection _ opener).bind fun b hb =>
      .pure rfl ⟨congrArg ContentKind.keyword hb.1, hb.2⟩
  · exact (books_contentSection _ opener).bind fun b hb =>
      .pure rfl ⟨congrArg ContentKind.keyword hb.1, hb.2⟩
  · exact (books_contentSection _ opener).bind fun b hb =>
      .pure rfl ⟨congrArg ContentKind.keyword hb.1, hb.2⟩
  · exact (books_contentSection _ opener).bind fun b hb =>
      .pure rfl ⟨congrArg ContentKind.keyword hb.1, hb.2⟩
  · exact (books_contentSection _ opener).bind fun b hb =>
      .pure rfl ⟨congrArg ContentKind.keyword hb.1, hb.2⟩
  · exact (books_bibliographySection opener).bind fun ss hss => .pure rfl ⟨rfl, hss⟩
  · exact books_lineEnd.bind fun _ _ => .pure (add_zero held).symm ⟨rfl, fun _ => trivial⟩
  · exact books_lineEnd.bind fun _ _ => .pure (add_zero held).symm ⟨rfl, fun _ => trivial⟩
  · exact (books_imageSection opener).bind fun i hi => .pure rfl ⟨rfl, hi⟩
  · exact .fail

/-- A section books its texts. Its keyword may stand more than once or was not met before, and what
it declares is grammatical. -/
theorem books_sectionFrom (seen : List Keyword) (first : Bool) (opener : Token) :
    Books led (held + texts [opener]) (sectionFrom seen first opener)
      (fun d => held + ↑d.literals)
      fun d => sectionKeyword? opener = some d.keyword
        ∧ (d.keyword.isRepeatable = true ∨ d.keyword ∉ seen) ∧ (led → d.Grammatical) := by
  unfold sectionFrom
  cases hk : sectionKeyword? opener with
  | none => exact .fail
  | some k =>
    dsimp only
    split_ifs with hseen
    · exact .fail
    · have hword : opener.keyword? = some k := (Option.filter_eq_some_iff.mp hk).1
      rw [texts_of_not_isText (Token.not_isText_of_keyword hword), add_zero]
      refine (books_sectionBody first k opener).mono fun d hd => ⟨by rw [hd.1], ?_, hd.2⟩
      -- a section that stands once and was met before is refused
      rw [hd.1]
      by_contra hno
      rw [not_or, not_not] at hno
      exact hseen (by simp [hno.1, hno.2])

end Manuscript.Grammar
