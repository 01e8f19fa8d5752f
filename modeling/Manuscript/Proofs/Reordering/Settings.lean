import Manuscript.Grammar.Settings
import Manuscript.Proofs.Reordering.Slots

/-!
# Reordered sections about the document

The title, the people, the publication and the style are read again from another form of their
section. Fields may change places, and so may the settings of a style; the fragments of a title and
the order of the parts are lists, and may not.

* `rereads_fieldBlock`: a block of fields in any order.
* `fills_listed`: fields and one list among them.
* `rereads_styleSection`: the settings of a style in any order.
-/

namespace Manuscript

open Canonical

namespace Grammar

open Production

variable {α β σ : Type} {m m' : Passage} {d : Nat}

/-- A token and another one that stand for the first of the same line. -/
theorem unplaced_trans {t t' e : Token} (ht : t.unplaced = e) (ht' : t'.unplaced = e) :
    t'.unplaced = t.unplaced := ht'.trans ht.symm

/-! ## Fields -/

/-- A block has another form with members exactly if it has any. -/
theorem alike_of_permuted (h : m.Permuted m') : Alike m m' := by
  refine ⟨h.line, fun hnil => ?_, fun hnil => ?_⟩
  · have hperm := h.members
    rwa [hnil, List.perm_nil] at hperm
  · have hperm := h.members.symm
    rwa [hnil, List.perm_nil] at hperm

/-- The texts under the keywords of some fields. -/
def fieldTexts (fields : Fields) (k : Keyword) : Option Literal :=
  (fields.get k).map Literal.unplaced

/-- One more field fills its slot. -/
theorem get_add {fields : Fields} {k : Keyword} (l : Literal) (hk : fields.get k = none)
    (j : Keyword) : (fields.add k l).get j = if j = k then some l else fields.get j := by
  unfold Fields.add
  induction fields with
  | nil => exact Fields.get_cons j k l []
  | cons item fields ih =>
    obtain ⟨i, l'⟩ := item
    rw [Fields.get_cons] at hk
    have hki : k ≠ i := by
      rintro rfl
      rw [if_pos rfl] at hk
      cases hk
    rw [if_neg hki] at hk
    rw [List.cons_append, Fields.get_cons, Fields.get_cons, ih hk]
    by_cases hji : j = i
    · subst hji
      rw [if_pos rfl, if_pos rfl, if_neg (Ne.symm hki)]
    · rw [if_neg hji, if_neg hji]

theorem fieldTexts_add {fields : Fields} {k : Keyword} {l l' : Literal} (hl : SameText l l')
    (hk : fieldTexts fields k = none) :
    fieldTexts (fields.add k l') = Function.update (fieldTexts fields) k (some l.unplaced) := by
  funext j
  unfold fieldTexts at *
  rw [get_add l' (Option.map_eq_none_iff.mp hk), Function.update_apply]
  split_ifs with hj
  · exact congrArg some hl
  · rfl

theorem declares_eq_false {fields : Fields} {k : Keyword} :
    fields.declares k = false ↔ fieldTexts fields k = none := by
  unfold Fields.declares fieldTexts
  rw [Option.map_eq_none_iff, Option.isSome_eq_false_iff, Option.isNone_iff_eq_none]

/-- A line with a text. -/
theorem rereads_fieldValue (k : Keyword) (x : Passage) :
    RereadsPassage (fieldValue k) (fieldValue k) x x SameText :=
  (rereadsLine_literalLine _).passage (.refl x)

/-- The fields of a block in any order. -/
theorem rereads_fieldBlock {opener opener' : Token} (expected : String) (keywords : List Keyword)
    (hm : m.Permuted m') (hat : m.At d) (ho : opener.indent = d) (ho' : opener'.indent = d) :
    RereadsPassage (fieldBlock opener expected keywords) (fieldBlock opener' expected keywords) m m'
      fun fields fields' => fieldTexts fields' = fieldTexts fields := by
  obtain rfl := hat.depth_eq
  unfold fieldBlock
  refine rereads_blockPerm fieldTexts (R := fun x x' => x' = x) (fun x x' _ hx => ?_) hm.line
    (List.forall₂_same.mpr fun _ _ => rfl) hm.members hat.members
    (hm.line ▸ (hm.at hat).members) ho ho' rfl
  subst hx
  refine Fills.memberKeyword (fun k fields t => fieldValue k >>= addField fields t k) rfl
    fun k _ _ => ⟨k, ?_⟩
  exact Fills.checked (fun _ => fieldValue k) (Fields.declares · k)
    (fun fields _ l => Fields.add fields k l) Literal.unplaced rfl
    (fun _ _ _ _ => rereads_fieldValue k x') (fun _ => declares_eq_false)
    fun _ _ _ _ _ hl hk => ⟨fieldTexts_add rfl hk, fieldTexts_add hl hk⟩

/-- Records of the same texts are the same up to positions. -/
theorem unplaced_ofFields_eq [PlacedRecord α] {fields fields' : Fields}
    (h : fieldTexts fields' = fieldTexts fields) (p p' : Position) :
    PlacedRecord.unplaced (FieldRecord.ofFields fields' p' : α)
      = PlacedRecord.unplaced (FieldRecord.ofFields fields p : α) := by
  refine PlacedRecord.unplaced_eq _ _ fun k hk => ?_
  rw [FieldRecord.get_ofFields fields' p' k hk, FieldRecord.get_ofFields fields p k hk]
  exact congrFun h k

/-- The record of a block of fields. -/
theorem rereads_record [PlacedRecord α] {opener opener' : Token} (k k' : α → β)
    {same : β → β → Prop} (expected : String) (hm : m.Permuted m') (hat : m.At d)
    (ho : opener.indent = d) (ho' : opener'.indent = d)
    (hk : ∀ a a', PlacedRecord.unplaced a' = PlacedRecord.unplaced a → same (k a) (k' a')) :
    RereadsPassage
      (fieldBlock opener expected (Fielded.keywords α) >>= fun fields =>
        pure (k (FieldRecord.ofFields fields opener.position)))
      (fieldBlock opener' expected (Fielded.keywords α) >>= fun fields =>
        pure (k' (FieldRecord.ofFields fields opener'.position))) m m' same :=
  (rereads_fieldBlock expected _ hm hat ho ho').map fun _ _ h => hk _ _ (unplaced_ofFields_eq h _ _)

/-! ## Fields and a list -/

/-- The texts under the keywords of some fields, and under the keyword of a list if there is one. -/
def listedTexts (list : Keyword) (ls : List Literal) (fields : Fields) (k : Keyword) :
    Option (List Literal) :=
  if k = list then (if ls.isEmpty then none else some (ls.map Literal.unplaced))
  else (fields.get k).map fun l => [l.unplaced]

section Listed

variable {list k : Keyword} {ls ls' : List Literal} {fields fields' : Fields}

theorem listedTexts_list (hls : SameTexts ls ls') (fields : Fields) :
    listedTexts list ls' fields
      = Function.update (listedTexts list [] fields) list (some (ls.map Literal.unplaced)) := by
  funext j
  rw [Function.update_apply]
  unfold listedTexts
  have hne : ls' ≠ [] := by
    rintro rfl
    exact hls.ne_nil (List.map_eq_nil_iff.mp hls.texts.symm)
  split_ifs with hj hempty
  · exact absurd (List.isEmpty_iff.mp hempty) hne
  · exact congrArg some hls.texts
  · rfl

theorem listedTexts_add {l l' : Literal} (hl : SameText l l') (hlist : k ≠ list)
    (hk : listedTexts list ls fields k = none) :
    listedTexts list ls (fields.add k l')
      = Function.update (listedTexts list ls fields) k (some [l.unplaced]) := by
  have hget : fields.get k = none := by
    unfold listedTexts at hk
    rw [if_neg hlist] at hk
    exact Option.map_eq_none_iff.mp hk
  funext j
  rw [Function.update_apply]
  unfold listedTexts
  rw [get_add l' hget]
  by_cases hj : j = k
  · subst hj
    rw [if_neg hlist, if_pos rfl, if_pos rfl]
    exact congrArg (fun l => some [l]) hl
  · rw [if_neg hj, if_neg hj]

theorem declares_eq_false_listed (hlist : k ≠ list) :
    fields.declares k = false ↔ listedTexts list ls fields k = none := by
  unfold listedTexts
  rw [if_neg hlist, Option.map_eq_none_iff]
  unfold Fields.declares
  rw [Option.isSome_eq_false_iff, Option.isNone_iff_eq_none]

/-- The list was not declared before if it is empty. -/
theorem isEmpty_listed : (!ls.isEmpty) = false ↔ listedTexts list ls fields list = none := by
  unfold listedTexts
  rw [if_pos rfl]
  cases ls <;> simp

/-- What is declared are a list of texts and the texts of the fields. -/
theorem of_listedTexts (h : listedTexts list ls' fields' = listedTexts list ls fields) :
    SameList ls ls' ∧ ∀ k, k ≠ list → fieldTexts fields' k = fieldTexts fields k := by
  constructor
  · have hlist := congrFun h list
    unfold listedTexts at hlist
    rw [if_pos rfl, if_pos rfl] at hlist
    unfold SameList
    cases ls <;> cases ls' <;> simp_all
  · intro k hk
    have htexts := congrFun h k
    unfold listedTexts at htexts
    rw [if_neg hk, if_neg hk] at htexts
    unfold fieldTexts
    cases hget : fields.get k <;> cases hget' : fields'.get k <;> simp_all

end Listed

section ListedMember

variable (texts : σ → List Literal) (fields : σ → Fields) (make : List Literal → Fields → σ)
  (list : Keyword) (item : String)

/-- What stands behind the keyword of a field, or behind the keyword of the list, which may stand
once. -/
def listedMember (k : Keyword) (s : σ) (t : Token) : Production σ :=
  if k = list then
    if (texts s).isEmpty then literalsLine item >>= fun ls => pure (make ls (fields s))
    else fail (.repeated t)
  else fieldValue k >>= fun l => addField (fields s) t k l >>= fun fs => pure (make (texts s) fs)

variable {texts fields make} (htexts : ∀ ls fs, texts (make ls fs) = ls)
  (hfields : ∀ ls fs, fields (make ls fs) = fs)

include htexts hfields

theorem fills_listedMember_list (x : Passage) :
    Fills (fun s => listedTexts list (texts s) (fields s)) list
      (listedMember texts fields make list item list) x x := by
  have hmember : listedMember texts fields make list item list = fun s t =>
      if !(texts s).isEmpty then fail (.repeated t)
      else literalsLine item >>= fun ls => done (make ls (fields s)) := by
    funext s t
    unfold listedMember
    rw [if_pos rfl]
    cases (texts s).isEmpty <;> rfl
  rw [hmember]
  refine Fills.guarded (fun _ => literalsLine item) (fun s => !(texts s).isEmpty)
    (fun s _ ls => make ls (fields s)) (·.map Literal.unplaced) rfl
    (fun _ _ _ _ => (rereadsLine_literalsLine item).passage (.refl x)) (fun _ => isEmpty_listed)
    fun s _ _ ls ls' hls hnone => ?_
  have hempty : texts s = [] := by simpa using isEmpty_listed.mpr hnone
  have hself : SameTexts ls ls := ⟨rfl, hls.ne_nil⟩
  simp only [htexts, hfields, hempty]
  exact ⟨listedTexts_list hself (fields s), listedTexts_list hls (fields s)⟩

theorem fills_listedMember_field {k : Keyword} (hk : k ≠ list) (x : Passage) :
    Fills (fun s => listedTexts list (texts s) (fields s)) k
      (listedMember texts fields make list item k) x x := by
  have hmember : listedMember texts fields make list item k = fun s t =>
      fieldValue k >>= fun l => if (fields s).declares k then fail (.repeated t)
        else done (make (texts s) ((fields s).add k l)) := by
    funext s t
    unfold listedMember addField
    rw [if_neg hk]
    refine congrArg _ (funext fun l => ?_)
    split_ifs <;> rfl
  rw [hmember]
  refine Fills.checked (fun _ => fieldValue k) (fun s => (fields s).declares k)
    (fun s _ l => make (texts s) ((fields s).add k l)) (fun l => [l.unplaced]) rfl
    (fun _ _ _ _ => rereads_fieldValue k x) (fun _ => declares_eq_false_listed hk)
    fun s _ _ l l' hl hnone => ?_
  simp only [htexts, hfields]
  exact ⟨listedTexts_add rfl hk hnone, listedTexts_add hl hk hnone⟩

variable (texts fields make)

/-- A field, or the list if there is none yet. -/
theorem fills_listed (expected : String) (accepts : Keyword → Bool) (x : Passage) :
    ∃ k, Fills (fun s => listedTexts list (texts s) (fields s)) k
      (fun s t => memberKeyword t expected accepts >>= fun k =>
        listedMember texts fields make list item k s t) x x := by
  refine Fills.memberKeyword (listedMember texts fields make list item) rfl fun k _ _ => ⟨k, ?_⟩
  by_cases hk : k = list
  · subst hk
    exact fills_listedMember_list k item htexts hfields x
  · exact fills_listedMember_field list item htexts hfields hk x

end ListedMember

/-! ## Title -/

/-- Fragments are the same up to positions. -/
def SameFragments (xs xs' : List TitleFragment) : Prop :=
  xs'.map TitleFragment.unplaced = xs.map TitleFragment.unplaced

theorem SameFragments.concat {xs xs' : List TitleFragment} {x x' : TitleFragment}
    (h : SameFragments xs xs') (hx : x'.unplaced = x.unplaced) :
    SameFragments (xs ++ [x]) (xs' ++ [x']) := by
  unfold SameFragments at *
  simp [h, hx]

theorem rereads_fragmentFrom {t t' : Token} (ht : t'.unplaced = t.unplaced) :
    Rereads (fragmentFrom t) (fragmentFrom t') fun x x' => x'.unplaced = x.unplaced := by
  unfold fragmentFrom
  rw [isText_eq ht, keyword_eq ht]
  split_ifs with htext hwork
  · exact .done (congrArg TitleFragment.plain (literal_eq ht))
  · exact (rereads_literal _).map fun l l' hl => congrArg TitleFragment.work hl
  · exact .fail

theorem beginsFragment_eq {t t' : Token} (ht : t'.unplaced = t.unplaced) :
    beginsFragment t' = beginsFragment t := by
  unfold beginsFragment
  rw [isText_eq ht, keyword_eq ht]

/-- A fragment does not begin with the end of a line. -/
theorem not_isLineEnd_of_beginsFragment {t : Token} (h : beginsFragment t = true) :
    t.isLineEnd = false := by
  unfold beginsFragment at h
  rw [Bool.or_eq_true, beq_iff_eq] at h
  rcases h with htext | hwork
  · exact Token.not_isLineEnd (by decide) htext
  · exact Token.not_isLineEnd_of_keyword hwork

theorem rereads_fragment :
    Rereads fragment fragment fun x x' => x'.unplaced = x.unplaced := by
  unfold fragment
  refine .ahead beginsFragment (fun t t' ht hbegins => ?_) fun t t' ht hbegins => ?_
  · refine ⟨not_isLineEnd_of_beginsFragment hbegins, _, _, if_pos hbegins, ?_,
      rereads_fragmentFrom ht⟩
    exact if_pos ((beginsFragment_eq ht).trans hbegins)
  · dsimp only
    rw [hbegins, if_neg Bool.false_ne_true]
    exact .refuse

theorem rereads_moreFragments {xs xs' : List TitleFragment} (h : SameFragments xs xs') :
    Rereads (moreFragments xs) (moreFragments xs') SameFragments := by
  unfold moreFragments
  refine .repeatWhile (fun _ _ t t' _ ht => isSeparator_eq ht)
    (fun _ t ht => Token.not_isLineEnd (by decide) ht) (fun xs xs' t t' hxs _ _ => ?_) h
  exact rereads_fragment.map fun x x' hx => hxs.concat hx

theorem rereads_titleSection {opener opener' : Token} (hat : m.At d) (ho : opener.indent = d)
    (ho' : opener'.indent = d) :
    RereadsPassage (titleSection opener) (titleSection opener') m m SameFragments := by
  obtain rfl := hat.depth_eq
  unfold titleSection
  refine .opensBlock (.refl m) ?_ ?_
  · refine rereads_linesBlock (fun xs xs' t t' hxs ht _ => ?_) hat.members ho ho' rfl
    refine .bind (rereads_fragmentFrom ht) fun x x' hx => ?_
    refine .bind (rereads_moreFragments (hxs.concat hx)) fun ys ys' hys => ?_
    exact rereadsLine_lineEnd.map fun _ _ _ => hys
  · refine .bind rereads_fragment fun x x' hx => ?_
    refine .bind (rereads_moreFragments (congrArg (fun x => [x]) hx)) fun ys ys' hys => ?_
    exact rereadsLine_lineEnd.map fun _ _ _ => hys

/-! ## People and publication -/

/-- People are the same up to positions. -/
def SamePeople (as as' : List Person) : Prop := as'.map Person.unplaced = as.map Person.unplaced

/-- People who are only named are the same if their names are. -/
theorem samePeople_named {ls ls' : List Literal} (h : SameList ls ls') :
    SamePeople (ls.map Person.named) (ls'.map Person.named) := by
  have hnamed (ls : List Literal) : (ls.map Person.named).map Person.unplaced
      = (ls.map Literal.unplaced).map fun l => { name := some l, position := .origin } := by
    rw [List.map_map, List.map_map]
    rfl
  unfold SamePeople SameList at *
  rw [hnamed, hnamed, h]

theorem rereads_peopleSection {opener opener' : Token} (hm : m.Permuted m') (hat : m.At d)
    (ho : opener.indent = d) (ho' : opener'.indent = d) :
    RereadsPassage (peopleSection opener) (peopleSection opener') m m' SamePeople := by
  unfold peopleSection
  refine .opensBlock (alike_of_permuted hm) ?_ ?_
  · exact rereads_record (fun a => [a]) (fun a => [a]) _ hm hat ho ho' fun a a' ha =>
      congrArg (fun a => [a]) ha
  · exact (rereadsLine_literalsLine _).map fun ls ls' hls => samePeople_named hls.texts

theorem rereads_publicationSection {opener opener' : Token} (hm : m.Permuted m') (hat : m.At d)
    (ho : opener.indent = d) (ho' : opener'.indent = d) :
    RereadsPassage (publicationSection opener) (publicationSection opener') m m'
      fun a a' => a'.unplaced = a.unplaced :=
  rereads_record id id _ hm hat ho ho' fun _ _ ha => ha

/-! ## Style -/

/-- The fields of a numeration and the pages without a number, in any order. -/
theorem rereads_numerationBlock {opener opener' : Token} (hm : m.Permuted m') (hat : m.At d)
    (ho : opener.indent = d) (ho' : opener'.indent = d) :
    RereadsPassage (numerationBlock opener) (numerationBlock opener') m m'
      fun b b' => b'.unplaced = b.unplaced := by
  obtain rfl := hat.depth_eq
  unfold numerationBlock
  refine (rereads_blockPerm (fun s : Fields × List Literal => listedTexts .skip s.2 s.1)
    (R := fun x x' => x' = x) (fun x x' _ hx => ?_) hm.line (List.forall₂_same.mpr fun _ _ => rfl)
    hm.members hat.members (hm.line ▸ (hm.at hat).members) ho ho' rfl).map fun s s' hs => ?_
  · subst hx
    exact fills_listed Prod.snd Prod.fst (fun ls fs => (fs, ls)) .skip _ (fun _ _ => rfl)
      (fun _ _ => rfl) numerationMember _ x'
  · obtain ⟨hskip, hfields⟩ := of_listedTexts hs
    have htype := hfields .type (by decide)
    have hdisplay := hfields .display (by decide)
    have hmargin := hfields .margin (by decide)
    unfold fieldTexts SameList at *
    simp [NumerationBlock.unplaced, NumerationBlock.ofFields, htype, hdisplay, hmargin, hskip]

theorem rereads_partList {opener opener' : Token} (hat : m.At d) (ho : opener.indent = d)
    (ho' : opener'.indent = d) :
    RereadsPassage (partList opener) (partList opener') m m
      fun l l' => l'.unplaced = l.unplaced := by
  obtain rfl := hat.depth_eq
  have hlist : ∀ ls ls', SameList ls ls' → (PartList.mk ls' opener'.position).unplaced
      = (PartList.mk ls opener.position).unplaced :=
    fun ls ls' hls => congrArg (PartList.mk · .origin) hls
  unfold partList
  refine .opensBlock (.refl m) ?_ ?_
  · have hnone : SameList [] [] := rfl
    refine (rereads_linesBlock (fun ls ls' t t' hls ht _ => ?_) hat.members ho ho' hnone).map hlist
    rw [isText_eq ht]
    split_ifs with htext
    · refine .bind (rereads_moreLiterals _ (hls.concat (literal_eq ht))) fun ls ls' hls => ?_
      exact rereadsLine_lineEnd.map fun _ _ _ => hls.texts
    · exact .fail
  · exact (rereadsLine_literalsLine _).map fun ls ls' hls => hlist ls ls' hls.texts

/-- What a line of a style section declares, without its positions. -/
inductive Setting where
  | guide (name : Literal)
  | font (block : FontBlock)
  | layout (block : LayoutBlock)
  | paragraph (block : ParagraphBlock)
  | sentence (block : SentenceBlock)
  | numeration (block : NumerationBlock)
  | parts (list : PartList)
  | endnotes (block : EndnotesBlock)

/-- The setting under a keyword of a style. -/
def settingOf (s : StyleBlock) : Keyword → Option Setting
  | .of => s.base.map fun l => .guide l.unplaced
  | .font => s.font.map fun b => .font b.unplaced
  | .layout => s.layout.map fun b => .layout b.unplaced
  | .paragraph => s.paragraph.map fun b => .paragraph b.unplaced
  | .sentence => s.sentence.map fun b => .sentence b.unplaced
  | .numeration => s.numeration.map fun b => .numeration b.unplaced
  | .sectionOrder => s.parts.map fun l => .parts l.unplaced
  | .citation => s.citation.map fun l => .guide l.unplaced
  | .endnotes => s.endnotes.map fun b => .endnotes b.unplaced
  | _ => none

/-- Values that are made into the same setting are the same up to positions. -/
theorem map_unplaced_eq {γ : Type} {f : α → β} {g : β → γ} (hg : Function.Injective g)
    {a a' : Option α} (h : (a'.map fun x => g (f x)) = a.map fun x => g (f x)) :
    a'.map f = a.map f := by
  have hcomp (o : Option α) : (o.map fun x => g (f x)) = (o.map f).map g := by
    rw [Option.map_map]
    rfl
  rw [hcomp, hcomp] at h
  exact Option.map_injective hg h

/-- Styles with the same settings are the same up to positions. -/
theorem unplaced_eq_of_settingOf {s s' : StyleBlock} (h : settingOf s' = settingOf s) :
    s'.unplaced = s.unplaced := by
  have hbase := map_unplaced_eq (fun _ _ => Setting.guide.inj) (congrFun h .of)
  have hfont := map_unplaced_eq (fun _ _ => Setting.font.inj) (congrFun h .font)
  have hlayout := map_unplaced_eq (fun _ _ => Setting.layout.inj) (congrFun h .layout)
  have hparagraph := map_unplaced_eq (fun _ _ => Setting.paragraph.inj) (congrFun h .paragraph)
  have hsentence := map_unplaced_eq (fun _ _ => Setting.sentence.inj) (congrFun h .sentence)
  have hnumeration := map_unplaced_eq (fun _ _ => Setting.numeration.inj) (congrFun h .numeration)
  have hparts := map_unplaced_eq (fun _ _ => Setting.parts.inj) (congrFun h .sectionOrder)
  have hcitation := map_unplaced_eq (fun _ _ => Setting.guide.inj) (congrFun h .citation)
  have hendnotes := map_unplaced_eq (fun _ _ => Setting.endnotes.inj) (congrFun h .endnotes)
  unfold StyleBlock.unplaced
  rw [hbase, hfont, hlayout, hparagraph, hsentence, hnumeration, hparts, hcitation, hendnotes]

/-- One setting is replaced, and the others are left alone. -/
theorem settingOf_update {s s' : StyleBlock} {k : Keyword} {v : Setting}
    (hk : settingOf s' k = some v) (hother : ∀ j, j ≠ k → settingOf s' j = settingOf s j) :
    settingOf s' = Function.update (settingOf s) k (some v) := by
  funext j
  rw [Function.update_apply]
  split_ifs with hj
  · rw [hj, hk]
  · exact hother j hj

/-- Where a style keeps the setting under a keyword, and what it is as a setting. For a field of the
style there is nothing to say about it. -/
structure Keeps (k : Keyword) (declared : StyleBlock → Option α) (set : StyleBlock → α → StyleBlock)
    (kind : α → Setting) : Prop where
  view : ∀ s, settingOf s k = (declared s).map kind := by
    intro s
    rfl
  declared : ∀ s a, declared (set s a) = some a := by
    intro s a
    rfl
  other : ∀ s a j, j ≠ k → settingOf (set s a) j = settingOf s j := by
    intro s a j hj
    unfold settingOf
    split <;> first | rfl | contradiction

section Keeps

variable {x x' : Passage} {k : Keyword} {declared : StyleBlock → Option α}
  {set : StyleBlock → α → StyleBlock} {kind : α → Setting}

theorem Keeps.update (h : Keeps k declared set kind) (s : StyleBlock) {a a' : α}
    (ha : kind a' = kind a) :
    settingOf (set s a') = Function.update (settingOf s) k (some (kind a)) := by
  refine settingOf_update ?_ (h.other s a')
  rw [h.view, h.declared, ← ha]
  rfl

/-- Nothing was declared if there is no setting. -/
theorem Keeps.isSome_eq_false (h : Keeps k declared set kind) (s : StyleBlock) :
    (declared s).isSome = false ↔ settingOf s k = none := by
  rw [h.view, Option.map_eq_none_iff, Option.isSome_eq_false_iff, Option.isNone_iff_eq_none]

/-- A setting that is refused at once if it was declared before. -/
theorem fills_once {same : α → α → Prop} (h : Keeps k declared set kind)
    (piece : Token → Production α) (hline : x'.line = x.line)
    (hpiece : ∀ t t', t.unplaced = x.line.first → t'.unplaced = x.line.first →
      RereadsPassage (piece t) (piece t') x x' same)
    (hsame : ∀ a a', same a a' → kind a' = kind a) :
    Fills settingOf k (fun s t => once (declared s) t (piece t >>= fun a => pure (set s a))) x x' :=
  Fills.guarded piece (fun s => (declared s).isSome) (fun s _ a => set s a) kind hline hpiece
    h.isSome_eq_false fun s _ _ a a' ha _ => ⟨h.update s rfl, h.update s (hsame a a' ha)⟩

/-- A block of fields. -/
theorem fills_record [PlacedRecord α] (h : Keeps k declared set kind) (expected : String)
    (hm : x.Permuted x') (hat : x.At d)
    (hsame : ∀ a a', PlacedRecord.unplaced a' = PlacedRecord.unplaced a → kind a' = kind a) :
    Fills settingOf k (fun s t => once (declared s) t
      (fieldBlock t expected (Fielded.keywords α) >>= fun fields =>
        pure (set s (FieldRecord.ofFields fields t.position)))) x x' := by
  have hfills := fills_once h (fun t => fieldBlock t expected (Fielded.keywords α) >>= fun fields =>
    pure (FieldRecord.ofFields fields t.position)) hm.line (fun t t' ht ht' =>
      rereads_record id id expected hm hat (hat.indent_eq ht) (hat.indent_eq ht') fun _ _ ha => ha)
    hsame
  simp only [bind_assoc] at hfills
  exact hfills

end Keeps

/-- A name that is refused, once it was read, if it was declared before. -/
theorem fills_nameOnce {x x' : Passage} {k : Keyword} {declared : StyleBlock → Option Literal}
    {set : StyleBlock → Option Literal → StyleBlock}
    (h : Keeps k declared (fun s l => set s (some l)) fun l => .guide l.unplaced)
    (hm : x.Permuted x') :
    Fills settingOf k (fun s t => nameOnce (declared s) t >>= fun name => pure (set s name))
      x x' := by
  have hmember : (fun s t => nameOnce (declared s) t >>= fun name => pure (set s name))
      = fun s t => literalLine "a style name" >>= fun l =>
        if (declared s).isSome then fail (.repeated t) else done (set s (some l)) := by
    funext s t
    unfold nameOnce
    rw [bind_assoc]
    refine congrArg _ (funext fun l => ?_)
    split_ifs <;> rfl
  rw [hmember]
  exact Fills.checked (fun _ => literalLine "a style name") (fun s => (declared s).isSome)
    (fun s _ l => set s (some l)) (fun l => .guide l.unplaced) hm.line
    (fun _ _ _ _ => (rereadsLine_literalLine _).passage (alike_of_permuted hm)) h.isSome_eq_false
    fun s _ _ l l' hl _ => ⟨h.update s rfl, h.update s (congrArg Setting.guide hl)⟩

/-- A line of a style section, with its block in another order. -/
theorem fills_styleLine {x x' : Passage} (hm : x.SettingPermuted x') (hat : x.At d) :
    ∃ k, Fills settingOf k styleLine x x' := by
  unfold styleLine
  refine Fills.memberKeyword _ hm.line fun k hk haccepts => ⟨k, ?_⟩
  cases k with
  | of =>
    have hkeeps : Keeps .of StyleBlock.base (fun s l => { s with base := some l })
      fun l => .guide l.unplaced := {}
    exact fills_nameOnce hkeeps hm.toPermuted
  | citation =>
    have hkeeps : Keeps .citation StyleBlock.citation (fun s l => { s with citation := some l })
      fun l => .guide l.unplaced := {}
    exact fills_nameOnce hkeeps hm.toPermuted
  | font =>
    have hkeeps : Keeps .font StyleBlock.font (fun s b => { s with font := some b })
      fun b => .font b.unplaced := {}
    exact fills_record hkeeps _ hm.toPermuted hat fun b b' hb => congrArg Setting.font hb
  | layout =>
    have hkeeps : Keeps .layout StyleBlock.layout (fun s b => { s with layout := some b })
      fun b => .layout b.unplaced := {}
    exact fills_record hkeeps _ hm.toPermuted hat fun b b' hb => congrArg Setting.layout hb
  | paragraph =>
    have hkeeps : Keeps .paragraph StyleBlock.paragraph (fun s b => { s with paragraph := some b })
      fun b => .paragraph b.unplaced := {}
    exact fills_record hkeeps _ hm.toPermuted hat fun b b' hb => congrArg Setting.paragraph hb
  | sentence =>
    have hkeeps : Keeps .sentence StyleBlock.sentence (fun s b => { s with sentence := some b })
      fun b => .sentence b.unplaced := {}
    exact fills_record hkeeps _ hm.toPermuted hat fun b b' hb => congrArg Setting.sentence hb
  | numeration =>
    have hkeeps : Keeps .numeration StyleBlock.numeration
      (fun s b => { s with numeration := some b }) fun b => .numeration b.unplaced := {}
    exact fills_once hkeeps numerationBlock hm.line (fun t t' ht ht' =>
      rereads_numerationBlock hm.toPermuted hat (hat.indent_eq ht) (hat.indent_eq ht'))
      fun b b' hb => congrArg Setting.numeration hb
  | sectionOrder =>
    have hkeeps : Keeps .sectionOrder StyleBlock.parts (fun s l => { s with parts := some l })
      fun l => .parts l.unplaced := {}
    rw [hm.parts hk]
    exact fills_once hkeeps partList rfl (fun t t' ht ht' =>
      rereads_partList hat (hat.indent_eq ht) (hat.indent_eq ht')) fun l l' hl =>
      congrArg Setting.parts hl
  | endnotes =>
    have hkeeps : Keeps .endnotes StyleBlock.endnotes (fun s b => { s with endnotes := some b })
      fun b => .endnotes b.unplaced := {}
    exact fills_record hkeeps _ hm.toPermuted hat fun b b' hb => congrArg Setting.endnotes hb
  | _ => exact absurd haccepts (by decide)

theorem alike_of_stylePermuted (h : m.StylePermuted m') : Alike m m' := by
  obtain ⟨ms, hms, hperm⟩ := h.members
  refine ⟨h.line, fun hnil => ?_, fun hnil => ?_⟩
  · rw [hnil, List.perm_nil] at hperm
    exact List.forall₂_nil_right_iff.mp (hperm ▸ hms)
  · rw [hnil, List.forall₂_nil_left_iff] at hms
    rwa [hms, List.nil_perm] at hperm

/-- The settings of a style in any order. -/
theorem rereads_styleSection {opener opener' : Token} (hm : m.StylePermuted m') (hat : m.At d)
    (ho : opener.indent = d) (ho' : opener'.indent = d) :
    RereadsPassage (styleSection opener) (styleSection opener') m m'
      fun s s' => s'.unplaced = s.unplaced := by
  obtain rfl := hat.depth_eq
  obtain ⟨ms, hms, hperm⟩ := hm.members
  unfold styleSection
  refine .opensBlock (alike_of_stylePermuted hm) ?_ ?_
  · have hblock : RereadsPassage (block opener { position := opener.position } styleLine)
        (block opener' { position := opener'.position } styleLine) m m'
        fun s s' => settingOf s' = settingOf s :=
      rereads_blockPerm settingOf (fun x x' hat hx => fills_styleLine hx hat) hm.line hms hperm
        hat.members (hm.line ▸ (hm.at hat).members) ho ho' rfl
    exact hblock.mono fun s s' => unplaced_eq_of_settingOf
  · exact (rereadsLine_literalLine _).map fun l l' hl => congrArg StyleBlock.named hl

end Grammar

end Manuscript
