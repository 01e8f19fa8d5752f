import Mathlib.Data.List.Nodup
import Mathlib.Data.List.Perm.Basic
import Manuscript.Specification.Tree

/-!
# Records of fields

Most nodes of a specification are records of optional literals, each under a keyword. A `Fielded`
type says which keywords it has and what stands under them, so that what holds of all such records
is stated once.

* `get_collect`: the literals that were collected under some keywords can be looked up again.
* `collect_perm`: a record that was made from a block of fields declares the fields of the block.
-/

namespace Manuscript

namespace Fields

/-- The keywords of some fields. -/
def keys (fields : Fields) : List Keyword := fields.map Prod.fst

/-- The literals of some fields. -/
def literals (fields : Fields) : List Literal := fields.map Prod.snd

/-- What stands under some keywords, as fields. -/
def collect (keywords : List Keyword) (get : Keyword → Option Literal) : Fields :=
  keywords.filterMap fun k => (get k).map (k, ·)

/-- Every keyword is one of the given ones and stands once. -/
structure Proper (keywords : List Keyword) (fields : Fields) : Prop where
  nodup : fields.keys.Nodup
  subset : ∀ k ∈ fields.keys, k ∈ keywords

theorem get_cons (k j : Keyword) (l : Literal) (fields : Fields) :
    get ((j, l) :: fields) k = if k = j then some l else fields.get k := by
  unfold get
  by_cases h : k = j
  · subst h
    simp
  · have hb : (k == j) = false := by simpa using h
    rw [if_neg h, List.lookup_cons, hb]

/-- The fields declare exactly their keywords. -/
theorem declares_iff (fields : Fields) (k : Keyword) :
    fields.declares k = true ↔ k ∈ fields.keys := by
  induction fields with
  | nil => simp [declares, get, keys]
  | cons f fields ih =>
    obtain ⟨j, l⟩ := f
    unfold declares at *
    rw [get_cons]
    by_cases h : k = j
    · simp [h, keys]
    · rw [if_neg h, ih]
      simp [keys, h]

/-- If no keyword stands twice, looking a keyword up finds its field. -/
theorem get_eq_some_iff {fields : Fields} (h : fields.keys.Nodup) (k : Keyword) (l : Literal) :
    fields.get k = some l ↔ (k, l) ∈ fields := by
  induction fields with
  | nil => simp [get]
  | cons f fields ih =>
    obtain ⟨j, l'⟩ := f
    have hn : j ∉ keys fields ∧ (keys fields).Nodup := List.nodup_cons.mp h
    rw [get_cons]
    by_cases hk : k = j
    · subst hk
      have hnot : (k, l) ∉ fields := fun hm => hn.1 (List.mem_map_of_mem hm)
      rw [if_pos rfl]
      simp only [Option.some.injEq, List.mem_cons, Prod.mk.injEq, true_and, hnot, or_false]
      exact eq_comm
    · rw [if_neg hk, ih hn.2]
      simp [hk]

/-- What was collected under a keyword can be looked up. -/
theorem get_collect (keywords : List Keyword) (g : Keyword → Option Literal) (k : Keyword) :
    (collect keywords g).get k = if k ∈ keywords then g k else none := by
  induction keywords with
  | nil => simp [collect, get]
  | cons j keywords ih =>
    unfold collect at *
    by_cases hk : k = j
    · subst hk
      cases hg : g k with
      | none =>
        rw [List.filterMap_cons_none (by simp [hg]), ih]
        simp [hg]
      | some l =>
        rw [List.filterMap_cons_some (b := (k, l)) (by simp [hg]), get_cons]
        simp
    · have hmem : k ∈ j :: keywords ↔ k ∈ keywords := by simp [hk]
      simp only [hmem]
      cases hg : g j with
      | none => rw [List.filterMap_cons_none (by simp [hg]), ih]
      | some l =>
        rw [List.filterMap_cons_some (b := (j, l)) (by simp [hg]), get_cons, if_neg hk, ih]

/-- A field is collected if its literal stands under one of the keywords. -/
theorem mem_collect (keywords : List Keyword) (g : Keyword → Option Literal) (k : Keyword)
    (l : Literal) : (k, l) ∈ collect keywords g ↔ k ∈ keywords ∧ g k = some l := by
  unfold collect
  rw [List.mem_filterMap]
  constructor
  · rintro ⟨j, hj, h⟩
    obtain ⟨l', hl, heq⟩ := Option.map_eq_some_iff.mp h
    cases heq
    exact ⟨hj, hl⟩
  · rintro ⟨hk, hl⟩
    exact ⟨k, hk, by simp [hl]⟩

/-- The keywords that something is collected under are some of the given ones, in order. -/
theorem keys_collect_sublist (keywords : List Keyword) (g : Keyword → Option Literal) :
    (collect keywords g).keys.Sublist keywords := by
  induction keywords with
  | nil => exact List.Sublist.slnil
  | cons j keywords ih =>
    unfold collect keys at *
    cases hg : g j with
    | none =>
      rw [List.filterMap_cons_none (by simp [hg])]
      exact ih.cons j
    | some l =>
      rw [List.filterMap_cons_some (b := (j, l)) (by simp [hg])]
      exact ih.cons_cons j

/-- Fields whose keywords are proper are what is collected from looking them up. -/
theorem collect_perm {keywords : List Keyword} {fields : Fields} (hk : keywords.Nodup)
    (h : fields.Proper keywords) : (collect keywords fields.get).Perm fields := by
  have hnodup : (collect keywords fields.get).keys.Nodup :=
    (keys_collect_sublist keywords fields.get).nodup hk
  -- both sides have no duplicates, so that they are compared by their members
  refine (List.perm_ext_iff_of_nodup hnodup.of_map h.nodup.of_map).mpr ?_
  rintro ⟨k, l⟩
  rw [mem_collect, get_eq_some_iff h.nodup]
  constructor
  · exact fun hm => hm.2
  · exact fun hm => ⟨h.subset k (List.mem_map_of_mem hm), hm⟩

theorem collect_congr {keywords : List Keyword} {f g : Keyword → Option Literal}
    (h : ∀ k ∈ keywords, f k = g k) : collect keywords f = collect keywords g := by
  unfold collect
  refine List.filterMap_congr fun k hk => ?_
  rw [h k hk]

/-! ### Adding a field -/

/-- One more field, under a keyword that may stand there and was not declared before. -/
theorem Proper.add {keywords : List Keyword} {fields : Fields} (h : fields.Proper keywords)
    {k : Keyword} (hk : k ∈ keywords) (hd : fields.declares k = false) (l : Literal) :
    (fields.add k l).Proper keywords := by
  have hn : k ∉ fields.keys := by
    rw [← declares_iff, hd]
    simp
  have hkeys : (fields.add k l).keys = fields.keys ++ [k] := by
    unfold keys Fields.add
    rw [List.map_append]
    rfl
  constructor
  · rw [hkeys, List.nodup_append]
    refine ⟨h.nodup, List.nodup_singleton k, ?_⟩
    intro j hj i hi
    rw [List.mem_singleton] at hi
    rintro rfl
    exact hn (hi ▸ hj)
  · rw [hkeys]
    intro j hj
    rcases List.mem_append.mp hj with hj | hj
    · exact h.subset j hj
    · rw [List.mem_singleton] at hj
      exact hj ▸ hk

theorem proper_nil (keywords : List Keyword) : Proper keywords [] :=
  ⟨List.nodup_nil, by simp [keys]⟩

end Fields

/-! ## Records -/

/-- A type of records of optional literals, each under a keyword. -/
class Fielded (α : Type) where
  keywords : List Keyword
  get : α → Keyword → Option Literal
  nodup : keywords.Nodup

namespace Fielded

variable {α : Type} [Fielded α]

/-- The fields that a record declares. -/
def declared (a : α) : Fields := .collect (keywords α) (get a)

/-- The literals of a record. -/
def literals (a : α) : List Literal := (declared a).literals

end Fielded

/-- A type of records that a block of fields describes. -/
class FieldRecord (α : Type) extends Fielded α where
  ofFields : Fields → Position → α
  get_ofFields : ∀ fields p, ∀ k ∈ keywords, get (ofFields fields p) k = fields.get k

/-- A record declares the fields of the block that it was made from. -/
theorem FieldRecord.declared_perm {α : Type} [FieldRecord α] {fields : Fields}
    (h : fields.Proper (Fielded.keywords α)) (p : Position) :
    (Fielded.declared (ofFields fields p : α)).Perm fields := by
  have hc : Fielded.declared (ofFields fields p : α)
      = Fields.collect (Fielded.keywords α) fields.get :=
    Fields.collect_congr fun k hk => get_ofFields fields p k hk
  rw [hc]
  exact Fields.collect_perm Fielded.nodup h

/-! ### The types of records -/

/-- What stands under a keyword of a person. -/
def Person.get (a : Person) : Keyword → Option Literal
  | .name => a.name
  | .firstname => a.firstname
  | .lastname => a.lastname
  | .role => a.role
  | .institution => a.institution
  | _ => none

instance : FieldRecord Person where
  keywords := Person.keywords
  get := Person.get
  nodup := by decide
  ofFields := Person.ofFields
  get_ofFields := by simp [Person.keywords, Person.get, Person.ofFields]

/-- What stands under a keyword of a publication. -/
def Publication.get (a : Publication) : Keyword → Option Literal
  | .title => a.title
  | .venue => a.venue
  | .date => a.date
  | .edition => a.edition
  | .institution => a.institution
  | .chair => a.chair
  | .semester => a.semester
  | _ => none

instance : FieldRecord Publication where
  keywords := Publication.keywords
  get := Publication.get
  nodup := by decide
  ofFields := Publication.ofFields
  get_ofFields := by simp [Publication.keywords, Publication.get, Publication.ofFields]

/-- What stands under a keyword of the font settings. -/
def FontBlock.get (a : FontBlock) : Keyword → Option Literal
  | .name => a.name
  | .size => a.size
  | .colour => a.colour
  | _ => none

instance : FieldRecord FontBlock where
  keywords := FontBlock.keywords
  get := FontBlock.get
  nodup := by decide
  ofFields := FontBlock.ofFields
  get_ofFields := by simp [FontBlock.keywords, FontBlock.get, FontBlock.ofFields]

/-- What stands under a keyword of the page settings. -/
def LayoutBlock.get (a : LayoutBlock) : Keyword → Option Literal
  | .width => a.width
  | .height => a.height
  | .margin => a.margin
  | .spacing => a.spacing
  | _ => none

instance : FieldRecord LayoutBlock where
  keywords := LayoutBlock.keywords
  get := LayoutBlock.get
  nodup := by decide
  ofFields := LayoutBlock.ofFields
  get_ofFields := by simp [LayoutBlock.keywords, LayoutBlock.get, LayoutBlock.ofFields]

/-- What stands under a keyword of the paragraph settings. -/
def ParagraphBlock.get (a : ParagraphBlock) : Keyword → Option Literal
  | .indentation => a.indentation
  | _ => none

instance : FieldRecord ParagraphBlock where
  keywords := ParagraphBlock.keywords
  get := ParagraphBlock.get
  nodup := by decide
  ofFields := ParagraphBlock.ofFields
  get_ofFields := by simp [ParagraphBlock.keywords, ParagraphBlock.get, ParagraphBlock.ofFields]

/-- What stands under a keyword of the sentence settings. -/
def SentenceBlock.get (a : SentenceBlock) : Keyword → Option Literal
  | .prefixText => a.prefixText
  | .whitespace => a.whitespace
  | .bold => a.bold
  | .italic => a.italic
  | _ => none

instance : FieldRecord SentenceBlock where
  keywords := SentenceBlock.keywords
  get := SentenceBlock.get
  nodup := by decide
  ofFields := SentenceBlock.ofFields
  get_ofFields := by simp [SentenceBlock.keywords, SentenceBlock.get, SentenceBlock.ofFields]

/-- What stands under a keyword of the endnotes settings. -/
def EndnotesBlock.get (a : EndnotesBlock) : Keyword → Option Literal
  | .allow => a.allow
  | .before => a.before
  | _ => none

instance : FieldRecord EndnotesBlock where
  keywords := EndnotesBlock.keywords
  get := EndnotesBlock.get
  nodup := by decide
  ofFields := EndnotesBlock.ofFields
  get_ofFields := by simp [EndnotesBlock.keywords, EndnotesBlock.get, EndnotesBlock.ofFields]

/-- What stands under a keyword of an image. -/
def Image.get (a : Image) : Keyword → Option Literal
  | .id => a.id
  | .width => a.width
  | .height => a.height
  | .size => a.size
  | .display => a.display
  | _ => none

instance : FieldRecord Image where
  keywords := Image.keywords
  get := Image.get
  nodup := by decide
  ofFields := Image.ofFields
  get_ofFields := by simp [Image.keywords, Image.get, Image.ofFields]

/-- What stands under a keyword of the numeration settings that takes one value. -/
def NumerationBlock.get (a : NumerationBlock) : Keyword → Option Literal
  | .type => a.type
  | .display => a.display
  | .margin => a.margin
  | _ => none

instance : Fielded NumerationBlock where
  keywords := NumerationBlock.keywords
  get := NumerationBlock.get
  nodup := by decide

/-- What stands under a keyword of a source that takes one value. -/
def Source.get (a : Source) : Keyword → Option Literal
  | .id => a.id
  | .title => a.title
  | .publisher => a.publisher
  | .year => a.year
  | .edition => a.edition
  | .container => a.container
  | .journal => a.journal
  | .volume => a.volume
  | .issue => a.issue
  | .pages => a.pages
  | .album => a.album
  | .label => a.label
  | .platform => a.platform
  | .website => a.website
  | .url => a.url
  | .accessed => a.accessed
  | _ => none

instance : Fielded Source where
  keywords := Source.keywords
  get := Source.get
  nodup := by decide

/-- The numeration settings declare the fields of the block that they were made from. -/
theorem NumerationBlock.declared_perm {fields : Fields}
    (h : fields.Proper NumerationBlock.keywords) (skip : List Literal) (p : Position) :
    (Fielded.declared (NumerationBlock.ofFields fields skip p)).Perm fields := by
  have hc : Fielded.declared (NumerationBlock.ofFields fields skip p)
      = Fields.collect NumerationBlock.keywords fields.get := by
    refine Fields.collect_congr ?_
    simp [Fielded.keywords, Fielded.get, NumerationBlock.keywords, NumerationBlock.get,
      NumerationBlock.ofFields]
  rw [hc]
  exact Fields.collect_perm (Fielded.nodup (α := NumerationBlock)) h

/-- Under each of its keywords, a source has the field that it was made from. -/
theorem Source.get_ofFields (kind : SourceKind) (authors : List Literal) (fields : Fields)
    (p : Position) : ∀ k ∈ Source.keywords,
      (Source.ofFields kind authors fields p).get k = fields.get k := by
  simp [Source.keywords, Source.get, Source.ofFields]

/-- What a source has stands under one of its keywords. -/
theorem Source.mem_keywords {s : Source} {k : Keyword} (h : (s.get k).isSome = true) :
    k ∈ Source.keywords := by
  unfold Source.get at h
  split at h
  all_goals first | exact absurd h Bool.false_ne_true | simp [Source.keywords]

/-- A source declares the fields of the block that it was made from. -/
theorem Source.declared_perm {fields : Fields} (h : fields.Proper Source.keywords)
    (kind : SourceKind) (authors : List Literal) (p : Position) :
    (Fielded.declared (Source.ofFields kind authors fields p)).Perm fields := by
  have hc : Fielded.declared (Source.ofFields kind authors fields p)
      = Fields.collect Source.keywords fields.get :=
    Fields.collect_congr (Source.get_ofFields kind authors fields p)
  rw [hc]
  exact Fields.collect_perm (Fielded.nodup (α := Source)) h

end Manuscript
