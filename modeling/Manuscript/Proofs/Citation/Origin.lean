import Manuscript.Proofs.Citation.Layout

/-!
# What an entry says of its source

The pieces of an entry that are given come from the fields of the source. Each is a word of an
author, or the value of another field without the white space at its ends.

* `Entry.givenOf_layout`: what a layout gives are texts of the work and words of its authors.
* `Source.says_of_layout`: they stand in the values of the source.
-/

namespace Manuscript

/-! ## What the fields of a source say -/

/-- The words of a name. -/
def PersonalName.words (n : PersonalName) : List String :=
  n.surname :: n.given.elim [] Text.wordsOf

/-- The texts that works of one kind have. -/
def WorkDetails.texts : WorkDetails → List String
  | book publisher _ => [publisher]
  | music album label => album.toList ++ label.toList
  | periodical journal .. => [journal]
  | poem container publisher _ _ => container.toList ++ publisher.toList
  | videogame publisher platform => publisher :: platform.toList
  | webpage website _ => website.toList

/-- The texts of a work, apart from its authors. -/
def Work.texts (w : Work) : List String :=
  w.title :: (w.year.toList ++ w.url.toList ++ w.details.texts)

/-- The text stands in the value of an author, or it is the value of another field. The white space
at the ends of a value does not count. -/
def Source.Says (s : Source) (text : String) : Prop :=
  (∃ l ∈ s.authors, text.toList <:+: l.trimmed.toList) ∨ ∃ k l, s.get k = some l ∧ text = l.trimmed

namespace Entry

/-- The text that a piece gives. -/
def Piece.given? : Piece → Option String
  | given text => some text
  | form _ | stop => none

/-- What pieces give of the source. -/
def givenOf (ps : List Piece) : List String := ps.filterMap Piece.given?

section

variable {w : Work} {t : String}

@[simp]
theorem givenOf_nil : givenOf [] = [] := rfl

@[simp]
theorem givenOf_given (text : String) (ps : List Piece) :
    givenOf (.given text :: ps) = text :: givenOf ps := rfl

@[simp]
theorem givenOf_form (text : String) (ps : List Piece) :
    givenOf (.form text :: ps) = givenOf ps := rfl

@[simp]
theorem givenOf_stop (ps : List Piece) : givenOf (.stop :: ps) = givenOf ps := rfl

@[simp]
theorem givenOf_append (ps qs : List Piece) : givenOf (ps ++ qs) = givenOf ps ++ givenOf qs :=
  List.filterMap_append

theorem mem_givenOf {ps : List Piece} : t ∈ givenOf ps ↔ .given t ∈ ps := by
  induction ps with
  | nil => simp
  | cons p ps ih => cases p <;> simp [ih]

/-! ### Runs -/

@[simp]
theorem givenOf_joined (separator : String) (runs : List (List Piece)) :
    givenOf (joined separator runs) = runs.flatMap givenOf := by
  fun_induction joined separator runs with
  | case1 => rfl
  | case2 ps => simp
  | case3 ps qs rest ih => simp [ih]

@[simp]
theorem givenOf_joinedWithLast (sign : String) (runs : List (List Piece)) :
    givenOf (joinedWithLast sign runs) = runs.flatMap givenOf := by
  unfold joinedWithLast
  cases hlast : runs.getLast? with
  | none =>
    rw [List.getLast?_eq_none_iff.mp hlast]
    rfl
  | some last =>
    have hruns : runs.dropLast ++ [last] = runs := List.dropLast_append_getLast? last hlast
    conv_rhs => rw [← hruns]
    dsimp only
    split_ifs with hempty
    · simp [List.isEmpty_iff.mp hempty]
    · simp

@[simp]
theorem givenOf_sentence (runs : List (List Piece)) :
    givenOf (sentence runs) = runs.flatMap givenOf := by
  unfold sentence
  split_ifs with hempty
  · rw [List.isEmpty_iff.mp hempty]
    rfl
  · simp

@[simp]
theorem givenOf_givenRun (text : Option String) :
    (givenRun text).flatMap givenOf = text.toList := by
  cases text <;> simp [givenRun]

@[simp]
theorem givenOf_formRun {α : Type} (form : α → String) (value : Option α) :
    (formRun form value).flatMap givenOf = [] := by
  cases value <;> simp [formRun]

@[simp]
theorem givenOf_yearPieces (year : Option String) : givenOf (yearPieces year) = year.toList := by
  cases year <;> rfl

@[simp]
theorem givenOf_placePieces (container : Option String) :
    givenOf (placePieces container) = container.toList := by
  cases container <;> rfl

/-! ### Authors -/

@[simp]
theorem givenOf_givenWords (text : String) : givenOf (givenWords text) = Text.wordsOf text := by
  simp [givenWords, List.flatMap_map]

theorem words_of_fullName {n : PersonalName} (h : t ∈ givenOf (fullName n)) : t ∈ n.words := by
  unfold fullName at h
  unfold PersonalName.words
  cases hgiven : n.given <;> simp_all [or_comm]

theorem words_of_invertedName {n : PersonalName} (h : t ∈ givenOf (invertedName n)) :
    t ∈ n.words := by
  unfold invertedName at h
  unfold PersonalName.words
  cases hgiven : n.given <;> simp_all

theorem words_of_authorPieces {g : Guide} {names : List PersonalName}
    (h : t ∈ givenOf (authorPieces g names)) : ∃ n ∈ names, t ∈ n.words := by
  cases g with
  | mla9 =>
    match names, h with
    | [only], h => exact ⟨only, List.mem_cons_self, words_of_invertedName h⟩
    | [first, second], h =>
      have h : t ∈ givenOf (invertedName first) ∨ t ∈ givenOf (fullName second) := by
        simpa [authorPieces] using h
      rcases h with h | h
      · exact ⟨first, List.mem_cons_self, words_of_invertedName h⟩
      · exact ⟨second, by simp, words_of_fullName h⟩
    | first :: second :: third :: rest, h =>
      have h : t ∈ givenOf (invertedName first) := by simpa [authorPieces] using h
      exact ⟨first, List.mem_cons_self, words_of_invertedName h⟩
  | house =>
    have h : t ∈ (names.map fullName).flatMap givenOf := by simpa [authorPieces] using h
    obtain ⟨ps, hps, ht⟩ := List.mem_flatMap.mp h
    obtain ⟨n, hn, rfl⟩ := List.mem_map.mp hps
    exact ⟨n, hn, words_of_fullName ht⟩

/-! ### Works -/

theorem texts_of_container (h : t ∈ w.container?) : t ∈ w.texts := by
  obtain ⟨id, authors, title, year, url, details⟩ := w
  cases details <;> simp_all [Work.container?, Work.texts, WorkDetails.texts]

theorem texts_of_mla9Runs (h : t ∈ (mla9Runs w).flatMap givenOf) : t ∈ w.texts := by
  obtain ⟨id, authors, title, year, url, details⟩ := w
  rw [mla9Runs, List.flatMap_append, givenOf_givenRun] at h
  cases details with
  | videogame publisher platform =>
    cases platform <;> simp [Work.texts, WorkDetails.texts] at h ⊢ <;> tauto
  | _ =>
    simp only [List.flatMap_append, List.flatMap_cons, List.flatMap_nil, givenOf_givenRun,
      givenOf_formRun] at h
    simp [Work.texts, WorkDetails.texts] at h ⊢
    tauto

theorem texts_of_houseRuns (h : t ∈ (houseRuns w).flatMap givenOf) : t ∈ w.texts := by
  have hissue (volume issue : Option Nat) : (if volume.isNone && issue.isNone then []
      else [[Piece.form (issueText volume issue)]]).flatMap givenOf = [] := by
    split_ifs <;> rfl
  obtain ⟨id, authors, title, year, url, details⟩ := w
  rw [houseRuns, List.flatMap_append, List.flatMap_append, givenOf_givenRun, givenOf_formRun] at h
  cases details with
  | _ =>
    simp only [List.flatMap_append, List.flatMap_cons, List.flatMap_nil, givenOf_givenRun,
      givenOf_formRun, hissue] at h
    simp [Work.texts, WorkDetails.texts] at h ⊢
    tauto

/-- What a layout gives is a text of the work or a word of an author. -/
theorem givenOf_layout {g : Guide} (h : t ∈ givenOf (layout g w)) :
    t ∈ w.texts ∨ ∃ n ∈ w.authors, t ∈ n.words := by
  have htitle : w.title ∈ w.texts := List.mem_cons_self
  cases g with
  | mla9 =>
    simp only [layout, mla9Layout, givenOf_append, List.mem_append, givenOf_sentence,
      List.flatMap_append, givenOf_givenRun, Option.mem_toList] at h
    rcases h with ((hauthors | hown) | hplace | hdetails) | haccess
    · split_ifs at hauthors
      · cases hauthors
      · exact .inr (words_of_authorPieces (by simpa using hauthors))
    · have hown : t = w.title := by split_ifs at hown <;> simpa using hown
      exact .inl (hown ▸ htitle)
    · exact .inl (texts_of_container hplace)
    · exact .inl (texts_of_mla9Runs hdetails)
    · cases hdate : accessed? w <;> simp [hdate] at haccess
  | house =>
    simp only [layout, houseLayout, givenOf_append, List.mem_append, givenOf_sentence,
      givenOf_placePieces, Option.mem_toList] at h
    rcases h with (hhead | hplace) | hdetails
    · have hhead : t ∈ givenOf (authorPieces .house w.authors) ∨ w.year = some t ∨ t = w.title := by
        split_ifs at hhead <;> simp at hhead <;> tauto
      rcases hhead with hauthors | hyear | hown
      · exact .inr (words_of_authorPieces hauthors)
      · exact .inl (by simp [Work.texts, hyear])
      · exact .inl (hown ▸ htitle)
    · exact .inl (texts_of_container hplace)
    · exact .inl (texts_of_houseRuns hdetails)

end

end Entry

namespace Work

section

variable {s : Source} {w : Work} {t : String}

/-- What a source has under a keyword. -/
theorem says_of_get {k : Keyword} {l : Literal} (h : s.get k = some l) : s.Says l.trimmed :=
  .inr ⟨k, l, h, rfl⟩

theorem says_of_optional {k : Keyword} {field : Option Literal} (hfield : s.get k = field)
    (h : t ∈ (field.map (·.trimmed)).toList) : s.Says t := by
  obtain ⟨l, rfl, rfl⟩ := Option.map_eq_some_iff.mp (Option.mem_toList.mp h)
  exact says_of_get hfield

/-- The values that only works of one kind have come from fields. -/
theorem says_of_detailsOf {details : WorkDetails} (h : detailsOf s = .ok details)
    (ht : t ∈ details.texts) : s.Says t := by
  cases hkind : s.kind with
  | book =>
    obtain ⟨publisher, _, hs, -, rfl⟩ := of_detailsOf_book hkind h
    obtain rfl := List.mem_singleton.mp ht
    exact says_of_get (k := .publisher) hs
  | music =>
    obtain rfl := of_detailsOf_music hkind h
    rcases List.mem_append.mp ht with ht | ht
    · exact says_of_optional (k := .album) rfl ht
    · exact says_of_optional (k := .label) rfl ht
  | periodical =>
    obtain ⟨journal, _, _, _, _, hs, -, -, -, -, rfl⟩ := of_detailsOf_periodical hkind h
    obtain rfl := List.mem_singleton.mp ht
    exact says_of_get (k := .journal) hs
  | poem =>
    obtain ⟨_, _, -, -, rfl⟩ := of_detailsOf_poem hkind h
    rcases List.mem_append.mp ht with ht | ht
    · exact says_of_optional (k := .container) rfl ht
    · exact says_of_optional (k := .publisher) rfl ht
  | videogame =>
    obtain ⟨publisher, hs, rfl⟩ := of_detailsOf_videogame hkind h
    rcases List.mem_cons.mp ht with rfl | ht
    · exact says_of_get (k := .publisher) hs
    · exact says_of_optional (k := .platform) rfl ht
  | webpage =>
    obtain ⟨_, -, rfl⟩ := of_detailsOf_webpage hkind h
    exact says_of_optional (k := .website) rfl ht

/-- The texts of a work come from the fields of its source. -/
theorem says_of_texts (h : ofSource s = .ok w) (ht : t ∈ w.texts) : s.Says t := by
  obtain ⟨title, details, htitle, hdetails, rfl⟩ := of_ofSource h
  simp only [texts, List.mem_cons, List.mem_append] at ht
  rcases ht with rfl | (hyear | hurl) | hown
  · exact says_of_get (k := .title) htitle
  · exact says_of_optional (k := .year) rfl hyear
  · exact says_of_optional (k := .url) rfl hurl
  · exact says_of_detailsOf hdetails hown

end

end Work

namespace PersonalName

variable {text t : String}

/-- The given names that were read off a text are words. -/
theorem worded_ofText (text : String) : Entry.Worded (ofText text) := by
  intro given hgiven
  unfold ofText at hgiven
  cases hlast : (Text.wordsOf text).getLast? with
  | none => simp [hlast] at hgiven
  | some surname =>
    simp only [hlast, Option.mem_def] at hgiven
    split_ifs at hgiven
    refine ⟨(Text.wordsOf text).dropLast, ?_, (Option.some.inj hgiven).symm⟩
    intro t ht
    exact (Typeset.of_mem_wordsOf (List.dropLast_subset _ ht)).1

/-- A word of a name stands in the text that the name was read off. -/
theorem infix_of_words (h : t ∈ (ofText text).words) : t.toList <:+: (Text.trim text).toList := by
  have hfront : ∀ u ∈ (Text.wordsOf text).dropLast, u ∈ Text.wordsOf text :=
    fun u hu => List.dropLast_subset _ hu
  unfold ofText at h
  cases hlast : (Text.wordsOf text).getLast? with
  | none =>
    have ht : t = "" := by simpa [hlast, words] using h
    rw [ht]
    exact List.nil_infix
  | some surname =>
    have hword : t ∈ Text.wordsOf text := by
      simp only [hlast, words, List.mem_cons] at h
      rcases h with rfl | h
      · exact List.mem_of_getLast? hlast
      · split_ifs at h
        · cases h
        · -- the given names were joined from words, and are cut into the same words
          rw [Option.elim_some, Typeset.wordsOf_joinWith fun u hu =>
            (Typeset.of_mem_wordsOf (hfront u hu)).1] at h
          exact hfront t h
    exact (Typeset.of_mem_wordsOf hword).2

end PersonalName

/-- What the layout of an entry gives stands in a value of the source. -/
theorem Source.says_of_layout {s : Source} {w : Work} {g : Guide} {t : String}
    (h : Work.ofSource s = .ok w) (ht : .given t ∈ Entry.layout g w) : s.Says t := by
  rcases Entry.givenOf_layout (Entry.mem_givenOf.mpr ht) with htext | ⟨n, hn, hword⟩
  · exact Work.says_of_texts h htext
  · obtain ⟨_, _, -, -, rfl⟩ := Work.of_ofSource h
    obtain ⟨l, hl, rfl⟩ := List.mem_map.mp hn
    exact .inl ⟨l, hl, PersonalName.infix_of_words hword⟩

end Manuscript
