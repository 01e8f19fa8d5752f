import Mathlib.Data.List.Chain
import Mathlib.Data.List.Forall2
import Manuscript.Typeset.Span

/-!
# What merging does to the spans of an emphasis

Merging leaves out the spans without a text and puts neighbours of equal emphasis together. The
texts of an emphasis stay in their order, but two of them that stand side by side become one.

* `Gathered`: texts that are printed in groups of one or more.
* `contacts`: how often two marks stand side by side; `SameContacts` says that lists have the same
  contacts wherever they stand.
* `styled_merge`: merging leaves every character in its emphasis.
* `isChain_merge`: neighbours differ in emphasis then.
* `gathered_merge`: merging prints the texts of an emphasis in groups.
* `length_merge`: every contact leaves one text less.
-/

namespace Manuscript

/-! ## Groups of texts -/

/-- The second texts are the first ones, in order, joined in groups of one or more. -/
inductive Gathered : List String → List String → Prop where
  | nil : Gathered [] []
  | cons {group texts printed : List String} (hgroup : group ≠ [])
      (hrest : Gathered texts printed) : Gathered (group ++ texts) (String.join group :: printed)

namespace Gathered

variable {texts printed us vs : List String} {t u : String}

theorem join_cons (t : String) (ts : List String) :
    String.join (t :: ts) = t ++ String.join ts := by
  apply String.toList_injective
  rw [String.toList_append, String.toList_join, String.toList_join, List.flatMap_cons]

theorem join_singleton (t : String) : String.join [t] = t := by
  rw [join_cons]
  exact String.append_empty

/-- A text that is a group of its own. -/
theorem single (t : String) (h : Gathered texts printed) :
    Gathered (t :: texts) (t :: printed) := by
  have hgroup : Gathered ([t] ++ texts) (String.join [t] :: printed) := cons (by simp) h
  rwa [join_singleton] at hgroup

/-- A text that joins the first group. -/
theorem extend (t : String) (h : Gathered texts (u :: printed)) :
    Gathered (t :: texts) ((t ++ u) :: printed) := by
  cases h with
  | @cons group rest _ hgroup hrest =>
    rw [← join_cons, ← List.cons_append]
    exact cons (by simp) hrest

theorem append (h : Gathered texts printed) (h' : Gathered us vs) :
    Gathered (texts ++ us) (printed ++ vs) := by
  induction h with
  | nil => exact h'
  | cons hgroup _ ih =>
    rw [List.append_assoc]
    exact cons hgroup ih

theorem length_le (h : Gathered texts printed) : printed.length ≤ texts.length := by
  induction h with
  | nil => exact Nat.le_refl 0
  | cons hgroup _ ih =>
    have hpos := List.length_pos_iff.mpr hgroup
    rw [List.length_append, List.length_cons]
    omega

/-- With as many groups as texts every text is a group of its own. -/
theorem eq_of_length (h : Gathered texts printed) (hlength : printed.length = texts.length) :
    printed = texts := by
  induction h with
  | nil => rfl
  | @cons group _ _ hgroup hrest ih =>
    have hle := hrest.length_le
    have hpos := List.length_pos_iff.mpr hgroup
    rw [List.length_append, List.length_cons] at hlength
    have hone : group.length = 1 := by omega
    obtain ⟨t, rfl⟩ := List.length_eq_one_iff.mp hone
    rw [ih (by omega), join_singleton]
    rfl

/-- Texts are printed one by one if their parts are. -/
theorem append_eq_iff (h : Gathered texts printed) (h' : Gathered us vs) :
    printed ++ vs = texts ++ us ↔ printed = texts ∧ vs = us := by
  constructor
  · intro heq
    have hlength := congrArg List.length heq
    have hle := h.length_le
    have hle' := h'.length_le
    rw [List.length_append, List.length_append] at hlength
    exact ⟨h.eq_of_length (by omega), h'.eq_of_length (by omega)⟩
  · rintro ⟨rfl, rfl⟩
    rfl

/-- Nothing is printed of nothing. -/
theorem eq_nil (h : Gathered [] printed) : printed = [] :=
  List.length_eq_zero_iff.mp (Nat.le_zero.mp h.length_le)

end Gathered

/-! ## Contacts -/

/-- How often two marks stand side by side. -/
def contacts : List Bool → Nat
  | [] => 0
  | b :: rest => (if b = true ∧ rest.head? = some true then 1 else 0) + contacts rest

/-- There are no contacts if no mark stands behind another. -/
theorem contacts_eq_zero_iff {α : Type} (f : α → Bool) (l : List α) :
    contacts (l.map f) = 0 ↔ l.IsChain fun a b => ¬ (f a = true ∧ f b = true) := by
  induction l with
  | nil => simp [contacts]
  | cons a rest ih =>
    cases rest with
    | nil => simp [contacts]
    | cons b rest =>
      rw [List.isChain_cons_cons, ← ih]
      simp [contacts]

/-- Something between two lists keeps their marks apart. -/
theorem contacts_append_false (l m : List Bool) :
    contacts (l ++ false :: m) = contacts l + contacts m := by
  induction l with
  | nil => simp [contacts]
  | cons b rest ih =>
    have hhead : (rest ++ false :: m).head? = some true ↔ rest.head? = some true := by
      cases rest <;> simp
    simp only [List.cons_append, contacts, ih, hhead, Nat.add_assoc]

/-- The lists have the same contacts wherever they stand. -/
def SameContacts (l m : List Bool) : Prop :=
  ∀ before after, contacts (before ++ m ++ after) = contacts (before ++ l ++ after)

namespace SameContacts

variable {l m k l' m' : List Bool}

theorem refl (l : List Bool) : SameContacts l l := fun _ _ => rfl

theorem trans (h : SameContacts l m) (h' : SameContacts m k) : SameContacts l k :=
  fun before after => (h' before after).trans (h before after)

theorem append (h : SameContacts l m) (h' : SameContacts l' m') :
    SameContacts (l ++ l') (m ++ m') := by
  intro before after
  have hfirst := h before (m' ++ after)
  have hsecond := h' (before ++ l) after
  simp only [List.append_assoc] at hfirst hsecond ⊢
  exact hfirst.trans hsecond

/-- One more item that is no mark, next to another, is in no contact. -/
theorem pad : SameContacts [false] [false, false] := by
  intro before after
  simp only [List.append_assoc, List.cons_append, List.nil_append]
  rw [contacts_append_false, contacts_append_false]
  simp [contacts]

theorem contacts_eq (h : SameContacts l m) : contacts m = contacts l := by
  have hnone := h [] []
  rwa [List.nil_append, List.nil_append, List.append_nil, List.append_nil] at hnone

end SameContacts

/-! ## Spans of an emphasis -/

namespace Span

/-- The texts of the spans of an emphasis, in order. -/
def textsOf (e : Emphasis) (spans : List Span) : List String :=
  (spans.filter fun s => s.emphasis == e).map Span.text

/-- The spans that have a text. -/
def shown (spans : List Span) : List Span := spans.filter fun s => !s.text.isEmpty

/-- Which of some spans are of an emphasis. -/
def marks (e : Emphasis) (spans : List Span) : List Bool := spans.map fun s => s.emphasis == e

section

variable {e : Emphasis} {s : Span} {spans : List Span}

@[simp]
theorem textsOf_nil (e : Emphasis) : textsOf e [] = [] := rfl

theorem textsOf_cons_of_eq (h : s.emphasis = e) :
    textsOf e (s :: spans) = s.text :: textsOf e spans := by
  simp [textsOf, h]

theorem textsOf_cons_of_ne (h : s.emphasis ≠ e) : textsOf e (s :: spans) = textsOf e spans := by
  simp [textsOf, h]

@[simp]
theorem textsOf_append (e : Emphasis) (spans others : List Span) :
    textsOf e (spans ++ others) = textsOf e spans ++ textsOf e others := by
  simp [textsOf]

theorem textsOf_cons (e : Emphasis) (s : Span) (spans : List Span) :
    textsOf e (s :: spans) = textsOf e [s] ++ textsOf e spans := by
  rw [← textsOf_append]
  rfl

theorem textsOf_eq_nil_iff : textsOf e spans = [] ↔ ∀ s ∈ spans, s.emphasis ≠ e := by
  simp [textsOf, List.filter_eq_nil_iff]

theorem shown_append (spans others : List Span) :
    shown (spans ++ others) = shown spans ++ shown others := List.filter_append ..

theorem marks_append (e : Emphasis) (spans others : List Span) :
    marks e (spans ++ others) = marks e spans ++ marks e others := List.map_append

/-- The shown texts of an emphasis, item by item. -/
theorem textsOf_shown_flatMap {α : Type} (e : Emphasis) (f : α → List Span) (items : List α) :
    textsOf e (shown (items.flatMap f)) = items.flatMap fun a => textsOf e (shown (f a)) := by
  induction items with
  | nil => rfl
  | cons a rest ih =>
    rw [List.flatMap_cons, shown_append, textsOf_append, ih, List.flatMap_cons]

theorem shown_cons_of_isEmpty (h : s.text.isEmpty = true) : shown (s :: spans) = shown spans := by
  simp [shown, h]

theorem shown_cons_of_not_isEmpty (h : ¬ s.text.isEmpty = true) :
    shown (s :: spans) = s :: shown spans := by
  simp [shown, h]

/-- Nothing is left out where every span has a text. -/
theorem shown_eq_self (h : ∀ s ∈ spans, s.text.isEmpty = false) : shown spans = spans := by
  apply List.filter_eq_self.mpr
  intro s hs
  rw [h s hs]
  rfl

/-! ## Characters -/

/-- The characters of spans. -/
def chars (spans : List Span) : List Char := spans.flatMap fun s => s.text.toList

theorem toList_plainText (spans : List Span) : (plainText spans).toList = chars spans := by
  unfold plainText chars
  rw [String.toList_join, List.flatMap_map]

@[simp]
theorem chars_nil : chars [] = [] := rfl

@[simp]
theorem chars_cons (s : Span) (spans : List Span) :
    chars (s :: spans) = s.text.toList ++ chars spans := rfl

@[simp]
theorem chars_append (spans others : List Span) :
    chars (spans ++ others) = chars spans ++ chars others := List.flatMap_append

/-- The characters of spans, each with its emphasis. -/
def styled (spans : List Span) : List (Char × Emphasis) :=
  spans.flatMap fun s => s.text.toList.map fun c => (c, s.emphasis)

@[simp]
theorem styled_nil : styled [] = [] := rfl

@[simp]
theorem styled_cons (s : Span) (spans : List Span) :
    styled (s :: spans) = s.text.toList.map (fun c => (c, s.emphasis)) ++ styled spans := rfl

@[simp]
theorem styled_append (spans others : List Span) :
    styled (spans ++ others) = styled spans ++ styled others := List.flatMap_append

theorem map_fst_styled (spans : List Span) : (styled spans).map Prod.fst = chars spans := by
  induction spans with
  | nil => rfl
  | cons s rest ih =>
    rw [styled_cons, List.map_append, ih, List.map_map, chars_cons]
    congr 1
    exact List.map_id _

theorem styled_mergeInto (s : Span) (spans : List Span) :
    styled (mergeInto s spans) = styled (s :: spans) := by
  unfold mergeInto
  split
  · rfl
  · split_ifs with h
    · simp [h]
    · rfl

/-- Merging spans leaves every character in its emphasis. -/
theorem styled_merge (spans : List Span) : styled (merge spans) = styled spans := by
  induction spans with
  | nil => rfl
  | cons s spans ih =>
    unfold merge
    split_ifs with hempty
    · have hs : s.text = "" := String.isEmpty_iff.mp hempty
      rw [ih, styled_cons, hs]
      rfl
    · rw [styled_mergeInto, styled_cons, ih, styled_cons]

/-- Merging spans leaves their text as it is. -/
theorem chars_merge (spans : List Span) : chars (merge spans) = chars spans := by
  rw [← map_fst_styled, styled_merge, map_fst_styled]

/-! ## Merging -/

/-- Merging with spans of other emphases leaves the texts of an emphasis as they are. -/
theorem textsOf_mergeInto_of_ne (h : s.emphasis ≠ e) :
    textsOf e (mergeInto s spans) = textsOf e spans := by
  cases spans with
  | nil => exact textsOf_cons_of_ne h
  | cons t rest =>
    rw [mergeInto]
    split_ifs with ht
    · rw [textsOf_cons_of_ne (s := t) (ht ▸ h)]
      exact textsOf_cons_of_ne h
    · exact textsOf_cons_of_ne h

/-- A span that is merged joins the group of the next one, or begins a group. -/
theorem gathered_mergeInto {texts : List String} (hs : s.emphasis = e)
    (h : Gathered texts (textsOf e spans)) :
    Gathered (s.text :: texts) (textsOf e (mergeInto s spans)) := by
  cases spans with
  | nil =>
    unfold mergeInto
    rw [textsOf_cons_of_eq hs]
    exact h.single s.text
  | cons t rest =>
    rw [mergeInto]
    split_ifs with ht
    · have hmerged : (⟨s.text ++ t.text, s.emphasis⟩ : Span).emphasis = e := hs
      rw [textsOf_cons_of_eq (ht.symm.trans hs)] at h
      rw [textsOf_cons_of_eq hmerged]
      exact h.extend s.text
    · rw [textsOf_cons_of_eq hs]
      exact h.single s.text

/-- Merging prints the texts of an emphasis in groups. -/
theorem gathered_merge (e : Emphasis) (spans : List Span) :
    Gathered (textsOf e (shown spans)) (textsOf e (merge spans)) := by
  induction spans with
  | nil => exact .nil
  | cons s rest ih =>
    unfold merge
    by_cases hs : s.text.isEmpty = true
    · rw [if_pos hs, shown_cons_of_isEmpty hs]
      exact ih
    · rw [if_neg hs, shown_cons_of_not_isEmpty hs]
      by_cases he : s.emphasis = e
      · rw [textsOf_cons_of_eq he]
        exact gathered_mergeInto he ih
      · rw [textsOf_cons_of_ne he, textsOf_mergeInto_of_ne he]
        exact ih

/-- Merging gives no span an emphasis that none had. -/
theorem emphasis_merge (h : ∀ s ∈ spans, s.emphasis ≠ e) : ∀ s ∈ merge spans, s.emphasis ≠ e := by
  have hshown : textsOf e (shown spans) = [] :=
    textsOf_eq_nil_iff.mpr fun s hs => h s (List.mem_of_mem_filter hs)
  have hmerge := gathered_merge e spans
  rw [hshown] at hmerge
  exact textsOf_eq_nil_iff.mp hmerge.eq_nil

/-- The first merged span has the emphasis of the first span that is shown. -/
theorem head?_marks_merge (e : Emphasis) (spans : List Span) :
    (marks e (merge spans)).head? = (marks e (shown spans)).head? := by
  induction spans with
  | nil => rfl
  | cons s rest ih =>
    unfold merge
    by_cases hs : s.text.isEmpty = true
    · rw [if_pos hs, shown_cons_of_isEmpty hs]
      exact ih
    · rw [if_neg hs, shown_cons_of_not_isEmpty hs]
      unfold mergeInto
      split
      · rfl
      · split_ifs <;> rfl

/-- A span that is merged adds a text, unless it is in contact with the next one. -/
theorem length_mergeInto (e : Emphasis) (s : Span) (spans : List Span) :
    (textsOf e (mergeInto s spans)).length
        + (if (s.emphasis == e) = true ∧ (marks e spans).head? = some true then 1 else 0)
      = (textsOf e (s :: spans)).length := by
  cases spans with
  | nil => simp [mergeInto, marks]
  | cons t rest =>
    unfold mergeInto
    by_cases ht : s.emphasis = t.emphasis <;> by_cases hs : s.emphasis = e
    · have hte : t.emphasis = e := ht.symm.trans hs
      simp [textsOf, marks, hs, hte]
    · have hte : t.emphasis ≠ e := fun h => hs (ht.trans h)
      simp [textsOf, marks, hte, ht]
    · have hte : t.emphasis ≠ e := fun h => ht (hs.trans h.symm)
      simp [textsOf, marks, hs, hte, Ne.symm hte]
    · simp [textsOf, marks, hs, ht]

/-- Every contact of two texts that are merged leaves one text less. -/
theorem length_merge (e : Emphasis) (spans : List Span) :
    (textsOf e (merge spans)).length + contacts (marks e (shown spans))
      = (textsOf e (shown spans)).length := by
  induction spans with
  | nil => rfl
  | cons s rest ih =>
    unfold merge
    by_cases hs : s.text.isEmpty = true
    · rw [if_pos hs, shown_cons_of_isEmpty hs]
      exact ih
    · rw [if_neg hs, shown_cons_of_not_isEmpty hs]
      have hinto := length_mergeInto e s (merge rest)
      rw [head?_marks_merge] at hinto
      have hcontacts : contacts (marks e (s :: shown rest))
          = (if (s.emphasis == e) = true ∧ (marks e (shown rest)).head? = some true then 1 else 0)
            + contacts (marks e (shown rest)) := rfl
      rw [textsOf_cons, List.length_append] at hinto ⊢
      omega

/-! ## What is merged -/

theorem isEmpty_mergeInto (hs : s.text.isEmpty = false) (h : ∀ t ∈ spans, t.text.isEmpty = false) :
    ∀ t ∈ mergeInto s spans, t.text.isEmpty = false := by
  cases spans with
  | nil => exact List.forall_mem_singleton.mpr hs
  | cons t rest =>
    rw [mergeInto]
    split_ifs
    · have hmerged : (s.text ++ t.text).isEmpty = false := by
        rw [Bool.eq_false_iff] at hs ⊢
        simp only [ne_eq, String.isEmpty_iff, String.append_eq_empty_iff] at hs ⊢
        exact fun hboth => hs hboth.1
      exact List.forall_mem_cons.mpr ⟨hmerged, (List.forall_mem_cons.mp h).2⟩
    · exact List.forall_mem_cons.mpr ⟨hs, h⟩

/-- Every merged span has a text. -/
theorem isEmpty_merge (spans : List Span) : ∀ s ∈ merge spans, s.text.isEmpty = false := by
  induction spans with
  | nil => exact List.forall_mem_nil _
  | cons s rest ih =>
    unfold merge
    split_ifs with hs
    · exact ih
    · exact isEmpty_mergeInto (Bool.eq_false_iff.mpr hs) ih

theorem isChain_mergeInto (s : Span) (h : spans.IsChain fun s t => s.emphasis ≠ t.emphasis) :
    (mergeInto s spans).IsChain fun s t => s.emphasis ≠ t.emphasis := by
  cases spans with
  | nil => exact .singleton s
  | cons t rest =>
    rw [mergeInto]
    split_ifs with hst
    · -- the merged span has the emphasis of the one whose place it takes
      rw [List.isChain_cons] at h ⊢
      exact ⟨fun u hu => hst ▸ h.1 u hu, h.2⟩
    · exact .cons_cons hst h

/-- No two merged spans that stand side by side have the same emphasis. -/
theorem isChain_merge (spans : List Span) :
    (merge spans).IsChain fun s t => s.emphasis ≠ t.emphasis := by
  induction spans with
  | nil => exact .nil
  | cons s rest ih =>
    unfold merge
    split_ifs
    · exact ih
    · exact isChain_mergeInto s ih

end

end Span

end Manuscript
