import Mathlib.Tactic.IntervalCases
import Manuscript.Citation.Entry
import Manuscript.Proofs.Specification.Records
import Manuscript.Proofs.Text.Trimming
import Manuscript.Proofs.Typeset.Merging
import Manuscript.Proofs.Validation.Acceptance

/-!
# What the bibliography prints of a source

An entry of the bibliography is put together from the values of a work, with marks of punctuation
between them. The spans of an entry are trimmed and merged in the end; a value survives because a
mark stands somewhere behind it.

* `Shows cs piece`: the piece stands in the characters, with a visible character behind it.
* `Entry.mla9_prints`, `Entry.house_prints`: the title, the larger work and every detail stand in
  the text of the entry.
* `Source.tells_of_check`: every field of a source is told by some value of its work.
* `Source.printed_of_check`: a source that passes its check has an entry that prints every field
  its kind accepts, but for the edition of a poem in the house form.
* `Entry.house_of_poem_edition`: the house form of a poem does not depend on the edition.
-/

namespace Manuscript

open Manuscript.Character (isBlank)

/-! ## Pieces of a text -/

/-- The piece stands in the characters, and a visible character stands somewhere behind it. -/
def Shows (cs piece : List Char) : Prop :=
  ∃ before after, cs = before ++ piece ++ after ∧ ∃ c ∈ after, isBlank c = false

section Shows

variable {cs ds piece : List Char}

theorem Shows.append_left (h : Shows cs piece) (bs : List Char) : Shows (bs ++ cs) piece := by
  obtain ⟨before, after, rfl, hmark⟩ := h
  exact ⟨bs ++ before, after, by simp only [List.append_assoc], hmark⟩

theorem Shows.append_right (h : Shows cs piece) (ds : List Char) : Shows (cs ++ ds) piece := by
  obtain ⟨before, after, rfl, c, hc, hvisible⟩ := h
  exact ⟨before, after ++ ds, by simp only [List.append_assoc], c, List.mem_append_left _ hc,
    hvisible⟩

/-- A mark behind the characters that hold a piece. -/
theorem shows_before {mark : Char} (h : piece <:+: cs) (hmark : isBlank mark = false)
    (rest : List Char) : Shows (cs ++ mark :: rest) piece := by
  obtain ⟨before, after, rfl⟩ := h
  refine ⟨before, after ++ mark :: rest, by simp only [List.append_assoc], mark, ?_, hmark⟩
  exact List.mem_append_right _ List.mem_cons_self

/-- White space that is taken off the end stands behind the mark. -/
theorem Shows.infix_of_blanks {blanks : List Char} (h : Shows (cs ++ blanks) piece)
    (hblanks : ∀ c ∈ blanks, isBlank c = true) : piece <:+: cs := by
  obtain ⟨before, after, heq, c, hc, hvisible⟩ := h
  rcases List.append_eq_append_iff.mp heq with ⟨rest, hpiece, hafter⟩ | ⟨rest, hcs, hafter⟩
  · -- the mark would be among the blanks
    have hblank : isBlank c = true := by
      apply hblanks
      rw [hafter]
      exact List.mem_append_right _ hc
    rw [hvisible] at hblank
    cases hblank
  · exact ⟨before, rest, hcs.symm⟩

end Shows

/-- One of joined texts. -/
theorem Text.infix_joinWith {separator text : String} {texts : List String} (h : text ∈ texts) :
    text.toList <:+: (Text.joinWith separator texts).toList := by
  fun_induction Text.joinWith separator texts with
  | case1 => cases h
  | case2 s =>
    obtain rfl := List.mem_singleton.mp h
    exact List.infix_refl _
  | case3 s t rest ih =>
    rw [String.toList_append, String.toList_append]
    rcases List.mem_cons.mp h with rfl | h
    · exact ⟨[], separator.toList ++ (Text.joinWith separator (t :: rest)).toList, by simp⟩
    · exact (ih h).trans (List.suffix_append _ _).isInfix

namespace Entry

open Manuscript.Span (chars)

/-- Only white space is taken off the end of spans. -/
theorem chars_trimEnd (spans : List Span) :
    ∃ blanks, chars spans = chars (trimEnd spans) ++ blanks ∧ ∀ c ∈ blanks, isBlank c = true := by
  unfold trimEnd
  cases hlast : spans.getLast? with
  | none =>
    rw [List.getLast?_eq_none_iff.mp hlast]
    exact ⟨[], rfl, nofun⟩
  | some last =>
    obtain ⟨blanks, hsplit, hblanks⟩ := Text.trimRight_append isBlank last.text.toList
    refine ⟨blanks, ?_, hblanks⟩
    have hspans : spans = spans.dropLast ++ [last] :=
      (List.dropLast_append_getLast? last hlast).symm
    have hchars : chars spans = chars spans.dropLast ++ last.text.toList := by
      conv_lhs => rw [hspans]
      simp
    rw [hchars]
    conv_lhs => rw [hsplit]
    simp

/-- What stands in spans, with a mark behind it, still stands in them when they are trimmed and
merged. -/
theorem infix_trimEnd {spans : List Span} {piece : List Char} (h : Shows (chars spans) piece) :
    piece <:+: (Span.plainText (Span.merge (trimEnd spans))).toList := by
  rw [Span.toList_plainText, Span.chars_merge]
  obtain ⟨blanks, hsplit, hblanks⟩ := chars_trimEnd spans
  rw [hsplit] at h
  exact h.infix_of_blanks hblanks

/-! ## What an entry prints of a work -/

/-- The details of a work, in the form of a guide. -/
def details : Guide → Work → List String
  | .mla9, w => mla9Details w
  | .house, w => houseDetails w

/-- The date of access in the form of a guide. -/
def accessText : Guide → Date → String
  | .mla9, d => "Accessed " ++ Guide.date .mla9 d
  | .house, d => "accessed " ++ Guide.date .house d

/-- What an entry prints of a work besides its authors. -/
def values (g : Guide) (w : Work) : List String :=
  w.title :: (w.container?.toList ++ w.year.toList ++ details g w
    ++ (accessed? w).toList.map (accessText g))

section

variable {w : Work} {piece : String}

/-- A text with a full stop shows the text if another mark follows. -/
theorem shows_withStop {mark : Char} (hmark : isBlank mark = false) (text : String)
    (rest : List Char) : Shows ((withStop text).toList ++ mark :: rest) text.toList := by
  apply shows_before _ hmark
  unfold withStop
  split
  · exact List.infix_refl _
  · rw [String.toList_append]
    exact (List.prefix_append _ _).isInfix

/-- Joined details with a full stop behind them. -/
theorem shows_joinWith {texts : List String} (h : piece ∈ texts) :
    Shows (Text.joinWith ", " texts ++ ".").toList piece.toList := by
  rw [String.toList_append]
  exact shows_before (Text.infix_joinWith h) (by decide) []

theorem shows_sentenceOf {texts : List String} (h : piece ∈ texts) :
    Shows (chars (sentenceOf texts)) piece.toList := by
  have hne : texts.isEmpty = false := List.isEmpty_eq_false_iff.mpr (List.ne_nil_of_mem h)
  unfold sentenceOf
  rw [hne, if_neg Bool.false_ne_true, Span.chars_cons]
  exact (shows_joinWith h).append_right _

/-- The larger work and the details, as they stand in the MLA form. -/
theorem shows_place {container : Option String} {texts : List String} :
    piece ∈ container ∨ piece ∈ texts → Shows (chars (match container with
      | some container =>
        [Span.italic container,
          Span.regular (if texts.isEmpty then "." else ", " ++ Text.joinWith ", " texts ++ ".")]
      | none => sentenceOf texts)) piece.toList := by
  intro h
  cases container with
  | none =>
    rcases h with h | h
    · cases h
    · exact shows_sentenceOf h
  | some c =>
    simp only [Span.chars_cons, Span.italic, Span.regular]
    rcases h with h | h
    · cases h
      cases texts.isEmpty
      · have htail : (", " ++ Text.joinWith ", " texts ++ ".").toList
            = ',' :: ' ' :: ((Text.joinWith ", " texts).toList ++ ['.']) := by simp
        rw [if_neg Bool.false_ne_true, htail]
        exact shows_before (List.infix_refl _) (by decide) _
      · rw [if_pos rfl]
        exact shows_before (List.infix_refl _) (by decide) _
    · have hne : texts.isEmpty = false := List.isEmpty_eq_false_iff.mpr (List.ne_nil_of_mem h)
      rw [hne, if_neg Bool.false_ne_true, String.append_assoc, String.toList_append]
      have hjoined := (shows_joinWith h).append_left ", ".toList
      exact (hjoined.append_right _).append_left _

/-- The year is one of the details of the MLA form, whatever the kind of the work. -/
theorem year_mem_mla9Details (h : piece ∈ w.year) : piece ∈ mla9Details w := by
  have hyear : piece ∈ w.year.toList := Option.mem_toList.mpr h
  unfold mla9Details
  cases w.details <;> simp [hyear]

/-- The MLA form prints the title, the larger work, the details and the date of access. -/
theorem mla9_prints (h : piece ∈ values .mla9 w) :
    piece.toList <:+: (ofWork .mla9 w).text.toList := by
  show _ <:+: (Span.plainText (Span.merge (mla9Spans w))).toList
  unfold mla9Spans
  apply infix_trimEnd
  simp only [Span.chars_append]
  simp only [values, List.mem_cons, List.mem_append, List.mem_map, Option.mem_toList] at h
  rcases h with rfl | ((hcontainer | hyear) | hdetail) | ⟨d, hd, rfl⟩
  · -- the title, in italics or in quotes
    apply Shows.append_right
    apply Shows.append_right
    apply Shows.append_left
    split
    · exact shows_before (List.infix_refl _) (by decide) _
    · have hquote : isBlank '"' = false := by decide
      have hshows := (shows_withStop hquote w.title [' ']).append_left ['"']
      simpa [Span.regular, String.toList_append] using hshows
  · exact ((shows_place (.inl hcontainer)).append_left _).append_right _
  · exact ((shows_place (.inr (year_mem_mla9Details hyear))).append_left _).append_right _
  · exact ((shows_place (.inr hdetail)).append_left _).append_right _
  · -- the date of access, in a sentence of its own
    apply Shows.append_left
    rw [hd]
    have hshows : Shows ((accessText .mla9 d).toList ++ ['.']) (accessText .mla9 d).toList :=
      shows_before (List.infix_refl _) (by decide) []
    simpa [Span.regular, String.toList_append, accessText] using hshows.append_left [' ']

/-- The date of access is one of the details of the house form. -/
theorem access_mem_houseDetails {d : Date} (h : d ∈ accessed? w) :
    accessText .house d ∈ houseDetails w := by
  rw [Option.mem_def] at h
  unfold houseDetails
  rw [h]
  exact List.mem_append_right _ (List.mem_singleton.mpr rfl)

/-- The house form prints the title, the year, the larger work and the details. -/
theorem house_prints (h : piece ∈ values .house w) :
    piece.toList <:+: (ofWork .house w).text.toList := by
  show _ <:+: (Span.plainText (Span.merge (houseSpans w))).toList
  unfold houseSpans
  apply infix_trimEnd
  simp only [Span.chars_append]
  simp only [values, List.mem_cons, List.mem_append, List.mem_map, Option.mem_toList] at h
  rcases h with rfl | ((hcontainer | hyear) | hdetail) | ⟨d, hd, rfl⟩
  · -- the title, in front of the year or behind it
    apply Shows.append_right
    apply Shows.append_right
    split
    · have htitle : w.title.toList <:+: w.title.toList
          ++ (w.year.elim "" fun y => " (" ++ y ++ ")").toList := (List.prefix_append _ _).isInfix
      have hstop : isBlank '.' = false := by decide
      have hshows := shows_before htitle hstop [' ']
      simpa [Span.regular, Span.italic] using hshows
    · have hshows : Shows (w.title.toList ++ ['.', ' ']) w.title.toList :=
        shows_before (List.infix_refl _) (by decide) [' ']
      simp only [Span.chars_cons]
      apply Shows.append_left
      split
      · exact hshows
      · exact hshows
  · -- the larger work
    apply Shows.append_right
    apply Shows.append_left
    rw [hcontainer]
    have hshows : Shows (piece.toList ++ ['.', ' ']) piece.toList :=
      shows_before (List.infix_refl _) (by decide) [' ']
    simpa [Span.regular, Span.italic] using hshows.append_left "In ".toList
  · -- the year, in parentheses
    apply Shows.append_right
    apply Shows.append_right
    rw [hyear]
    have hshows : Shows (piece.toList ++ [')']) piece.toList :=
      shows_before (List.infix_refl _) (by decide) []
    have hbehind (cs : List Char) : Shows (cs ++ " (".toList ++ piece.toList ++ ")".toList
        ++ ". ".toList) piece.toList := by
      simpa using (hshows.append_left (cs ++ " (".toList)).append_right ". ".toList
    split
    · simpa [Span.regular, Span.italic] using hbehind w.title.toList
    · apply Shows.append_right
      simpa [Span.regular] using hbehind (Guide.authorList .house w.authors).toList
  · exact (shows_sentenceOf hdetail).append_left _
  · exact (shows_sentenceOf (access_mem_houseDetails hd)).append_left _

/-- An entry prints every value of its work. -/
theorem ofWork_prints {g : Guide} (h : piece ∈ values g w) :
    piece.toList <:+: (ofWork g w).text.toList := by
  cases g with
  | mla9 => exact mla9_prints h
  | house => exact house_prints h

/-- The house form of a poem does not depend on the edition. -/
theorem house_of_poem_edition {container publisher : Option String} {edition other : Option Nat}
    {pages : Option PageSpan} (h : w.details = .poem container publisher edition pages) :
    (ofWork .house { w with details := .poem container publisher other pages }).text
      = (ofWork .house w).text := by
  cases w with
  | mk id authors title year url details =>
    cases h
    rfl

end

end Entry

/-! ## What an entry prints of a field -/

/-- The ending of an ordinal number: that of its last digit, but `th` from ten up to nineteen. -/
def ordinalEnding (n : Nat) : String :=
  if n / 10 % 10 = 1 then "th" else ["th", "st", "nd", "rd"].getD (n % 10) "th"

/-- An edition is printed as its numeral with the ending of an ordinal. -/
theorem editionText_eq (n : Nat) :
    Entry.editionText n = toString n ++ ordinalEnding n ++ " ed." := by
  have hlast : n % 10 < 10 := Nat.mod_lt n (by decide)
  have htens : n % 100 = 10 * (n / 10 % 10) + n % 10 := by omega
  unfold Entry.editionText Number.ordinal ordinalEnding
  dsimp only
  rw [htens]
  generalize n / 10 % 10 = tens
  generalize n % 10 = last at hlast
  congr 2
  by_cases hteen : tens = 1
  · -- from ten up to nineteen all endings are the same
    rw [hteen, if_pos rfl]
    interval_cases last <;> rfl
  · have hnone : ¬ (11 ≤ 10 * tens + last ∧ 10 * tens + last ≤ 13) := by omega
    rw [if_neg hteen, if_neg hnone]
    interval_cases last <;> rfl

/-- The form in which a field of a source is printed: texts without the white space at their ends,
and numbers by their decimal numerals. -/
def Guide.fieldText (g : Guide) (k : Keyword) (l : Literal) : Option String :=
  match k with
  | .volume => (Number.positive? l.trimmedChars).map fun n =>
    match g with
    | .mla9 => "vol. " ++ toString n
    | .house => toString n
  | .issue => (Number.positive? l.trimmedChars).map fun n =>
    match g with
    | .mla9 => "no. " ++ toString n
    | .house => "(" ++ toString n ++ ")"
  | .edition => (Number.positive? l.trimmedChars).map fun n =>
    toString n ++ ordinalEnding n ++ " ed."
  | .pages => (PageSpan.reader.read? l.value).map fun p =>
    if p.first = p.last then "p. " ++ toString p.first
    else "pp. " ++ toString p.first ++ "-" ++ toString p.last
  | .accessed => (Date.read? l.trimmedChars).map (Entry.accessText g)
  | _ => some l.trimmed

theorem Guide.fieldText_edition (g : Guide) {l : Literal} {n : Nat}
    (h : Number.positive? l.trimmedChars = some n) :
    g.fieldText .edition l = some (Entry.editionText n) := by
  rw [fieldText, h, editionText_eq]
  rfl

theorem Guide.fieldText_pages (g : Guide) {l : Literal} {p : PageSpan}
    (h : PageSpan.reader.read? l.value = some p) :
    g.fieldText .pages l = some (Entry.pageReference p) := by
  rw [fieldText, h]
  rfl

namespace Work

section

variable {s : Source} {w : Work} {l : Literal}

theorem of_required {field : Option Literal} {name text : String}
    (h : required s field name = .ok text) : ∃ l, field = some l ∧ text = l.trimmed := by
  unfold required at h
  cases field with
  | none => cases h
  | some l => exact ⟨l, rfl, (Except.ok.inj h).symm⟩

theorem of_readField {α : Type} {read : Literal → Except Fault α} {value : Option α}
    (h : readField read (some l) = .ok value) : ∃ a, value = some a ∧ read l = .ok a := by
  have hread : (read l).map some = .ok value := h
  obtain ⟨a, ha⟩ := succeeds_of_map hread
  rw [ha] at hread
  exact ⟨a, (Except.ok.inj hread).symm, ha⟩

theorem of_readPositive {name : String} {n : Option Nat}
    (h : readField (Literal.positive name) (some l) = .ok n) :
    ∃ m, n = some m ∧ Number.positive? l.trimmedChars = some m := by
  obtain ⟨m, hn, hm⟩ := of_readField h
  unfold Literal.positive at hm
  cases hread : Number.positive? l.trimmedChars with
  | none =>
    rw [hread] at hm
    cases hm
  | some m' =>
    rw [hread] at hm
    cases hm
    exact ⟨m, hn, rfl⟩

theorem of_readPages {pages : Option PageSpan}
    (h : readField (Literal.parse PageSpan.reader) (some l) = .ok pages) :
    ∃ p, pages = some p ∧ PageSpan.reader.read? l.value = some p := by
  obtain ⟨p, hpages, hp⟩ := of_readField h
  exact ⟨p, hpages, Literal.parse_ok_iff.mp hp⟩

/-- A date that passed the check is not the word for no date. -/
theorem of_readDate {date : Option Date} (h : readDate (some l) = .ok date) (hl : l.IsDate) :
    ∃ d, date = some d ∧ Date.read? l.trimmedChars = some d := by
  have hword : ¬ l.SaysNone := fun hnone => hnone.not_isDate hl
  obtain ⟨d, hd⟩ := hl
  have hdate : l.date = .ok date := h
  unfold Literal.date at hdate
  rw [if_neg (mt Literal.sameWord_none_iff.mp hword), hd] at hdate
  exact ⟨d, (Except.ok.inj hdate).symm, hd⟩

/-! ### The values of one kind -/

variable {details : WorkDetails}

theorem of_detailsOf_book (hkind : s.kind = .book) (h : detailsOf s = .ok details) :
    ∃ publisher edition, s.publisher = some publisher
      ∧ readField (Literal.positive "edition") s.edition = .ok edition
      ∧ details = .book publisher.trimmed edition := by
  unfold detailsOf at h
  rw [hkind] at h
  obtain ⟨_, hpublisher, h⟩ := of_bind_ok h
  obtain ⟨publisher, hs, rfl⟩ := of_required hpublisher
  obtain ⟨edition, hedition, h⟩ := of_bind_ok h
  exact ⟨publisher, edition, hs, hedition, (Except.ok.inj h).symm⟩

theorem of_detailsOf_music (hkind : s.kind = .music) (h : detailsOf s = .ok details) :
    details = .music (s.album.map (·.trimmed)) (s.label.map (·.trimmed)) := by
  unfold detailsOf at h
  rw [hkind] at h
  exact (Except.ok.inj h).symm

theorem of_detailsOf_periodical (hkind : s.kind = .periodical) (h : detailsOf s = .ok details) :
    ∃ journal volume issue pages accessed, s.journal = some journal
      ∧ readField (Literal.positive "volume") s.volume = .ok volume
      ∧ readField (Literal.positive "issue") s.issue = .ok issue
      ∧ readField (Literal.parse PageSpan.reader) s.pages = .ok pages
      ∧ readDate s.accessed = .ok accessed
      ∧ details = .periodical journal.trimmed volume issue pages accessed := by
  unfold detailsOf at h
  rw [hkind] at h
  obtain ⟨_, hjournal, h⟩ := of_bind_ok h
  obtain ⟨journal, hs, rfl⟩ := of_required hjournal
  obtain ⟨volume, hvolume, h⟩ := of_bind_ok h
  obtain ⟨issue, hissue, h⟩ := of_bind_ok h
  obtain ⟨pages, hpages, h⟩ := of_bind_ok h
  obtain ⟨accessed, haccessed, h⟩ := of_bind_ok h
  exact ⟨journal, volume, issue, pages, accessed, hs, hvolume, hissue, hpages, haccessed,
    (Except.ok.inj h).symm⟩

theorem of_detailsOf_poem (hkind : s.kind = .poem) (h : detailsOf s = .ok details) :
    ∃ edition pages, readField (Literal.positive "edition") s.edition = .ok edition
      ∧ readField (Literal.parse PageSpan.reader) s.pages = .ok pages
      ∧ details = .poem (s.container.map (·.trimmed)) (s.publisher.map (·.trimmed)) edition
        pages := by
  unfold detailsOf at h
  rw [hkind] at h
  obtain ⟨edition, hedition, h⟩ := of_bind_ok h
  obtain ⟨pages, hpages, h⟩ := of_bind_ok h
  exact ⟨edition, pages, hedition, hpages, (Except.ok.inj h).symm⟩

theorem of_detailsOf_videogame (hkind : s.kind = .videogame) (h : detailsOf s = .ok details) :
    ∃ publisher, s.publisher = some publisher
      ∧ details = .videogame publisher.trimmed (s.platform.map (·.trimmed)) := by
  unfold detailsOf at h
  rw [hkind] at h
  obtain ⟨_, hpublisher, h⟩ := of_bind_ok h
  obtain ⟨publisher, hs, rfl⟩ := of_required hpublisher
  exact ⟨publisher, hs, (Except.ok.inj h).symm⟩

theorem of_detailsOf_webpage (hkind : s.kind = .webpage) (h : detailsOf s = .ok details) :
    ∃ accessed, readDate s.accessed = .ok accessed
      ∧ details = .webpage (s.website.map (·.trimmed)) accessed := by
  unfold detailsOf at h
  rw [hkind] at h
  obtain ⟨accessed, haccessed, h⟩ := of_bind_ok h
  exact ⟨accessed, haccessed, (Except.ok.inj h).symm⟩

/-! ### Where a field goes -/

theorem of_ofSource (h : ofSource s = .ok w) :
    ∃ title details, s.title = some title ∧ detailsOf s = .ok details
      ∧ w = ⟨s.citedAs, s.authors.map fun l => PersonalName.ofText l.value, title.trimmed,
          s.year.map (·.trimmed), s.url.map (·.trimmed), details⟩ := by
  obtain ⟨_, htitle, h⟩ := of_bind_ok h
  obtain ⟨details, hdetails, h⟩ := of_bind_ok h
  obtain ⟨title, hs, rfl⟩ := of_required htitle
  exact ⟨title, details, hs, hdetails, (Except.ok.inj h).symm⟩

/-- A piece of one of the values that an entry prints. -/
def Tells (g : Guide) (w : Work) (piece : String) : Prop :=
  ∃ value ∈ Entry.values g w, piece.toList <:+: value.toList

theorem Tells.of_mem {g : Guide} {piece : String} (h : piece ∈ Entry.values g w) :
    w.Tells g piece := ⟨piece, h, List.infix_refl _⟩

theorem Tells.of_detail {g : Guide} {value piece : String} (h : value ∈ Entry.details g w)
    (hpiece : piece.toList <:+: value.toList) : w.Tells g piece := by
  refine ⟨value, ?_, hpiece⟩
  unfold Entry.values
  simp [h]

/-- Every work has these fields. -/
theorem tells_common (h : ofSource s = .ok w) {k : Keyword} (hk : k ∈ [Keyword.title, .year, .url])
    (hl : s.get k = some l) (g : Guide) : w.Tells g l.trimmed := by
  obtain ⟨title, details, htitle, -, rfl⟩ := of_ofSource h
  simp only [List.mem_cons, List.not_mem_nil, or_false] at hk
  rcases hk with rfl | rfl | rfl
  · have hl : s.title = some l := hl
    rw [htitle] at hl
    cases hl
    exact .of_mem List.mem_cons_self
  · have hl : s.year = some l := hl
    apply Tells.of_mem
    simp [Entry.values, hl]
  · have hl : s.url = some l := hl
    refine .of_detail (?_ : l.trimmed ∈ _) (List.infix_refl _)
    cases g <;> simp [Entry.details, Entry.mla9Details, Entry.houseDetails, hl]

variable {k : Keyword}

theorem tells_book (hkind : s.kind = .book) (h : ofSource s = .ok w)
    (hk : k ∈ [Keyword.publisher, .edition]) (hl : s.get k = some l) (g : Guide) :
    ∃ piece, g.fieldText k l = some piece ∧ w.Tells g piece := by
  obtain ⟨title, details, -, hdetails, rfl⟩ := of_ofSource h
  obtain ⟨publisher, edition, hs, hedition, rfl⟩ := of_detailsOf_book hkind hdetails
  simp only [List.mem_cons, List.not_mem_nil, or_false] at hk
  rcases hk with rfl | rfl
  · have hl : s.publisher = some l := hl
    rw [hs] at hl
    cases hl
    refine ⟨_, rfl, .of_detail ?_ (List.infix_refl _)⟩
    cases g <;> simp [Entry.details, Entry.mla9Details, Entry.houseDetails]
  · have hl : s.edition = some l := hl
    rw [hl] at hedition
    obtain ⟨n, rfl, hn⟩ := of_readPositive hedition
    refine ⟨_, g.fieldText_edition hn, .of_detail ?_ (List.infix_refl _)⟩
    cases g <;> simp [Entry.details, Entry.mla9Details, Entry.houseDetails]

theorem tells_music (hkind : s.kind = .music) (h : ofSource s = .ok w)
    (hk : k ∈ [Keyword.album, .label]) (hl : s.get k = some l) (g : Guide) :
    ∃ piece, g.fieldText k l = some piece ∧ w.Tells g piece := by
  obtain ⟨title, details, -, hdetails, rfl⟩ := of_ofSource h
  obtain rfl := of_detailsOf_music hkind hdetails
  simp only [List.mem_cons, List.not_mem_nil, or_false] at hk
  rcases hk with rfl | rfl
  · have hl : s.album = some l := hl
    refine ⟨_, rfl, .of_mem ?_⟩
    simp [Entry.values, container?, hl]
  · have hl : s.label = some l := hl
    refine ⟨_, rfl, .of_detail ?_ (List.infix_refl _)⟩
    cases g <;> simp [Entry.details, Entry.mla9Details, Entry.houseDetails, hl]

theorem tells_periodical (hkind : s.kind = .periodical) (hdate : ∀ l ∈ s.accessed, l.IsDate)
    (h : ofSource s = .ok w) (hk : k ∈ [Keyword.journal, .volume, .issue, .pages, .accessed])
    (hl : s.get k = some l) (g : Guide) :
    ∃ piece, g.fieldText k l = some piece ∧ w.Tells g piece := by
  obtain ⟨title, details, -, hdetails, rfl⟩ := of_ofSource h
  obtain ⟨journal, volume, issue, pages, accessed, hs, hvolume, hissue, hpages, haccessed, rfl⟩ :=
    of_detailsOf_periodical hkind hdetails
  simp only [List.mem_cons, List.not_mem_nil, or_false] at hk
  rcases hk with rfl | rfl | rfl | rfl | rfl
  · have hl : s.journal = some l := hl
    rw [hs] at hl
    cases hl
    refine ⟨_, rfl, .of_mem ?_⟩
    simp [Entry.values, container?]
  · have hl : s.volume = some l := hl
    rw [hl] at hvolume
    obtain ⟨n, rfl, hn⟩ := of_readPositive hvolume
    refine ⟨_, by rw [Guide.fieldText, hn]; rfl, ?_⟩
    cases g with
    | mla9 =>
      refine .of_detail ?_ (List.infix_refl _)
      simp [Entry.details, Entry.mla9Details]
    | house =>
      -- volume and issue are one detail
      refine .of_detail (?_ : Entry.issueText (some n) issue ∈ _) ?_
      · simp [Entry.details, Entry.houseDetails]
      · unfold Entry.issueText
        rw [String.toList_append]
        exact (List.prefix_append _ _).isInfix
  · have hl : s.issue = some l := hl
    rw [hl] at hissue
    obtain ⟨n, rfl, hn⟩ := of_readPositive hissue
    refine ⟨_, by rw [Guide.fieldText, hn]; rfl, ?_⟩
    cases g with
    | mla9 =>
      refine .of_detail ?_ (List.infix_refl _)
      simp [Entry.details, Entry.mla9Details]
    | house =>
      refine .of_detail (?_ : Entry.issueText volume (some n) ∈ _) ?_
      · simp [Entry.details, Entry.houseDetails]
      · unfold Entry.issueText
        have hsplit := String.toList_append (s := volume.elim "" (toString ·))
          (t := "(" ++ toString n ++ ")")
        exact hsplit ▸ (List.suffix_append _ _).isInfix
  · have hl : s.pages = some l := hl
    rw [hl] at hpages
    obtain ⟨p, rfl, hp⟩ := of_readPages hpages
    refine ⟨_, g.fieldText_pages hp, .of_detail ?_ (List.infix_refl _)⟩
    cases g <;> simp [Entry.details, Entry.mla9Details, Entry.houseDetails]
  · have hl : s.accessed = some l := hl
    rw [hl] at haccessed
    obtain ⟨d, rfl, hd⟩ := of_readDate haccessed (hdate l hl)
    refine ⟨_, by rw [Guide.fieldText, hd]; rfl, .of_mem ?_⟩
    simp [Entry.values, Entry.accessed?]

/-- A poem has its fields printed, but for the edition in the house form. -/
theorem tells_poem (hkind : s.kind = .poem) (h : ofSource s = .ok w)
    (hk : k ∈ [Keyword.container, .publisher, .edition, .pages]) (hl : s.get k = some l)
    {g : Guide} (hprinted : ¬ (g = .house ∧ k = .edition)) :
    ∃ piece, g.fieldText k l = some piece ∧ w.Tells g piece := by
  obtain ⟨title, details, -, hdetails, rfl⟩ := of_ofSource h
  obtain ⟨edition, pages, hedition, hpages, rfl⟩ := of_detailsOf_poem hkind hdetails
  simp only [List.mem_cons, List.not_mem_nil, or_false] at hk
  rcases hk with rfl | rfl | rfl | rfl
  · have hl : s.container = some l := hl
    refine ⟨_, rfl, .of_mem ?_⟩
    simp [Entry.values, container?, hl]
  · have hl : s.publisher = some l := hl
    refine ⟨_, rfl, .of_detail ?_ (List.infix_refl _)⟩
    cases g <;> simp [Entry.details, Entry.mla9Details, Entry.houseDetails, hl]
  · have hl : s.edition = some l := hl
    rw [hl] at hedition
    obtain ⟨n, rfl, hn⟩ := of_readPositive hedition
    refine ⟨_, g.fieldText_edition hn, .of_detail ?_ (List.infix_refl _)⟩
    cases g with
    | mla9 => simp [Entry.details, Entry.mla9Details]
    | house => exact absurd ⟨rfl, rfl⟩ hprinted
  · have hl : s.pages = some l := hl
    rw [hl] at hpages
    obtain ⟨p, rfl, hp⟩ := of_readPages hpages
    refine ⟨_, g.fieldText_pages hp, .of_detail ?_ (List.infix_refl _)⟩
    cases g <;> simp [Entry.details, Entry.mla9Details, Entry.houseDetails]

theorem tells_videogame (hkind : s.kind = .videogame) (h : ofSource s = .ok w)
    (hk : k ∈ [Keyword.publisher, .platform]) (hl : s.get k = some l) (g : Guide) :
    ∃ piece, g.fieldText k l = some piece ∧ w.Tells g piece := by
  obtain ⟨title, details, -, hdetails, rfl⟩ := of_ofSource h
  obtain ⟨publisher, hs, rfl⟩ := of_detailsOf_videogame hkind hdetails
  simp only [List.mem_cons, List.not_mem_nil, or_false] at hk
  rcases hk with rfl | rfl
  · have hl : s.publisher = some l := hl
    rw [hs] at hl
    cases hl
    refine ⟨_, rfl, .of_detail ?_ (List.infix_refl _)⟩
    cases g <;> simp [Entry.details, Entry.mla9Details, Entry.houseDetails]
  · have hl : s.platform = some l := hl
    refine ⟨_, rfl, ?_⟩
    cases g with
    | mla9 =>
      refine .of_detail (?_ : l.trimmed ++ " version" ∈ _) ?_
      · simp [Entry.details, Entry.mla9Details, hl]
      · rw [String.toList_append]
        exact (List.prefix_append _ _).isInfix
    | house =>
      refine .of_detail ?_ (List.infix_refl _)
      simp [Entry.details, Entry.houseDetails, hl]

theorem tells_webpage (hkind : s.kind = .webpage) (hdate : ∀ l ∈ s.accessed, l.IsDate)
    (h : ofSource s = .ok w) (hk : k ∈ [Keyword.website, .accessed]) (hl : s.get k = some l)
    (g : Guide) : ∃ piece, g.fieldText k l = some piece ∧ w.Tells g piece := by
  obtain ⟨title, details, -, hdetails, rfl⟩ := of_ofSource h
  obtain ⟨accessed, haccessed, rfl⟩ := of_detailsOf_webpage hkind hdetails
  simp only [List.mem_cons, List.not_mem_nil, or_false] at hk
  rcases hk with rfl | rfl
  · have hl : s.website = some l := hl
    refine ⟨_, rfl, .of_mem ?_⟩
    simp [Entry.values, container?, hl]
  · have hl : s.accessed = some l := hl
    rw [hl] at haccessed
    obtain ⟨d, rfl, hd⟩ := of_readDate haccessed (hdate l hl)
    refine ⟨_, by rw [Guide.fieldText, hd]; rfl, .of_mem ?_⟩
    simp [Entry.values, Entry.accessed?]

end

end Work

/-! ## Sources that passed their check -/

/-- Every field that the kind of a source accepts, apart from the authors and the id, is among the
values that an entry prints, but for the edition of a poem in the house form. -/
theorem Source.tells_of_check {s : Source} {w : Work} {k : Keyword} {l : Literal} {g : Guide}
    (hcheck : s.check = .ok ()) (h : Work.ofSource s = .ok w) (hk : s.kind.accepts k = true)
    (hid : k ≠ .id) (hl : s.get k = some l)
    (hprinted : ¬ (g = .house ∧ s.kind = .poem ∧ k = .edition)) :
    ∃ piece, g.fieldText k l = some piece ∧ w.Tells g piece := by
  have hvalid : s.Valid := Source.check_ok_iff.mp hcheck
  unfold SourceKind.accepts at hk
  rw [Bool.or_eq_true, List.contains_iff_mem, List.contains_iff_mem] at hk
  rcases hk with hcommon | hown
  · have hfield : k ∈ [Keyword.title, .year, .url] := by
      simp only [List.mem_cons, List.not_mem_nil, or_false] at hcommon ⊢
      rcases hcommon with rfl | rfl | rfl | rfl | rfl
      · exact absurd rfl hid
      · -- authors are a list of their own and no field with one value
        cases hl
      · exact .inl rfl
      · exact .inr (.inl rfl)
      · exact .inr (.inr rfl)
    have htext : g.fieldText k l = some l.trimmed := by
      simp only [List.mem_cons, List.not_mem_nil, or_false] at hfield
      rcases hfield with rfl | rfl | rfl <;> rfl
    exact ⟨_, htext, Work.tells_common h hfield hl g⟩
  · cases hkind : s.kind with
    | book =>
      rw [hkind] at hown
      exact Work.tells_book hkind h hown hl g
    | music =>
      rw [hkind] at hown
      exact Work.tells_music hkind h hown hl g
    | periodical =>
      rw [hkind] at hown
      exact Work.tells_periodical hkind hvalid.accessed h hown hl g
    | poem =>
      rw [hkind] at hown
      exact Work.tells_poem hkind h hown hl fun ⟨hg, hedition⟩ => hprinted ⟨hg, hkind, hedition⟩
    | videogame =>
      rw [hkind] at hown
      exact Work.tells_videogame hkind h hown hl g
    | webpage =>
      rw [hkind] at hown
      exact Work.tells_webpage hkind hvalid.accessed h hown hl g

/-- A source that passes its check is a work, and its entry has the id of the source. In the form of
either guide the text of the entry holds every other declared field that the kind accepts: texts
without white space at their ends, numbers, pages and the date in the form of the guide. Only the
edition of a poem is left out, in the house form. -/
theorem Source.printed_of_check {s : Source} (hcheck : s.check = .ok ()) (g : Guide) :
    ∃ w, Work.ofSource s = .ok w ∧ (Entry.ofWork g w).id = s.citedAs ∧
      ∀ k l, s.kind.accepts k = true → k ≠ .id → s.get k = some l →
        ¬ (g = .house ∧ s.kind = .poem ∧ k = .edition) →
        ∃ piece, g.fieldText k l = some piece
          ∧ piece.toList <:+: (Entry.ofWork g w).text.toList := by
  obtain ⟨w, hw⟩ := succeeds_ofSource hcheck
  refine ⟨w, hw, ?_, ?_⟩
  · obtain ⟨_, _, -, -, rfl⟩ := Work.of_ofSource hw
    rfl
  · intro k l hk hid hl hprinted
    obtain ⟨piece, hpiece, value, hvalue, hinfix⟩ := tells_of_check hcheck hw hk hid hl hprinted
    exact ⟨piece, hpiece, hinfix.trans (Entry.ofWork_prints hvalue)⟩

/-- A poem with an edition. -/
def editedPoem : Source :=
  let text (value : String) : Literal := ⟨value, ⟨2, 9⟩⟩
  { kind := .poem, position := ⟨1, 5⟩
    authors := [text "John Keats"], title := text "Ode", publisher := text "Faber"
    edition := text "3", url := text "a.org" }

/-- In the MLA form the edition of the poem is printed. -/
theorem Source.printed_of_check_poem : editedPoem.check = .ok () ∧
    ∃ w, Work.ofSource editedPoem = .ok w
      ∧ ∃ piece, Guide.fieldText .mla9 .edition ⟨"3", ⟨2, 9⟩⟩ = some piece
        ∧ piece.toList <:+: (Entry.ofWork .mla9 w).text.toList := by
  have hcheck : editedPoem.check = .ok () := by rfl
  obtain ⟨w, hw, -, hfields⟩ := Source.printed_of_check hcheck .mla9
  exact ⟨hcheck, w, hw, hfields .edition _ (by decide) (by decide) rfl (by decide)⟩

/-- In the house form it is not: the number of the edition is nowhere in the entry. -/
theorem Source.edition_of_poem_lost : editedPoem.check = .ok () ∧
    editedPoem.kind.accepts .edition = true ∧ editedPoem.get .edition = some ⟨"3", ⟨2, 9⟩⟩ ∧
    ∃ w, Work.ofSource editedPoem = .ok w ∧ '3' ∉ (Entry.ofWork .house w).text.toList :=
  ⟨by rfl, by decide, rfl, _, rfl, by decide +kernel⟩

end Manuscript
