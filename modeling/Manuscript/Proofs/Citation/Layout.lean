import Manuscript.Proofs.Citation.Printed
import Manuscript.Proofs.Typeset.Words

/-!
# The layout of an entry

Every character of an entry comes from somewhere: a field of the source says it, the form of the
entry adds it, or it is a full stop that ends a part of the entry. Some of these full stops are left
out behind a text that has an end of its own. The others are put whatever stands in front of them,
and they are pieces of their own here.

* `Entry.Piece`: a piece of an entry, told by where it comes from.
* `Entry.layout`: the pieces of an entry, in the form of a guide.
* `Entry.charsOf_layout`: the pieces make up the text of the entry, but for white space at its end.
-/

namespace Manuscript

open Manuscript.Character (isBlank)

namespace Entry

/-! ## Pieces -/

/-- A piece of the text of an entry. -/
inductive Piece where
  /-- What a field of the source says. -/
  | given (text : String)
  /-- What the form adds: words, numbers, marks between the fields, and a full stop where there was
  none before. -/
  | form (text : String)
  /-- A full stop that is put whatever stands in front of it. -/
  | stop
deriving DecidableEq

/-- The characters of a piece. -/
def Piece.chars : Piece → List Char
  | given text => text.toList
  | form text => text.toList
  | stop => ['.']

/-- The characters of pieces one after the other. -/
def charsOf (ps : List Piece) : List Char := ps.flatMap Piece.chars

@[simp]
theorem charsOf_nil : charsOf [] = [] := rfl

@[simp]
theorem charsOf_cons (p : Piece) (ps : List Piece) :
    charsOf (p :: ps) = p.chars ++ charsOf ps := List.flatMap_cons

@[simp]
theorem charsOf_append (ps qs : List Piece) :
    charsOf (ps ++ qs) = charsOf ps ++ charsOf qs := List.flatMap_append

@[simp]
theorem chars_given (text : String) : (Piece.given text).chars = text.toList := rfl

@[simp]
theorem chars_form (text : String) : (Piece.form text).chars = text.toList := rfl

@[simp]
theorem chars_stop : Piece.stop.chars = ['.'] := rfl

/-- Runs of pieces in order, with a separator between neighbours. -/
def joined (separator : String) : List (List Piece) → List Piece
  | [] => []
  | [ps] => ps
  | ps :: qs :: rest => ps ++ .form separator :: joined separator (qs :: rest)

theorem charsOf_joined {separator : String} {runs : List (List Piece)} {texts : List String}
    (h : runs.map charsOf = texts.map String.toList) :
    charsOf (joined separator runs) = (Text.joinWith separator texts).toList := by
  induction runs generalizing texts with
  | nil =>
    obtain rfl := List.map_eq_nil_iff.mp h.symm
    rfl
  | cons ps runs ih =>
    obtain ⟨t, texts, rfl, ht, htexts⟩ := List.map_eq_cons_iff.mp h.symm
    match runs, texts, htexts with
    | [], texts, htexts =>
      obtain rfl := List.map_eq_nil_iff.mp htexts
      exact ht.symm
    | qs :: rest, [], htexts => cases htexts
    | qs :: rest, u :: us, htexts =>
      have hrest := ih htexts.symm
      simp only [joined, Text.joinWith, charsOf_append, charsOf_cons, chars_form, hrest,
        String.toList_append, ht, List.append_assoc]

/-- Runs of pieces with commas between them and a sign in front of the last. -/
def joinedWithLast (sign : String) (runs : List (List Piece)) : List Piece :=
  match runs.getLast? with
  | none => []
  | some last =>
    if runs.dropLast.isEmpty then last
    else joined ", " runs.dropLast ++ .form sign :: last

theorem charsOf_joinedWithLast {sign : String} {runs : List (List Piece)} {texts : List String}
    (h : runs.map charsOf = texts.map String.toList) :
    charsOf (joinedWithLast sign runs) = (Guide.joinWithLast sign texts).toList := by
  have hlast := congrArg List.getLast? h
  rw [List.getLast?_map, List.getLast?_map] at hlast
  unfold joinedWithLast Guide.joinWithLast
  cases hruns : runs.getLast? with
  | none =>
    rw [hruns, Option.map_none, eq_comm, Option.map_eq_none_iff] at hlast
    rw [hlast]
    rfl
  | some ps =>
    rw [hruns, Option.map_some, eq_comm, Option.map_eq_some_iff] at hlast
    obtain ⟨t, ht, hchars⟩ := hlast
    have hfront : runs.dropLast.map charsOf = texts.dropLast.map String.toList := by
      rw [List.map_dropLast, h, List.map_dropLast]
    -- both sides see that nothing stands in front of the last
    have hempty : runs.dropLast.isEmpty = texts.dropLast.isEmpty := by
      rw [← List.isEmpty_map (f := charsOf), hfront, List.isEmpty_map]
    rw [ht]
    dsimp only
    rw [hempty]
    split_ifs
    · exact hchars.symm
    · simp only [charsOf_append, charsOf_cons, chars_form, charsOf_joined hfront, hchars,
        String.toList_append, List.append_assoc]

/-- Runs of pieces as one sentence, or nothing if there are none. -/
def sentence (runs : List (List Piece)) : List Piece :=
  if runs.isEmpty then [] else joined ", " runs ++ [.stop]

/-- The full stop that is missing at the end of a text, if one is. -/
def missingStop (text : String) : String :=
  if text.toList.getLast?.any Typeset.isStop then "" else "."

theorem withStop_eq (text : String) : withStop text = text ++ missingStop text := by
  unfold withStop missingStop
  split_ifs
  · exact String.append_empty.symm
  · rfl

/-! ## Authors -/

/-- The words of a text as a source gives them, with spaces between them. -/
def givenWords (text : String) : List Piece :=
  joined " " ((Text.wordsOf text).map fun word => [.given word])

/-- A name in its usual order. -/
def fullName (n : PersonalName) : List Piece :=
  match n.given with
  | some given => givenWords given ++ [.form " ", .given n.surname]
  | none => [.given n.surname]

/-- A name with the surname in front. -/
def invertedName (n : PersonalName) : List Piece :=
  match n.given with
  | some given => .given n.surname :: .form ", " :: givenWords given
  | none => [.given n.surname]

/-- The authors at the head of an entry. -/
def authorPieces (g : Guide) (names : List PersonalName) : List Piece :=
  match g with
  | .mla9 =>
    match names with
    | [] => []
    | [only] => invertedName only
    | [first, second] => invertedName first ++ .form ", and " :: fullName second
    | first :: _ => invertedName first ++ [.form ", et al."]
  | .house => joinedWithLast " & " (names.map fullName)

/-! ## The form of the guides -/

/-- A text of a source as a run of its own. -/
def givenRun (text : Option String) : List (List Piece) := (text.map fun t => [.given t]).toList

/-- A value in the form of the guides as a run of its own. -/
def formRun {α : Type} (form : α → String) (value : Option α) : List (List Piece) :=
  (value.map fun a => [.form (form a)]).toList

/-- The details of a work in the MLA form. -/
def mla9Runs (w : Work) : List (List Piece) :=
  let own := match w.details with
    | .book publisher edition =>
      formRun editionText edition ++ [[.given publisher]] ++ givenRun w.year
    | .music _ label => givenRun label ++ givenRun w.year
    | .periodical _ volume issue pages _ =>
      formRun (fun n => "vol. " ++ toString n) volume
        ++ formRun (fun n => "no. " ++ toString n) issue ++ givenRun w.year
        ++ formRun pageReference pages
    | .poem _ publisher edition pages =>
      formRun editionText edition ++ givenRun publisher ++ givenRun w.year
        ++ formRun pageReference pages
    | .videogame publisher platform =>
      (platform.map fun t => [.given t, .form " version"]).toList ++ [[.given publisher]]
        ++ givenRun w.year
    | .webpage _ _ => givenRun w.year
  own ++ givenRun w.url

/-- An entry in the MLA form. Only behind the authors and within the quotes of a title does the form
look whether a full stop is missing. -/
def mla9Layout (w : Work) : List Piece :=
  let authors :=
    if w.authors.isEmpty then []
    else authorPieces .mla9 w.authors
      ++ [.form (missingStop (Guide.authorList .mla9 w.authors)), .form " "]
  let title :=
    if w.standsAlone then [.given w.title, .stop, .form " "]
    else [.form "\"", .given w.title, .form (missingStop w.title), .form "\" "]
  let access := match accessed? w with
    | some d => [.form " ", .form (accessText .mla9 d), .stop]
    | none => []
  authors ++ title ++ sentence (givenRun w.container? ++ mla9Runs w) ++ access

/-- The details of a work in the house form. -/
def houseRuns (w : Work) : List (List Piece) :=
  let own := match w.details with
    | .book publisher edition => [.given publisher] :: formRun editionText edition
    | .music _ label => givenRun label
    | .periodical _ volume issue pages _ =>
      (if volume.isNone && issue.isNone then [] else [[.form (issueText volume issue)]])
        ++ formRun pageReference pages
    | .poem _ publisher _ pages => givenRun publisher ++ formRun pageReference pages
    | .videogame publisher platform => [.given publisher] :: givenRun platform
    | .webpage _ _ => []
  own ++ givenRun w.url ++ formRun (accessText .house) (accessed? w)

/-- A year in parentheses. -/
def yearPieces (year : Option String) : List Piece :=
  year.elim [] fun y => [.form " (", .given y, .form ")"]

/-- A larger work as a sentence of its own. -/
def placePieces (container : Option String) : List Piece :=
  container.elim [] fun c => [.form "In ", .given c, .stop, .form " "]

/-- An entry in the house form. It never looks whether a full stop is missing. -/
def houseLayout (w : Work) : List Piece :=
  let head :=
    if w.authors.isEmpty then .given w.title :: yearPieces w.year ++ [.stop, .form " "]
    else authorPieces .house w.authors ++ yearPieces w.year
      ++ [.stop, .form " ", .given w.title, .stop, .form " "]
  head ++ placePieces w.container? ++ sentence (houseRuns w)

/-- The pieces of an entry in the form of a guide. -/
def layout : Guide → Work → List Piece
  | .mla9 => mla9Layout
  | .house => houseLayout

/-! ## The text of a layout -/

section

variable {w : Work}

/-- The given names of a person are words. -/
def Worded (n : PersonalName) : Prop :=
  ∀ given ∈ n.given, ∃ texts,
    (∀ t ∈ texts, Typeset.IsWord t.toList) ∧ given = Text.joinWith " " texts

theorem charsOf_givenWords {texts : List String} (h : ∀ t ∈ texts, Typeset.IsWord t.toList) :
    charsOf (givenWords (Text.joinWith " " texts)) = (Text.joinWith " " texts).toList := by
  unfold givenWords
  rw [Typeset.wordsOf_joinWith h]
  apply charsOf_joined
  simp

theorem charsOf_fullName {n : PersonalName} (h : Worded n) :
    charsOf (fullName n) = n.full.toList := by
  unfold fullName PersonalName.full
  cases hgiven : n.given with
  | none => simp
  | some given =>
    obtain ⟨texts, htexts, rfl⟩ := h given hgiven
    simp [charsOf_givenWords htexts]

theorem charsOf_invertedName {n : PersonalName} (h : Worded n) :
    charsOf (invertedName n) = n.inverted.toList := by
  unfold invertedName PersonalName.inverted
  cases hgiven : n.given with
  | none => simp
  | some given =>
    obtain ⟨texts, htexts, rfl⟩ := h given hgiven
    simp [charsOf_givenWords htexts]

theorem charsOf_authorPieces (g : Guide) {names : List PersonalName}
    (h : ∀ n ∈ names, Worded n) :
    charsOf (authorPieces g names) = (Guide.authorList g names).toList := by
  cases g with
  | mla9 =>
    match names with
    | [] => rfl
    | [only] => exact charsOf_invertedName (h only List.mem_cons_self)
    | [first, second] =>
      simp [authorPieces, Guide.authorList, charsOf_invertedName (h first List.mem_cons_self),
        charsOf_fullName (h second (by simp))]
    | first :: second :: third :: rest =>
      simp [authorPieces, Guide.authorList, charsOf_invertedName (h first List.mem_cons_self)]
  | house =>
    apply charsOf_joinedWithLast
    rw [List.map_map, List.map_map]
    exact List.map_congr_left fun n hn => charsOf_fullName (h n hn)

@[simp]
theorem charsOf_givenRun (text : Option String) :
    (givenRun text).map charsOf = text.toList.map String.toList := by
  cases text <;> simp [givenRun]

@[simp]
theorem charsOf_formRun {α : Type} (form : α → String) (value : Option α) :
    (formRun form value).map charsOf = (value.map form).toList.map String.toList := by
  cases value <;> simp [formRun]

theorem charsOf_mla9Runs (w : Work) :
    (mla9Runs w).map charsOf = (mla9Details w).map String.toList := by
  unfold mla9Runs mla9Details
  rw [List.map_append, List.map_append, charsOf_givenRun]
  congr 1
  cases w.details with
  | videogame publisher platform => cases platform <;> simp
  | _ =>
    simp only [List.map_append, List.map_cons, List.map_nil, charsOf_givenRun, charsOf_formRun,
      charsOf_cons, charsOf_nil, chars_given, List.append_nil]

theorem charsOf_houseRuns (w : Work) :
    (houseRuns w).map charsOf = (houseDetails w).map String.toList := by
  have hissue (volume issue : Option Nat) :
      (if volume.isNone && issue.isNone then [] else [[Piece.form (issueText volume issue)]]).map
        charsOf = (if volume.isNone && issue.isNone then [] else [issueText volume issue]).map
        String.toList := by
    split_ifs <;> simp
  have haccess : (accessed? w).toList.map (fun d => "accessed " ++ Guide.date .house d)
      = ((accessed? w).map (accessText .house)).toList := Option.toList_map.symm
  unfold houseRuns houseDetails
  rw [List.map_append, List.map_append, charsOf_givenRun, charsOf_formRun, List.map_append,
    List.map_append, haccess]
  congr 2
  cases w.details with
  | periodical journal volume issue pages accessed =>
    rw [List.map_append, List.map_append, hissue, charsOf_formRun]
  | _ =>
    simp only [List.map_append, List.map_cons, List.map_nil, charsOf_givenRun, charsOf_formRun,
      charsOf_cons, charsOf_nil, chars_given, List.append_nil]

theorem charsOf_sentence {runs : List (List Piece)} {texts : List String}
    (h : runs.map charsOf = texts.map String.toList) :
    charsOf (sentence runs) = Span.chars (sentenceOf texts) := by
  have hempty : runs.isEmpty = texts.isEmpty := by
    rw [← List.isEmpty_map (f := charsOf), h, List.isEmpty_map]
  unfold sentence sentenceOf
  rw [hempty]
  split_ifs
  · rfl
  · simp [charsOf_joined h, Span.regular]

/-- The larger work goes in front of the details as one more of them. -/
theorem chars_place (container : Option String) (texts : List String) :
    Span.chars (match container with
      | some container =>
        [Span.italic container,
          Span.regular (if texts.isEmpty then "." else ", " ++ Text.joinWith ", " texts ++ ".")]
      | none => sentenceOf texts) = Span.chars (sentenceOf (container.toList ++ texts)) := by
  cases container with
  | none => rfl
  | some container => cases texts <;> simp [sentenceOf, Text.joinWith, Span.italic, Span.regular]

theorem charsOf_mla9Layout (h : ∀ n ∈ w.authors, Worded n) :
    ∃ blanks, charsOf (mla9Layout w) = Span.chars (mla9Spans w) ++ blanks
      ∧ ∀ c ∈ blanks, isBlank c = true := by
  have hplace : (givenRun w.container? ++ mla9Runs w).map charsOf
      = (w.container?.toList ++ mla9Details w).map String.toList := by
    rw [List.map_append, List.map_append, charsOf_givenRun, charsOf_mla9Runs]
  obtain ⟨blanks, hsplit, hblanks⟩ := chars_trimEnd _
  refine ⟨blanks, Eq.trans ?_ hsplit, hblanks⟩
  simp only [mla9Layout, Span.chars_append, charsOf_append, charsOf_sentence hplace]
  -- authors, title, larger work with the details, date of access
  congr 1
  · congr 1
    · congr 1
      · split_ifs <;> simp [charsOf_authorPieces .mla9 h, withStop_eq, Span.regular]
      · split_ifs <;> simp [withStop_eq, Span.regular, Span.italic]
    · exact (chars_place w.container? (mla9Details w)).symm
  · cases accessed? w <;> simp [accessText, Span.regular]

theorem charsOf_houseLayout (h : ∀ n ∈ w.authors, Worded n) :
    ∃ blanks, charsOf (houseLayout w) = Span.chars (houseSpans w) ++ blanks
      ∧ ∀ c ∈ blanks, isBlank c = true := by
  have hdetails := charsOf_houseRuns w
  obtain ⟨blanks, hsplit, hblanks⟩ := chars_trimEnd _
  refine ⟨blanks, Eq.trans ?_ hsplit, hblanks⟩
  simp only [houseLayout, Span.chars_append, charsOf_append, charsOf_sentence hdetails]
  congr 1
  congr 1
  · cases w.year <;> split_ifs <;>
      simp [yearPieces, charsOf_authorPieces .house h, Span.regular, Span.italic]
  · cases w.container? <;> simp [placePieces, Span.regular, Span.italic]

/-- The pieces of an entry make up its text, but for white space at its end. -/
theorem charsOf_layout (g : Guide) (h : ∀ n ∈ w.authors, Worded n) :
    ∃ blanks, charsOf (layout g w) = (ofWork g w).text.toList ++ blanks
      ∧ ∀ c ∈ blanks, isBlank c = true := by
  have htext (spans : List Span) :
      (Span.plainText (Span.merge spans)).toList = Span.chars spans := by
    rw [Span.toList_plainText, Span.chars_merge]
  cases g with
  | mla9 =>
    show ∃ blanks, _ = (Span.plainText (Span.merge (mla9Spans w))).toList ++ blanks ∧ _
    rw [htext]
    exact charsOf_mla9Layout h
  | house =>
    show ∃ blanks, _ = (Span.plainText (Span.merge (houseSpans w))).toList ++ blanks ∧ _
    rw [htext]
    exact charsOf_houseLayout h

end

end Entry

end Manuscript
