import Manuscript.Proofs.Citation.Origin

/-!
# Full stops in an entry

No text that the form of an entry adds puts a full stop directly behind the end of a sentence, and
what the source gives never starts there. So a full stop stands directly behind a full stop, a
question mark or an exclamation mark only where a value of the source has it so, or where the form
puts a full stop without a look at what stands in front of it.

* `Entry.Laid`: pieces that may stand one after the other.
* `Entry.doubled_iff`: where laid pieces have a full stop behind the end of a sentence.
* `Entry.untested`: the texts that have a full stop put behind them without a look at their end.
* `Entry.laid_layout`: the pieces of an entry are laid.
* `Source.stops_of_check`: the full stops in the entry of a source.
-/

namespace Manuscript

open Manuscript.Character (isBlank)
open Manuscript.Typeset (isStop)

namespace Entry

/-! ## Stops in pieces -/

/-- Behind the end of a sentence, the next character is no full stop. -/
def Apart (c d : Char) : Prop := isStop c = true → d ≠ '.'

/-- The characters may go on behind others, since no full stop comes behind the end of a
sentence. -/
def Meets (front cs : List Char) : Prop := ∀ c ∈ front.getLast?, ∀ d ∈ cs.head?, Apart c d

/-- The characters end as one of the texts does, if they end a sentence. -/
def EndsAs (ends : List String) (cs : List Char) : Prop :=
  ∀ c ∈ cs.getLast?, isStop c = true → ∃ t ∈ ends, t.toList.getLast? = some c

/-- The piece may stand behind the characters. A full stop that is a piece of its own may stand
behind the end of a sentence, if that is the end of one of the texts. -/
def Fits (ends : List String) (front : List Char) : Piece → Prop
  | .given text => Meets front text.toList
  | .form text => Meets front text.toList ∧ text.toList.IsChain Apart
  | .stop => EndsAs ends front

/-- The pieces may stand one after the other behind the characters. -/
def Laid (ends : List String) : List Char → List Piece → Prop
  | _, [] => True
  | front, p :: ps => Fits ends front p ∧ Laid ends (front ++ p.chars) ps

/-- A piece that the source gives has the character with a full stop directly behind it. -/
def GivesStop (ps : List Piece) (front : List Char) (c : Char) : Prop :=
  ∃ before text after u v, ps = before ++ .given text :: after
    ∧ text.toList = u ++ c :: '.' :: v ∧ front = charsOf before ++ u

/-- A full stop is put behind pieces that end with the character. -/
def PutsStop (ps : List Piece) (front : List Char) (c : Char) : Prop :=
  ∃ before after, ps = before ++ .stop :: after ∧ charsOf before = front ++ [c]

section

variable {ends : List String} {ps qs : List Piece} {p : Piece} {front back : List Char}
  {c d : Char}

theorem laid_append :
    Laid ends front (ps ++ qs) ↔ Laid ends front ps ∧ Laid ends (front ++ charsOf ps) qs := by
  induction ps generalizing front with
  | nil => simp [Laid]
  | cons p ps ih => simp [Laid, ih, and_assoc]

theorem Fits.stop_or_meets (h : Fits ends front p) : p = .stop ∨ Meets front p.chars := by
  cases p with
  | given text => exact .inr h
  | form text => exact .inr h.1
  | stop => exact .inl rfl

/-- A character of pieces is a character of one of them. -/
theorem exists_of_charsOf (h : charsOf ps = front ++ d :: back) :
    ∃ before p after u v, ps = before ++ p :: after ∧ p.chars = u ++ d :: v
      ∧ front = charsOf before ++ u := by
  induction ps generalizing front with
  | nil => simp at h
  | cons p ps ih =>
    rw [charsOf_cons] at h
    have hbehind {front' : List Char} (hfront : front = p.chars ++ front')
        (hps : charsOf ps = front' ++ d :: back) :
        ∃ before q after u v, p :: ps = before ++ q :: after ∧ q.chars = u ++ d :: v
          ∧ front = charsOf before ++ u := by
      obtain ⟨before, q, after, u, v, rfl, hq, rfl⟩ := ih hps
      exact ⟨p :: before, q, after, u, v, rfl, hq, by rw [hfront]; simp⟩
    rcases List.append_eq_append_iff.mp h with ⟨front', hfront, hps⟩ | ⟨rest, hp, hrest⟩
    · exact hbehind hfront hps
    · cases rest with
      | nil =>
        have hfront : front = p.chars ++ [] := by rw [hp, List.append_nil, List.append_nil]
        exact hbehind hfront hrest.symm
      | cons e v =>
        obtain ⟨rfl, -⟩ := List.cons.inj hrest
        exact ⟨[], p, ps, front, v, rfl, hp, rfl⟩

/-- Where pieces are laid, a full stop behind the end of a sentence is given so or put there. -/
theorem doubled_iff (h : Laid ends [] ps) (hc : isStop c = true) :
    front ++ [c, '.'] <+: charsOf ps ↔ GivesStop ps front c ∨ PutsStop ps front c := by
  constructor
  · rintro ⟨back, hback⟩
    have hchars : charsOf ps = (front ++ [c]) ++ '.' :: back := by rw [← hback]; simp
    obtain ⟨before, p, after, u, v, rfl, hp, hfront⟩ := exists_of_charsOf hchars
    obtain ⟨-, hfits, -⟩ := laid_append.mp h
    rw [List.nil_append] at hfits
    -- the piece with the full stop starts with it, or has the character in front of it, too
    rcases List.eq_nil_or_concat' u with rfl | ⟨u, e, rfl⟩
    · have hbefore : charsOf before = front ++ [c] := by rw [hfront, List.append_nil]
      have hlast : c ∈ (charsOf before).getLast? := by rw [hbefore]; simp
      rcases hfits.stop_or_meets with rfl | hmeets
      · exact .inr ⟨before, after, rfl, hbefore⟩
      · rw [hp] at hmeets
        exact absurd rfl (hmeets c hlast '.' rfl hc)
    · rw [← List.append_assoc] at hfront
      obtain ⟨rfl, he⟩ := List.append_inj' hfront rfl
      obtain rfl : c = e := by simpa using he
      rw [List.append_assoc] at hp
      cases p with
      | given text => exact .inl ⟨before, text, after, u, v, rfl, hp, rfl⟩
      | form text =>
        have hp : text.toList = u ++ [c] ++ '.' :: v := by rw [List.append_assoc]; exact hp
        have happart := hfits.2
        rw [hp, List.isChain_append] at happart
        exact absurd rfl (happart.2.2 c (by simp) '.' rfl hc)
      | stop =>
        have hlength := congrArg List.length hp
        simp only [chars_stop, List.length_append, List.length_cons, List.length_nil] at hlength
        omega
  · rintro (⟨before, text, after, u, v, rfl, htext, rfl⟩ | ⟨before, after, rfl, hbefore⟩)
    · exact ⟨v ++ charsOf after, by simp [htext]⟩
    · exact ⟨charsOf after, by simp [hbefore]⟩

/-- A full stop is put behind the end of a sentence only where one of the texts ends so. -/
theorem Laid.endsAs (h : Laid ends [] ps) (hput : PutsStop ps front c) (hc : isStop c = true) :
    ∃ t ∈ ends, t.toList.getLast? = some c := by
  obtain ⟨before, after, rfl, hbefore⟩ := hput
  obtain ⟨-, hends, -⟩ := laid_append.mp h
  have hends : EndsAs ends (charsOf before) := hends
  exact hends c (by rw [hbefore]; simp) hc

end

/-! ## Texts that the form adds -/

/-- The text puts no full stop behind the end of a sentence, wherever it stands. -/
def Quiet (text : String) : Prop := ('.' :: text.toList).IsChain Apart

/-- The text ends no sentence, so that anything may stand behind it. -/
structure Gap (text : String) : Prop where
  quiet : Quiet text
  last : ∃ c ∈ text.toList.getLast?, isStop c = false

instance : DecidableRel Apart := fun c d => inferInstanceAs (Decidable (isStop c = true → d ≠ '.'))

instance (text : String) : Decidable (Quiet text) :=
  inferInstanceAs (Decidable (('.' :: text.toList).IsChain Apart))

section

variable {s t : String} {front : List Char}

theorem Quiet.append (hs : Quiet s) (ht : Quiet t) : Quiet (s ++ t) := by
  obtain ⟨hhead, hchain⟩ := List.isChain_cons.mp ht
  unfold Quiet
  rw [String.toList_append, ← List.cons_append, List.isChain_append]
  exact ⟨hs, hchain, fun c _ d hd _ => hhead d hd rfl⟩

theorem quiet_of_not_mem (h : '.' ∉ t.toList) : Quiet t := by
  have hapart {c d : Char} (hd : d ∈ t.toList) : Apart c d := fun _ heq => h (heq ▸ hd)
  refine List.isChain_cons.mpr ⟨fun d hd => hapart (List.mem_of_mem_head? hd), ?_⟩
  exact (List.isChain_isInfix t.toList).imp fun c d hpair => hapart (hpair.subset (by simp))

theorem quiet_toString (n : Nat) : Quiet (toString n) := by
  apply quiet_of_not_mem
  rw [Nat.toString_eq_repr, Nat.toList_repr]
  intro h
  have hdigit := Nat.isDigit_of_mem_toDigits (by decide) (by decide) h
  cases hdigit

theorem quiet_editionText (n : Nat) : Quiet (editionText n) := by
  unfold editionText Number.ordinal
  refine ((quiet_toString n).append ?_).append (by decide)
  split_ifs <;> decide

theorem quiet_pageReference (p : PageSpan) : Quiet (pageReference p) := by
  have hone : Quiet "p. " := by decide
  have hmany : Quiet "pp. " := by decide
  have hdash : Quiet "-" := by decide
  unfold pageReference
  split_ifs
  · exact hone.append (quiet_toString _)
  · exact ((hmany.append (quiet_toString _)).append hdash).append (quiet_toString _)

theorem quiet_issueText (volume issue : Option Nat) : Quiet (issueText volume issue) := by
  have hopen : Quiet "(" := by decide
  have hclose : Quiet ")" := by decide
  have hempty : Quiet "" := by decide
  unfold issueText
  apply Quiet.append
  · cases volume with
    | none => exact hempty
    | some n => exact quiet_toString n
  · cases issue with
    | none => exact hempty
    | some n => exact (hopen.append (quiet_toString n)).append hclose

theorem quiet_padded (width n : Nat) : Quiet (Date.padded width n) := by
  apply quiet_of_not_mem
  simp only [Date.padded, String.toList_ofList, List.mem_append, List.mem_replicate, not_or,
    not_and]
  refine ⟨fun _ => by decide, fun h => ?_⟩
  have hdigit := Nat.isDigit_of_mem_toDigits (by decide) (by decide) h
  cases hdigit

theorem quiet_monthName (month : Nat) : Quiet (Date.monthName month) := by
  unfold Date.monthName
  split <;> decide

theorem quiet_yearText (year : Int) : Quiet (Date.yearText year) := by
  have hminus : Quiet "-" := by decide
  have hplus : Quiet "+" := by decide
  unfold Date.yearText
  split_ifs
  · exact hminus.append (quiet_padded 4 _)
  · exact hplus.append (quiet_padded 4 _)
  · exact quiet_padded 4 _

theorem quiet_accessText (g : Guide) (d : Date) : Quiet (accessText g d) := by
  have hspace : Quiet " " := by decide
  have hcomma : Quiet ", " := by decide
  have hmonth := quiet_monthName d.month
  have hday := quiet_toString d.day
  have hyear := quiet_yearText d.year
  cases g with
  | mla9 =>
    have hword : Quiet "Accessed " := by decide
    exact hword.append ((((hday.append hspace).append hmonth).append hspace).append hyear)
  | house =>
    have hword : Quiet "accessed " := by decide
    exact hword.append ((((hmonth.append hspace).append hday).append hcomma).append hyear)

end

/-! ## Pieces that fit -/

/-- The characters do not end a sentence. -/
def Unended (front : List Char) : Prop := ∀ c ∈ front.getLast?, isStop c = false

/-- The pieces may stand wherever no sentence has just ended. -/
def Fitting (ends : List String) (ps : List Piece) : Prop :=
  ∀ front, Unended front → Laid ends front ps

/-- The pieces are fitting, and what stands behind them may be so, too. -/
structure Leading (ends : List String) (ps : List Piece) : Prop where
  fitting : Fitting ends ps
  unended : ∀ front, Unended front → Unended (front ++ charsOf ps)

section

variable {ends : List String} {ps qs : List Piece} {runs : List (List Piece)} {front cs : List Char}
  {t : String}

theorem EndsAs.of_mem (h : t ∈ ends) (hcs : cs = t.toList) : EndsAs ends cs :=
  fun _ hc _ => ⟨t, h, hcs ▸ hc⟩

theorem unended_nil : Unended [] := by simp [Unended]

theorem Unended.meets (h : Unended front) (cs : List Char) : Meets front cs := by
  intro c hc d _ hstop
  rw [h c hc] at hstop
  cases hstop

theorem Quiet.meets (h : Quiet t) (front : List Char) : Meets front t.toList :=
  fun _ _ d hd _ => (List.isChain_cons.mp h).1 d hd rfl

theorem fitting_nil : Fitting ends [] := fun _ _ => trivial

theorem leading_nil : Leading ends [] where
  fitting := fitting_nil
  unended front hfront := by rwa [charsOf_nil, List.append_nil]

theorem Leading.append (h : Leading ends ps) (hqs : Fitting ends qs) : Fitting ends (ps ++ qs) :=
  fun front hfront => laid_append.mpr ⟨h.fitting front hfront, hqs _ (h.unended front hfront)⟩

theorem Leading.trans (h : Leading ends ps) (hqs : Leading ends qs) : Leading ends (ps ++ qs) where
  fitting := h.append hqs.fitting
  unended front hfront := by
    rw [charsOf_append, ← List.append_assoc]
    exact hqs.unended _ (h.unended front hfront)

/-- What is given may stand wherever no sentence has just ended. -/
theorem fitting_given (t : String) : Fitting ends [.given t] := fun _ hfront =>
  ⟨hfront.meets t.toList, trivial⟩

theorem Fitting.form (h : Fitting ends ps) (ht : Quiet t) : Fitting ends (ps ++ [.form t]) :=
  fun front hfront => laid_append.mpr ⟨h front hfront, ⟨ht.meets _, ht.tail⟩, trivial⟩

/-- A full stop may be put behind pieces that end no sentence but as one of the texts does. -/
theorem Fitting.stop (h : Fitting ends ps) (hends : EndsAs ends (charsOf ps)) :
    Fitting ends (ps ++ [.stop]) := by
  intro front hfront
  refine laid_append.mpr ⟨h front hfront, ?_, trivial⟩
  intro c hc hstop
  rw [List.getLast?_append] at hc
  cases hlast : (charsOf ps).getLast? with
  | none =>
    rw [hlast] at hc
    have hopen : isStop c = false := hfront c (by simpa using hc)
    rw [hopen] at hstop
    cases hstop
  | some d =>
    rw [hlast] at hc
    obtain rfl : d = c := by simpa using hc
    exact hends d hlast hstop

/-- A full stop that is missing comes behind no other. -/
theorem Fitting.missingStop (h : Fitting ends ps) (hchars : charsOf ps = t.toList) :
    Fitting ends (ps ++ [.form (missingStop t)]) := by
  intro front hfront
  refine laid_append.mpr ⟨h front hfront, ⟨?_, ?_⟩, trivial⟩
  · rw [hchars]
    intro c hc d hd hstop
    unfold Entry.missingStop at hd
    split_ifs at hd with hend
    · cases hd
    · -- without a stop at its end, the text is empty or goes on with another character
      rw [List.getLast?_append] at hc
      cases hlast : t.toList.getLast? with
      | none =>
        rw [hlast] at hc
        have hopen : isStop c = false := hfront c (by simpa using hc)
        rw [hopen] at hstop
        cases hstop
      | some e =>
        rw [hlast] at hc hend
        obtain rfl : e = c := by simpa using hc
        exact absurd hstop hend
  · unfold Entry.missingStop
    split_ifs <;> decide

theorem Fitting.gap (h : Fitting ends ps) (ht : Gap t) : Leading ends (ps ++ [.form t]) where
  fitting := h.form ht.quiet
  unended front _ := by
    obtain ⟨c, hc, hopen⟩ := ht.last
    have hlast : (front ++ charsOf (ps ++ [.form t])).getLast? = some c := by
      have hchars : front ++ charsOf (ps ++ [.form t]) = (front ++ charsOf ps) ++ t.toList := by
        simp
      rw [hchars, List.getLast?_append, hc, Option.some_or]
    intro d hd
    rw [hlast] at hd
    obtain rfl := Option.some.inj hd
    exact hopen

/-- A text of the source may be closed if it is one of the texts. -/
theorem fitting_closed (h : t ∈ ends) : Fitting ends [.given t, .stop] :=
  (fitting_given t).stop (.of_mem h (by simp))

theorem leading_gap (ht : Gap t) : Leading ends [.form t] := fitting_nil.gap ht

/-! ### Runs -/

/-- Every run may stand wherever no sentence has just ended. -/
def FittingRuns (ends : List String) (runs : List (List Piece)) : Prop :=
  ∀ ps ∈ runs, Fitting ends ps

@[simp]
theorem fittingRuns_nil : FittingRuns ends [] := List.forall_mem_nil _

@[simp]
theorem fittingRuns_cons (ps : List Piece) (runs : List (List Piece)) :
    FittingRuns ends (ps :: runs) ↔ Fitting ends ps ∧ FittingRuns ends runs :=
  List.forall_mem_cons

@[simp]
theorem fittingRuns_append (runs others : List (List Piece)) :
    FittingRuns ends (runs ++ others) ↔ FittingRuns ends runs ∧ FittingRuns ends others :=
  List.forall_mem_append

theorem gap_comma : Gap ", " := ⟨by decide, ' ', rfl, rfl⟩

theorem gap_space : Gap " " := ⟨by decide, ' ', rfl, rfl⟩

theorem Fitting.behind (h : Fitting ends ps) (ht : Gap t) (hqs : Fitting ends qs) :
    Fitting ends (ps ++ .form t :: qs) := by
  rw [List.append_cons]
  exact (h.gap ht).append hqs

theorem fitting_joined (hruns : FittingRuns ends runs) (ht : Gap t) :
    Fitting ends (joined t runs) := by
  fun_induction joined t runs with
  | case1 => exact fitting_nil
  | case2 ps => exact hruns ps List.mem_cons_self
  | case3 ps qs rest ih =>
    obtain ⟨hps, hrest⟩ := (fittingRuns_cons ps _).mp hruns
    exact hps.behind ht (ih hrest)

theorem fitting_joinedWithLast (hruns : FittingRuns ends runs) (ht : Gap t) :
    Fitting ends (joinedWithLast t runs) := by
  have hfront : FittingRuns ends runs.dropLast :=
    fun ps hps => hruns ps (List.dropLast_subset runs hps)
  unfold joinedWithLast
  cases hlast : runs.getLast? with
  | none => exact fitting_nil
  | some last =>
    have hlast : Fitting ends last := hruns last (List.mem_of_getLast? hlast)
    dsimp only
    split_ifs
    · exact hlast
    · exact (fitting_joined hfront gap_comma).behind ht hlast

/-- Joined texts end as the last of them, or with the separator. -/
theorem endsAs_joinWith {texts : List String} (h : ∀ t ∈ texts.getLast?, t ∈ ends) :
    EndsAs ends (Text.joinWith ", " texts).toList := by
  fun_induction Text.joinWith ", " texts with
  | case1 =>
    intro c hc
    simp at hc
  | case2 t => exact .of_mem (h t rfl) rfl
  | case3 t u rest ih =>
    rw [List.getLast?_cons_cons] at h
    intro c hc hstop
    rw [String.toList_append, String.toList_append, List.getLast?_append] at hc
    cases hlast : (Text.joinWith ", " (u :: rest)).toList.getLast? with
    | some d =>
      rw [hlast] at hc
      obtain rfl : d = c := by simpa using hc
      exact ih h d hlast hstop
    | none =>
      rw [hlast] at hc
      obtain rfl : ' ' = c := by simpa using hc
      cases hstop

theorem fitting_sentence {texts : List String} (hruns : FittingRuns ends runs)
    (hchars : runs.map charsOf = texts.map String.toList)
    (hlast : ∀ t ∈ texts.getLast?, t ∈ ends) : Fitting ends (sentence runs) := by
  unfold sentence
  split_ifs
  · exact fitting_nil
  · apply (fitting_joined hruns gap_comma).stop
    rw [charsOf_joined hchars]
    exact endsAs_joinWith hlast

@[simp]
theorem fittingRuns_givenRun (text : Option String) : FittingRuns ends (givenRun text) := by
  cases text with
  | none => exact fittingRuns_nil
  | some t => exact (fittingRuns_cons _ _).mpr ⟨fitting_given t, fittingRuns_nil⟩

theorem fittingRuns_formRun {α : Type} {form : α → String} (h : ∀ a, Quiet (form a))
    (value : Option α) : FittingRuns ends (formRun form value) := by
  cases value with
  | none => exact fittingRuns_nil
  | some a => exact (fittingRuns_cons _ _).mpr ⟨fitting_nil.form (h a), fittingRuns_nil⟩

/-! ### Authors -/

theorem fitting_givenWords (text : String) : Fitting ends (givenWords text) := by
  apply fitting_joined _ gap_space
  intro ps hps
  obtain ⟨word, -, rfl⟩ := List.mem_map.mp hps
  exact fitting_given word

theorem fitting_fullName (n : PersonalName) : Fitting ends (fullName n) := by
  unfold fullName
  split
  · exact (fitting_givenWords _).behind gap_space (fitting_given _)
  · exact fitting_given _

theorem fitting_invertedName (n : PersonalName) : Fitting ends (invertedName n) := by
  unfold invertedName
  split
  · exact (fitting_given _).behind gap_comma (fitting_givenWords _)
  · exact fitting_given _

theorem fitting_authorPieces (g : Guide) (names : List PersonalName) :
    Fitting ends (authorPieces g names) := by
  cases g with
  | mla9 =>
    match names with
    | [] => exact fitting_nil
    | [only] => exact fitting_invertedName only
    | [first, second] =>
      have hand : Gap ", and " := ⟨by decide, ' ', rfl, rfl⟩
      exact (fitting_invertedName first).behind hand (fitting_fullName second)
    | first :: second :: third :: rest => exact (fitting_invertedName first).form (by decide)
  | house =>
    have hand : Gap " & " := ⟨by decide, ' ', rfl, rfl⟩
    refine fitting_joinedWithLast (fun ps hps => ?_) hand
    obtain ⟨n, -, rfl⟩ := List.mem_map.mp hps
    exact fitting_fullName n

end

/-! ## The form of the guides -/

/-- The texts that the form of a guide puts a full stop behind without a look at their end. -/
def untested (g : Guide) (w : Work) : List String :=
  match g with
  | .mla9 =>
    (if w.standsAlone then [w.title] else [])
      ++ (w.container?.toList ++ mla9Details w).getLast?.toList
      ++ (accessed? w).toList.map (accessText .mla9)
  | .house =>
    let head := if w.authors.isEmpty then w.title else Guide.authorList .house w.authors
    (if w.year.isNone then [head] else []) ++ (if w.authors.isEmpty then [] else [w.title])
      ++ w.container?.toList ++ (houseDetails w).getLast?.toList

section

variable {ends : List String} {w : Work}

theorem fittingRuns_mla9Runs (w : Work) : FittingRuns ends (mla9Runs w) := by
  have hvolume (n : Nat) : Quiet ("vol. " ++ toString n) :=
    Quiet.append (by decide) (quiet_toString n)
  have hissue (n : Nat) : Quiet ("no. " ++ toString n) :=
    Quiet.append (by decide) (quiet_toString n)
  have hversion (platform : Option String) :
      FittingRuns ends (platform.map fun t => [Piece.given t, .form " version"]).toList := by
    cases platform with
    | none => exact fittingRuns_nil
    | some t =>
      have hword : Quiet " version" := by decide
      exact (fittingRuns_cons _ _).mpr ⟨(fitting_given t).form hword, fittingRuns_nil⟩
  unfold mla9Runs
  refine (fittingRuns_append _ _).mpr ⟨?_, fittingRuns_givenRun w.url⟩
  cases w.details with
  | _ =>
    simp only [fittingRuns_append, fittingRuns_cons, fittingRuns_nil, fittingRuns_givenRun,
      fitting_given, fittingRuns_formRun quiet_editionText, fittingRuns_formRun hvolume,
      fittingRuns_formRun hissue, fittingRuns_formRun quiet_pageReference, hversion, and_self]

theorem fittingRuns_houseRuns (w : Work) : FittingRuns ends (houseRuns w) := by
  have hissue (volume issue : Option Nat) :
      FittingRuns ends (if volume.isNone && issue.isNone then []
      else [[.form (issueText volume issue)]]) := by
    split_ifs
    · exact fittingRuns_nil
    · exact (fittingRuns_cons _ _).mpr
        ⟨fitting_nil.form (quiet_issueText volume issue), fittingRuns_nil⟩
  unfold houseRuns
  simp only [fittingRuns_append, fittingRuns_givenRun, and_true,
    fittingRuns_formRun (quiet_accessText .house)]
  cases w.details with
  | _ =>
    simp only [fittingRuns_append, fittingRuns_cons, fittingRuns_nil, fittingRuns_givenRun,
      fitting_given, fittingRuns_formRun quiet_editionText, hissue,
      fittingRuns_formRun quiet_pageReference, and_self]

theorem fitting_yearPieces {ps : List Piece} (h : Fitting ends ps) (year : Option String) :
    Fitting ends (ps ++ yearPieces year) := by
  have hopen : Gap " (" := ⟨by decide, '(', rfl, rfl⟩
  cases year with
  | none => rwa [yearPieces, Option.elim_none, List.append_nil]
  | some y => exact h.behind hopen ((fitting_given y).form (by decide))

/-- Behind a year there is no end of a sentence. -/
theorem endsAs_yearPieces {ps : List Piece} {year : Option String}
    (h : year = none → EndsAs ends (charsOf ps)) :
    EndsAs ends (charsOf (ps ++ yearPieces year)) := by
  cases year with
  | none => rw [yearPieces, Option.elim_none, List.append_nil]; exact h rfl
  | some y =>
    have hchars : charsOf (ps ++ yearPieces (some y))
        = (charsOf ps ++ " (".toList ++ y.toList) ++ [')'] := by simp [yearPieces]
    intro c hc hstop
    rw [hchars, List.getLast?_concat] at hc
    obtain rfl := Option.some.inj hc
    cases hstop

theorem leading_placePieces {container : Option String} (h : ∀ t ∈ container, t ∈ ends) :
    Leading ends (placePieces container) := by
  have hin : Gap "In " := ⟨by decide, ' ', rfl, rfl⟩
  cases container with
  | none => exact leading_nil
  | some c =>
    exact ((leading_gap hin).append (fitting_closed (h c rfl))).gap gap_space

theorem fitting_mla9Layout (h : ∀ n ∈ w.authors, Worded n) :
    Fitting (untested .mla9 w) (mla9Layout w) := by
  have hopen : Gap "\"" := ⟨by decide, '"', rfl, rfl⟩
  have hclose : Gap "\" " := ⟨by decide, ' ', rfl, rfl⟩
  have hauthors : Leading (untested .mla9 w) (if w.authors.isEmpty then []
      else authorPieces .mla9 w.authors
        ++ [.form (missingStop (Guide.authorList .mla9 w.authors)), .form " "]) := by
    split_ifs
    · exact leading_nil
    · rw [List.append_cons]
      have hchars := charsOf_authorPieces .mla9 h
      exact ((fitting_authorPieces .mla9 w.authors).missingStop hchars).gap gap_space
  have htitle : Leading (untested .mla9 w)
      (if w.standsAlone then [.given w.title, .stop, .form " "]
      else [.form "\"", .given w.title, .form (missingStop w.title), .form "\" "]) := by
    split_ifs with halone
    · exact (fitting_closed (by simp [untested, halone])).gap gap_space
    · have hown : Fitting (untested .mla9 w) ([.given w.title] ++ [.form (missingStop w.title)]) :=
        (fitting_given w.title).missingStop (by simp)
      exact ((leading_gap hopen).append hown).gap hclose
  have hplace : Fitting (untested .mla9 w) (sentence (givenRun w.container? ++ mla9Runs w)) := by
    have hruns : FittingRuns (untested .mla9 w) (givenRun w.container? ++ mla9Runs w) :=
      (fittingRuns_append _ _).mpr ⟨fittingRuns_givenRun _, fittingRuns_mla9Runs w⟩
    have hchars : (givenRun w.container? ++ mla9Runs w).map charsOf
        = (w.container?.toList ++ mla9Details w).map String.toList := by
      rw [List.map_append, List.map_append, charsOf_givenRun, charsOf_mla9Runs]
    refine fitting_sentence hruns hchars fun t ht => ?_
    exact List.mem_append_left _ (List.mem_append_right _ (Option.mem_toList.mpr ht))
  have hentry := (hauthors.trans htitle).append hplace
  unfold mla9Layout
  cases hdate : accessed? w with
  | none => rwa [List.append_nil]
  | some d =>
    have hmem : accessText .mla9 d ∈ untested .mla9 w :=
      List.mem_append_right _ (by rw [hdate]; exact List.mem_singleton_self _)
    have hown := (fitting_nil.form (quiet_accessText .mla9 d)).stop (.of_mem hmem (by simp))
    exact hentry.behind gap_space hown

theorem fitting_houseLayout (h : ∀ n ∈ w.authors, Worded n) :
    Fitting (untested .house w) (houseLayout w) := by
  have hhead : Leading (untested .house w) (if w.authors.isEmpty
      then .given w.title :: yearPieces w.year ++ [.stop, .form " "]
      else authorPieces .house w.authors ++ yearPieces w.year
        ++ [.stop, .form " ", .given w.title, .stop, .form " "]) := by
    split_ifs with hempty
    · have hends (hyear : w.year = none) :
          EndsAs (untested .house w) (charsOf [.given w.title]) := by
        have hmem : w.title ∈ untested .house w := by simp [untested, hempty, hyear]
        exact .of_mem hmem (by simp)
      have hdated := (fitting_yearPieces (fitting_given w.title) w.year).stop
        (endsAs_yearPieces hends)
      simpa using hdated.gap gap_space
    · have hends (hyear : w.year = none) :
          EndsAs (untested .house w) (charsOf (authorPieces .house w.authors)) := by
        have hmem : Guide.authorList .house w.authors ∈ untested .house w := by
          simp [untested, hempty, hyear]
        exact .of_mem hmem (charsOf_authorPieces .house h)
      have hdated := (fitting_yearPieces (fitting_authorPieces .house w.authors) w.year).stop
        (endsAs_yearPieces hends)
      have htitle : w.title ∈ untested .house w := by simp [untested, hempty]
      simpa using (hdated.gap gap_space).trans ((fitting_closed htitle).gap gap_space)
  have hplace : ∀ t ∈ w.container?, t ∈ untested .house w := fun t ht =>
    List.mem_append_left _ (List.mem_append_right _ (Option.mem_toList.mpr ht))
  refine (hhead.trans (leading_placePieces hplace)).append ?_
  refine fitting_sentence (fittingRuns_houseRuns w) (charsOf_houseRuns w) fun t ht => ?_
  exact List.mem_append_right _ (Option.mem_toList.mpr ht)

/-- The pieces of an entry may stand one after the other. -/
theorem laid_layout (g : Guide) (h : ∀ n ∈ w.authors, Worded n) :
    Laid (untested g w) [] (layout g w) := by
  cases g with
  | mla9 => exact fitting_mla9Layout h [] unended_nil
  | house => exact fitting_houseLayout h [] unended_nil

end

end Entry

/-! ## Sources that passed their check -/

/-- What ends with a visible character goes on in front of the white space at the end of a text. -/
theorem Entry.prefix_of_blanks {front text blanks : List Char} {d : Char}
    (hd : isBlank d = false) (h : front ++ [d] <+: text ++ blanks)
    (hblanks : ∀ c ∈ blanks, isBlank c = true) : front ++ [d] <+: text := by
  obtain ⟨back, hback⟩ := h
  rcases List.append_eq_append_iff.mp hback with ⟨rest, htext, -⟩ | ⟨rest, hfront, hrest⟩
  · exact ⟨rest, htext.symm⟩
  · rcases List.eq_nil_or_concat' rest with rfl | ⟨rest, e, rfl⟩
    · have heq : front ++ [d] = text := by rw [hfront, List.append_nil]
      exact heq ▸ List.prefix_refl text
    · rw [← List.append_assoc] at hfront
      obtain rfl : d = e := by simpa using (List.append_inj' hfront rfl).2
      have hblank := hblanks d (by rw [hrest]; simp)
      rw [hd] at hblank
      cases hblank

/-- A source that passes its check has an entry that is made of values of its fields, of what the
form of the guide adds, and of full stops. In its text a full stop stands directly behind a full
stop, a question mark or an exclamation mark exactly where a value of the source has the two side by
side, and where the form puts a full stop without a look at what stands in front of it. The latter
takes a text that ends so itself. -/
theorem Source.stops_of_check {s : Source} (hcheck : s.check = .ok ()) (g : Guide) :
    ∃ w, Work.ofSource s = .ok w
      ∧ (∀ t, .given t ∈ Entry.layout g w → s.Says t)
      ∧ (∃ blanks, Entry.charsOf (Entry.layout g w) = (Entry.ofWork g w).text.toList ++ blanks
        ∧ ∀ c ∈ blanks, isBlank c = true)
      ∧ ∀ front c, isStop c = true →
        (front ++ [c, '.'] <+: (Entry.ofWork g w).text.toList
          ↔ Entry.GivesStop (Entry.layout g w) front c
            ∨ Entry.PutsStop (Entry.layout g w) front c)
        ∧ (Entry.PutsStop (Entry.layout g w) front c →
          ∃ t ∈ Entry.untested g w, t.toList.getLast? = some c) := by
  obtain ⟨w, hw⟩ := succeeds_ofSource hcheck
  have hworded : ∀ n ∈ w.authors, Entry.Worded n := by
    obtain ⟨_, _, -, -, rfl⟩ := Work.of_ofSource hw
    intro n hn
    obtain ⟨l, -, rfl⟩ := List.mem_map.mp hn
    exact PersonalName.worded_ofText l.value
  have hlaid := Entry.laid_layout g hworded
  obtain ⟨blanks, hsplit, hblanks⟩ := Entry.charsOf_layout g hworded
  refine ⟨w, hw, fun t => Source.says_of_layout hw, ⟨blanks, hsplit, hblanks⟩, ?_⟩
  intro front c hc
  refine ⟨?_, fun hput => hlaid.endsAs hput hc⟩
  rw [← Entry.doubled_iff hlaid hc, hsplit]
  constructor
  · exact fun h => h.trans (List.prefix_append _ blanks)
  · -- the white space at the end holds no full stop
    intro h
    rw [List.append_cons] at h ⊢
    exact Entry.prefix_of_blanks rfl h hblanks

/-- A book whose title is a question. -/
def askingBook : Source :=
  let text (value : String) : Literal := ⟨value, ⟨2, 9⟩⟩
  { kind := .book, position := ⟨1, 5⟩
    authors := [text "Ann Lee"], title := text "Who?", publisher := text "Crown" }

/-- The question mark at the end of the title, which the MLA form has a full stop behind. -/
theorem Source.stops_of_check_asking : askingBook.check = .ok () ∧
    ∃ w, Work.ofSource askingBook = .ok w
      ∧ (Entry.GivesStop (Entry.layout .mla9 w) "Lee, Ann. Who".toList '?'
        ∨ Entry.PutsStop (Entry.layout .mla9 w) "Lee, Ann. Who".toList '?') := by
  have hcheck : askingBook.check = .ok () := by rfl
  obtain ⟨w, hw, -, -, hstops⟩ := Source.stops_of_check hcheck .mla9
  refine ⟨hcheck, w, hw, (hstops _ '?' rfl).1.mp ?_⟩
  have hwork : Work.ofSource askingBook = .ok _ := rfl
  obtain rfl := Except.ok.inj (hw.symm.trans hwork)
  decide +kernel

/-- No value of the source has a full stop behind a question mark, but the entries have. -/
theorem Source.stop_behind_question : askingBook.check = .ok () ∧
    (∀ t, askingBook.Says t → ¬ ['?', '.'] <:+: t.toList) ∧
    ∀ g, ∃ w, Work.ofSource askingBook = .ok w
      ∧ ['?', '.'] <:+: (Entry.ofWork g w).text.toList := by
  refine ⟨by rfl, ?_, fun g => ⟨_, rfl, by cases g <;> decide +kernel⟩⟩
  have hauthors : ∀ l ∈ askingBook.authors, ¬ ['?', '.'] <:+: l.trimmed.toList := by
    decide +kernel
  have hfields : ∀ k ∈ Source.keywords, ∀ l ∈ askingBook.get k,
      ¬ ['?', '.'] <:+: l.trimmed.toList := by decide +kernel
  rintro t (⟨l, hl, hinfix⟩ | ⟨k, l, hl, rfl⟩) hpair
  · exact hauthors l hl (hpair.trans hinfix)
  · exact hfields k (Source.mem_keywords (by rw [hl]; rfl)) l hl hpair

end Manuscript
