import Manuscript.Proofs.Compilation.Parts
import Manuscript.Proofs.Compilation.Shelf
import Manuscript.Proofs.Validation.Valid

/-!
# Acceptance

The check of a specification accepts exactly the valid ones. Each check is shown to accept what the
condition on its node says; the check of a node is then its parts' conditions in a row.

* `seq_ok_iff`, `forM_ok_iff`, `checkField_ok_iff`: checks that are put together accept what their
  parts accept.
* `checkPartsOnce_ok_iff`, `checkIdsOnce_ok_iff`: the scans for repetitions accept lists without.
* `Specification.check_iff_valid`: a specification passes its check if and only if it is valid.
-/

namespace Manuscript

open Manuscript.Character (isAsciiDigit)

/-! ## Checks put together -/

section Except

variable {ε α β : Type}

theorem seq_ok_iff {x : Except ε Unit} {y : Except ε β} {b : β} :
    (x >>= fun _ => y) = .ok b ↔ x = .ok () ∧ y = .ok b := by
  constructor
  · exact of_seq_ok
  · rintro ⟨rfl, hy⟩
    exact hy

theorem forM_ok_iff {f : α → Except ε Unit} {as : List α} :
    as.forM f = .ok () ↔ ∀ a ∈ as, f a = .ok () := by
  constructor
  · exact of_forM_ok
  · intro h
    induction as with
    | nil => rfl
    | cons a as ih =>
      have hrest : as.forM f = .ok () := ih fun b hb => h b (List.mem_cons_of_mem a hb)
      exact seq_ok_iff.mpr ⟨h a List.mem_cons_self, hrest⟩

theorem succeeds_map_iff {x : Except ε α} {f : α → β} : Succeeds (x.map f) ↔ Succeeds x := by
  constructor
  · rintro ⟨b, hb⟩
    exact succeeds_of_map hb
  · exact fun h => h.map f

/-- A check gives nothing but its success. -/
theorem ok_iff_succeeds {x : Except ε Unit} : x = .ok () ↔ Succeeds x :=
  ⟨fun h => ⟨(), h⟩, fun ⟨_, h⟩ => h⟩

/-- A check that throws under a condition. -/
theorem throw_ok_iff {c : Prop} [Decidable c] {e : ε} :
    (if c then throw e else pure () : Except ε Unit) = .ok () ↔ ¬ c := by
  by_cases h : c
  · rw [if_pos h]
    exact iff_of_false nofun (not_not_intro h)
  · rw [if_neg h]
    exact iff_of_true rfl h

end Except

theorem checkField_ok_iff {α : Type} {f : Literal → Except Fault α} {field : Option Literal} :
    checkField f field = .ok () ↔ ∀ l ∈ field, Succeeds (f l) := by
  constructor
  · exact of_checkField
  · intro h
    cases field with
    | none => rfl
    | some l => exact ok_iff_succeeds.mpr ((h l rfl).map _)

theorem checkBlock_ok_iff {α : Type} {check : α → Except Fault Unit} {block : Option α} :
    checkBlock check block = .ok () ↔ ∀ b ∈ block, check b = .ok () := by
  constructor
  · exact of_checkBlock
  · intro h
    cases block with
    | none => rfl
    | some b => exact h b rfl

/-! ## Numbers -/

namespace Number

variable {cs : List Char} {n : Nat}

theorem digits?_eq_some_iff :
    digits? cs = some n ↔ cs ≠ [] ∧ (∀ d ∈ cs, isAsciiDigit d = true) ∧ ofDigits 0 cs = n := by
  unfold digits?
  rw [← List.all_eq_true]
  cases cs with
  | nil => simp
  | cons c cs =>
    cases hall : (c :: cs).all isAsciiDigit with
    | true => simp
    | false => simp

/-- A plus sign may stand in front of the digits, and is none of them. -/
theorem natural?_eq_some_iff :
    natural? cs = some n ↔ ∃ sign digits, cs = sign ++ digits ∧ (sign = [] ∨ sign = ['+'])
      ∧ digits? digits = some n ∧ n ≤ limit := by
  have hfits (digits : List Char) :
      (digits? digits).bind (fun n => if n ≤ limit then some n else none) = some n
        ↔ digits? digits = some n ∧ n ≤ limit := by
    cases digits? digits with
    | none => simp
    | some m =>
      by_cases hm : m ≤ limit
      · simp [hm]
        omega
      · simp [hm]
        omega
  unfold natural?
  dsimp only
  constructor
  · split
    next rest => exact fun h => ⟨['+'], rest, rfl, .inr rfl, (hfits rest).mp h⟩
    next => exact fun h => ⟨[], cs, rfl, .inl rfl, (hfits cs).mp h⟩
  · rintro ⟨sign, digits, rfl, rfl | rfl, h⟩
    · split
      next rest heq =>
        -- a plus sign is no digit
        obtain ⟨-, hall, -⟩ := digits?_eq_some_iff.mp h.1
        have hplus : isAsciiDigit '+' = true := hall '+' (by simp_all)
        cases hplus
      next => exact (hfits digits).mpr h
    · exact (hfits digits).mpr h

theorem positive?_eq_some_iff : positive? cs = some n ↔ natural? cs = some n ∧ 0 < n := by
  unfold positive?
  cases natural? cs with
  | none => simp
  | some m =>
    by_cases hm : m = 0
    · simp [hm]
      omega
    · simp [hm]
      omega

/-- A positive number is written in digits, with at most one plus sign in front, and fits in 32
bits. -/
theorem positive?_iff_digits : positive? cs = some n ↔ ∃ sign digits, cs = sign ++ digits
    ∧ (sign = [] ∨ sign = ['+']) ∧ digits ≠ [] ∧ (∀ d ∈ digits, isAsciiDigit d = true)
    ∧ ofDigits 0 digits = n ∧ 0 < n ∧ n < 4294967296 := by
  rw [positive?_eq_some_iff, natural?_eq_some_iff]
  constructor
  · rintro ⟨⟨sign, digits, hcs, hsign, hdigits, hlimit⟩, hpositive⟩
    obtain ⟨hne, hall, hvalue⟩ := digits?_eq_some_iff.mp hdigits
    exact ⟨sign, digits, hcs, hsign, hne, hall, hvalue, hpositive, Nat.lt_succ_of_le hlimit⟩
  · rintro ⟨sign, digits, hcs, hsign, hne, hall, hvalue, hpositive, hlimit⟩
    have hdigits : digits? digits = some n := digits?_eq_some_iff.mpr ⟨hne, hall, hvalue⟩
    exact ⟨⟨sign, digits, hcs, hsign, hdigits, Nat.le_of_lt_succ hlimit⟩, hpositive⟩

end Number

/-! ## Literals -/

namespace Literal

variable {l : Literal}

theorem requireContent_ok_iff {field : String} :
    l.requireContent field = .ok () ↔ l.HasContent := by
  have hblank : l.isBlank = true ↔ ¬ l.HasContent := by
    unfold isBlank Text.isBlankText HasContent
    simp
  unfold requireContent
  by_cases h : l.isBlank = true
  · rw [if_pos h]
    exact iff_of_false nofun (hblank.mp h)
  · rw [if_neg h]
    exact iff_of_true rfl (not_not.mp (mt hblank.mpr h))

theorem parse_ok_iff {α : Type} {r : Reader α} {value : α} :
    l.parse r = .ok value ↔ r.read? l.value = some value := by
  unfold parse
  cases r.read? l.value with
  | none => simp
  | some v => simp

theorem parse_succeeds_iff {α : Type} {r : Reader α} : Succeeds (l.parse r) ↔ l.IsValue r :=
  exists_congr fun _ => parse_ok_iff

theorem positive_succeeds_iff {field : String} : Succeeds (l.positive field) ↔ l.IsPositive := by
  have hread : Succeeds (l.positive field) ↔ ∃ n, Number.positive? l.trimmedChars = some n := by
    unfold positive Succeeds
    cases Number.positive? l.trimmedChars <;> simp
  rw [hread]
  unfold IsPositive
  simp only [Number.positive?_iff_digits]
  constructor
  · rintro ⟨n, sign, digits, hcs, hsign, hne, hall, rfl, hpositive, hlimit⟩
    exact ⟨sign, digits, hcs, hsign, hne, hall, hpositive, hlimit⟩
  · rintro ⟨sign, digits, hcs, hsign, hne, hall, hpositive, hlimit⟩
    exact ⟨_, sign, digits, hcs, hsign, hne, hall, rfl, hpositive, hlimit⟩

theorem spacing_succeeds_iff : Succeeds l.spacing ↔ l.IsSpacing := by
  unfold spacing IsSpacing Succeeds
  cases hx : Number.Binary.read? l.trimmedChars with
  | none => simp
  | some x =>
    cases hgood : x.isFinite && x.isPositive with
    | true =>
      have hparts : x.isFinite = true ∧ x.isPositive = true := Bool.and_eq_true_iff.mp hgood
      rw [Option.filter_some, if_pos hgood]
      exact iff_of_true ⟨x, rfl⟩ ⟨x, rfl, hparts⟩
    | false =>
      rw [Option.filter_some, if_neg (by rw [hgood]; exact Bool.false_ne_true)]
      apply iff_of_false
      · rintro ⟨_, h⟩
        cases h
      · rintro ⟨_, ⟨⟩, h⟩
        rw [Bool.and_eq_true_iff.mpr h] at hgood
        cases hgood

theorem sameWord_none_iff :
    sameWord l.trimmedChars ['n', 'o', 'n', 'e'] = true ↔ l.SaysNone := by
  unfold sameWord SaysNone
  rw [beq_iff_eq]
  rfl

theorem date_succeeds_iff : Succeeds l.date ↔ l.IsDate ∨ l.SaysNone := by
  unfold date IsDate Succeeds
  by_cases hnone : l.SaysNone
  · rw [if_pos (sameWord_none_iff.mpr hnone)]
    exact iff_of_true ⟨none, rfl⟩ (.inr hnone)
  · rw [if_neg (mt sameWord_none_iff.mp hnone)]
    cases Date.read? l.trimmedChars with
    | none => simp [hnone]
    | some d => simp

/-- A letter that is a small n apart from its case. -/
theorem eq_of_toLower {c : Char} (h : c.toLower = 'n') : c = 'n' ∨ c = 'N' := by
  unfold Char.toLower at h
  split at h
  · right
    have hval : c.val + 32 = 110 := congrArg Char.val h
    have hback : c.val = c.val + 32 - 32 := by rw [UInt32.add_sub_cancel]
    apply Char.ext
    rw [hback, hval]
    rfl
  · exact .inl h

/-- The word for no date is no date: it does not begin with a digit. -/
theorem SaysNone.not_isDate (h : l.SaysNone) : ¬ l.IsDate := by
  rintro ⟨d, hd⟩
  unfold SaysNone at h
  obtain ⟨c, cs, hcs, hc, -⟩ := List.map_eq_cons_iff.mp h
  have hletter : c = 'n' ∨ c = 'N' := eq_of_toLower hc
  have hnumber : Date.number? 2 (c :: cs) = none := by
    rcases hletter with rfl | rfl <;> rfl
  unfold Date.read? at hd
  rw [hcs, hnumber] at hd
  cases hd

theorem requireDate_succeeds_iff : Succeeds l.requireDate ↔ l.IsDate := by
  unfold requireDate
  constructor
  · rintro ⟨_, h⟩
    obtain ⟨d, hd, h⟩ := of_bind_ok h
    rcases date_succeeds_iff.mp ⟨d, hd⟩ with hdate | hnone
    · exact hdate
    · unfold date at hd
      rw [if_pos (sameWord_none_iff.mpr hnone)] at hd
      cases hd
      cases h
  · intro hdate
    have hword : ¬ l.SaysNone := fun hnone => hnone.not_isDate hdate
    obtain ⟨d, hd⟩ := hdate
    unfold date
    rw [if_neg (mt sameWord_none_iff.mp hword), hd]
    exact ⟨(), rfl⟩

end Literal

/-! ## Fields -/

section

variable {field : Option Literal}

theorem checkContent_ok_iff {name : String} :
    checkContent field name = .ok () ↔ ∀ l ∈ field, l.HasContent := by
  unfold checkContent
  simp only [checkField_ok_iff, ← ok_iff_succeeds, Literal.requireContent_ok_iff]

theorem checkParse_ok_iff {α : Type} {r : Reader α} :
    checkField (Literal.parse r) field = .ok () ↔ ∀ l ∈ field, l.IsValue r := by
  simp only [checkField_ok_iff, Literal.parse_succeeds_iff]

theorem checkPositive_ok_iff {name : String} :
    checkField (Literal.positive name) field = .ok () ↔ ∀ l ∈ field, l.IsPositive := by
  simp only [checkField_ok_iff, Literal.positive_succeeds_iff]

theorem checkSpacing_ok_iff :
    checkField Literal.spacing field = .ok () ↔ ∀ l ∈ field, l.IsSpacing := by
  simp only [checkField_ok_iff, Literal.spacing_succeeds_iff]

theorem checkDate_ok_iff :
    checkField Literal.date field = .ok () ↔ ∀ l ∈ field, l.IsDate ∨ l.SaysNone := by
  simp only [checkField_ok_iff, Literal.date_succeeds_iff]

theorem requireDate_ok_iff :
    checkField Literal.requireDate field = .ok () ↔ ∀ l ∈ field, l.IsDate := by
  simp only [checkField_ok_iff, Literal.requireDate_succeeds_iff]

theorem checkValue_ok_iff {α : Type} {name : String} {r : Reader α} :
    checkValue field name r = .ok () ↔ ∀ l ∈ field, l.HasContent ∧ l.IsValue r := by
  unfold checkValue
  rw [seq_ok_iff, checkContent_ok_iff, checkParse_ok_iff]
  exact forall₂_and.symm

/-- A check of named fields, one after the other. -/
theorem forM_checkContent_ok_iff {fields : List (String × Option Literal)} :
    (fields.forM fun (name, field) => checkContent field name) = .ok ()
      ↔ ∀ field ∈ fields.map Prod.snd, ∀ l ∈ field, l.HasContent := by
  rw [forM_ok_iff, List.forall_mem_map]
  simp only [checkContent_ok_iff]

end

/-! ## Title, people and publication -/

theorem Title.check_ok_iff {t : Title} : t.check = .ok () ↔ t.Valid := by
  unfold Title.check
  simp only [seq_ok_iff, forM_ok_iff, throw_ok_iff, List.isEmpty_iff,
    Literal.requireContent_ok_iff, Title.valid_iff, ne_eq]

theorem Person.check_ok_iff {p : Person} : p.check = .ok () ↔ p.Valid := by
  unfold Person.check
  simp only [seq_ok_iff, checkContent_ok_iff]
  constructor
  · rintro ⟨hname, hfirst, hlast, hrole, hinstitution, hnamed⟩
    constructor
    · simp only [List.forall_mem_cons]
      exact ⟨hname, hfirst, hlast, hrole, hinstitution, nofun⟩
    · split at hnamed
      next hn hf hl => exact .inl ⟨by rw [hn]; rfl, hf, hl⟩
      next hn hf hl => exact .inr ⟨hn, by rw [hf]; rfl, by rw [hl]; rfl⟩
      all_goals cases hnamed
  · rintro ⟨hcontent, hnamed⟩
    simp only [List.forall_mem_cons] at hcontent
    obtain ⟨hname, hfirst, hlast, hrole, hinstitution, -⟩ := hcontent
    refine ⟨hname, hfirst, hlast, hrole, hinstitution, ?_⟩
    rcases hnamed with ⟨hn, hf, hl⟩ | ⟨hn, hf, hl⟩
    · obtain ⟨name, hn⟩ := Option.isSome_iff_exists.mp hn
      rw [hn, hf, hl]
      rfl
    · obtain ⟨first, hf⟩ := Option.isSome_iff_exists.mp hf
      obtain ⟨last, hl⟩ := Option.isSome_iff_exists.mp hl
      rw [hn, hf, hl]
      rfl

theorem People.checkAuthors_ok_iff {people : People} :
    people.checkAuthors = .ok () ↔ people.members ≠ [] ∧ ∀ p ∈ people.members, p.Valid := by
  unfold People.checkAuthors
  rw [seq_ok_iff, forM_ok_iff, throw_ok_iff, List.isEmpty_iff]
  simp only [Person.check_ok_iff]
  exact and_comm

theorem People.checkAssessors_ok_iff {people : People} :
    people.checkAssessors = .ok () ↔ ∀ p ∈ people.members, p.Valid := by
  unfold People.checkAssessors
  simp only [forM_ok_iff, Person.check_ok_iff]

theorem Publication.check_ok_iff {p : Publication} : p.check = .ok () ↔ p.Valid := by
  unfold Publication.check
  rw [seq_ok_iff, seq_ok_iff, seq_ok_iff, forM_checkContent_ok_iff, checkDate_ok_iff,
    checkPositive_ok_iff, Publication.valid_iff]
  refine and_congr .rfl (and_congr .rfl (and_congr .rfl ?_))
  cases p.chair with
  | none => exact iff_of_true rfl nofun
  | some chair =>
    cases p.institution with
    | none => exact iff_of_false nofun fun h => Bool.false_ne_true (h rfl)
    | some institution => exact iff_of_true rfl fun _ => rfl

/-! ## Style -/

theorem FontBlock.check_ok_iff {b : FontBlock} : b.check = .ok () ↔ b.Valid := by
  unfold FontBlock.check
  simp only [seq_ok_iff, checkContent_ok_iff, checkPositive_ok_iff, checkParse_ok_iff,
    FontBlock.valid_iff]

theorem LayoutBlock.check_ok_iff {b : LayoutBlock} : b.check = .ok () ↔ b.Valid := by
  unfold LayoutBlock.check
  simp only [seq_ok_iff, checkParse_ok_iff, checkSpacing_ok_iff, LayoutBlock.valid_iff]

theorem ParagraphBlock.check_ok_iff {b : ParagraphBlock} : b.check = .ok () ↔ b.Valid := by
  unfold ParagraphBlock.check
  rw [checkParse_ok_iff, ParagraphBlock.valid_iff]

theorem SentenceBlock.check_ok_iff {b : SentenceBlock} : b.check = .ok () ↔ b.Valid := by
  unfold SentenceBlock.check
  simp only [seq_ok_iff, checkParse_ok_iff, SentenceBlock.valid_iff]

theorem NumerationBlock.check_ok_iff {b : NumerationBlock} : b.check = .ok () ↔ b.Valid := by
  unfold NumerationBlock.check
  simp only [seq_ok_iff, checkParse_ok_iff, forM_ok_iff, NumerationBlock.valid_iff]
  simp only [ok_iff_succeeds, succeeds_map_iff, Literal.parse_succeeds_iff]

theorem EndnotesBlock.check_ok_iff {b : EndnotesBlock} : b.check = .ok () ↔ b.Valid := by
  unfold EndnotesBlock.check
  simp only [seq_ok_iff, checkParse_ok_iff, EndnotesBlock.valid_iff]

/-- Reading a list of texts gives the values that they stand for. -/
theorem filterMap_of_mapM_parse {α : Type} {r : Reader α} {ls : List Literal} {values : List α}
    (h : ls.mapM (Literal.parse r) = .ok values) :
    (ls.filterMap fun l => r.read? l.value) = values := by
  induction ls generalizing values with
  | nil =>
    cases h
    rfl
  | cons l ls ih =>
    rw [List.mapM_cons] at h
    obtain ⟨value, hvalue, h⟩ := of_bind_ok h
    obtain ⟨rest, hrest, h⟩ := of_bind_ok h
    cases h
    have hl : r.read? l.value = some value := Literal.parse_ok_iff.mp hvalue
    rw [List.filterMap_cons, hl, ih hrest]

/-- The parts that a list names once at most are those that may not be repeated. -/
theorem PartList.single_eq {list : PartList} {parts : List Part} (h : list.read = .ok parts) :
    list.single = singleParts parts := by
  unfold PartList.single singleParts
  rw [filterMap_of_mapM_parse h]
  congr 1
  funext part
  cases part <;> rfl

theorem PartList.check_ok_iff {list : PartList} : list.check = .ok () ↔ list.Valid := by
  constructor
  · intro h
    obtain ⟨parts, hread, -⟩ := of_bind_ok h
    constructor
    · intro l hl
      obtain ⟨part, -, hpart⟩ := (mem_of_mapM_ok hread).1 l hl
      exact ⟨part, Literal.parse_ok_iff.mp hpart⟩
    · rw [PartList.single_eq hread]
      exact PartList.once_of_check h hread
  · rintro ⟨hparts, honce⟩
    have hread : Succeeds list.read :=
      succeeds_mapM fun l hl => Literal.parse_succeeds_iff.mpr (hparts l hl)
    obtain ⟨parts, hread⟩ := hread
    have hlength : parts.length = list.parts.length := (mapM_ok_iff.mp hread).length_eq.symm
    have hsnd : (list.parts.zip parts).map Prod.snd = parts := List.map_snd_zip (by omega)
    unfold PartList.check
    rw [hread]
    apply checkPartsOnce_ok_iff.mpr
    rw [hsnd]
    rw [PartList.single_eq hread] at honce
    exact ⟨honce, fun _ _ => List.not_mem_nil⟩

theorem StyleBlock.check_ok_iff {style : StyleBlock} : style.check = .ok () ↔ style.Valid := by
  unfold StyleBlock.check
  simp only [seq_ok_iff, checkBlock_ok_iff, checkContent_ok_iff, FontBlock.check_ok_iff,
    LayoutBlock.check_ok_iff, ParagraphBlock.check_ok_iff, SentenceBlock.check_ok_iff,
    NumerationBlock.check_ok_iff, PartList.check_ok_iff, EndnotesBlock.check_ok_iff,
    StyleBlock.valid_iff]

/-! ## Content -/

theorem Run.check_ok_iff {r : Run} : r.check = .ok () ↔ r.Valid := by
  unfold Run.check
  rw [seq_ok_iff, Literal.requireContent_ok_iff, Run.valid_iff]
  apply and_congr .rfl
  cases r with
  | citation _ page => exact checkContent_ok_iff
  | text | emphasise | bold | work | quote | note => exact iff_of_true rfl nofun

theorem ContentBlock.check_ok_iff {b : ContentBlock} : b.check = .ok () ↔ b.Valid := by
  unfold ContentBlock.check Sentence.check
  simp only [seq_ok_iff, forM_ok_iff, throw_ok_iff, List.isEmpty_iff, Run.check_ok_iff,
    ContentBlock.valid_iff, ne_eq]

theorem Image.check_ok_iff {i : Image} : i.check = .ok () ↔ i.Valid := by
  unfold Image.check
  rw [Image.valid_iff]
  cases hid : i.id with
  | none =>
    apply iff_of_false nofun
    rintro ⟨⟨_, h, _⟩, _⟩
    cases h
  | some id =>
    have hsome : (∃ l ∈ some id, l.HasContent) ↔ id.HasContent := by simp
    dsimp only
    simp only [seq_ok_iff, Literal.requireContent_ok_iff, checkValue_ok_iff, hsome]

theorem Element.check_ok_iff {e : Element} : e.check = .ok () ↔ e.Valid := by
  cases e with
  | chapter heading => exact Literal.requireContent_ok_iff
  | content b => exact ContentBlock.check_ok_iff
  | image i => exact Image.check_ok_iff
  | header _ | blank _ => exact iff_of_true rfl trivial

theorem Body.check_ok_iff {b : Body} : b.check = .ok () ↔ ∀ e ∈ b.elements, e.Valid := by
  unfold Body.check
  simp only [forM_ok_iff, Element.check_ok_iff]

/-! ## Bibliography -/

theorem Source.require_ok_iff {s : Source} {field : Option Literal} {name : String} :
    s.require field name = .ok () ↔ field.isSome := by
  unfold Source.require
  cases field with
  | none => exact iff_of_false nofun Bool.false_ne_true
  | some l => exact iff_of_true rfl rfl

theorem Source.checkKind_ok_iff {s : Source} : s.checkKind = .ok () ↔ s.HasOwn := by
  unfold Source.checkKind Source.HasOwn
  cases s.kind with
  | book | videogame | periodical => exact Source.require_ok_iff
  | music | poem => exact iff_of_true rfl trivial
  | webpage =>
    dsimp only
    cases s.website with
    | some l => exact iff_of_true rfl (.inl rfl)
    | none =>
      cases s.url with
      | some l => exact iff_of_true rfl (.inr rfl)
      | none => exact iff_of_false nofun (by simp)

theorem Source.check_ok_iff {s : Source} : s.check = .ok () ↔ s.Valid := by
  unfold Source.check
  rw [seq_ok_iff, forM_checkContent_ok_iff, Source.valid_iff]
  simp only [seq_ok_iff, forM_ok_iff, Literal.requireContent_ok_iff, Source.require_ok_iff,
    Source.checkKind_ok_iff, checkPositive_ok_iff, checkParse_ok_iff, requireDate_ok_iff]
  rfl

theorem Bibliography.check_ok_iff {b : Bibliography} : b.check = .ok () ↔ b.Valid := by
  unfold Bibliography.check
  rw [seq_ok_iff, forM_ok_iff, checkIdsOnce_ok_iff, Bibliography.valid_iff]
  simp only [Source.check_ok_iff]
  have hnew : ∀ id ∈ b.sources.filterMap Source.citedAs,
      ([] : List (String × Position)).lookup id = none := fun _ _ => rfl
  exact and_congr .rfl (and_iff_left hnew)

/-! ## The whole specification -/

namespace Specification

variable {spec : Specification}

theorem knowsSource_eq_true_iff {id : String} : spec.knowsSource id = true ↔
    ∃ b ∈ spec.bibliography, ∃ s ∈ b.sources, ∃ l ∈ s.id, l.trimmed = id := by
  unfold knowsSource Bibliography.find? Source.citedAs
  simp [Option.any_eq_true]

theorem checkCitations_ok_iff : spec.checkCitations = .ok () ↔
    ∀ s ∈ spec.body.sentences, ∀ l ∈ s.citations,
      ∃ b ∈ spec.bibliography, ∃ source ∈ b.sources, ∃ id ∈ source.id, id.trimmed = l.trimmed := by
  have hcitation : ∀ l, spec.checkCitation l = .ok () ↔ spec.knowsSource l.trimmed = true := by
    intro l
    unfold checkCitation
    cases spec.knowsSource l.trimmed with
    | true => exact iff_of_true rfl rfl
    | false => exact iff_of_false nofun Bool.false_ne_true
  unfold checkCitations
  rw [forM_ok_iff, List.forall_mem_flatMap]
  simp only [hcitation, knowsSource_eq_true_iff]

/-- What a book needs is asked for after its type was read, whatever the type is. -/
theorem checkVenue_ok_iff : spec.checkVenue = .ok () ↔
    (∀ l ∈ spec.documentType, l.IsValue DocumentType.reader)
      ∧ ∀ l ∈ spec.documentType, DocumentType.reader.read? l.value = some .book →
        ∃ p ∈ spec.publication, p.venue.isSome := by
  have hvenue : (spec.publication.bind (·.venue)).isNone = true
      ↔ ¬ ∃ p ∈ spec.publication, p.venue.isSome := by
    cases spec.publication with
    | none => simp
    | some p => simp
  unfold checkVenue readDocumentType
  cases spec.documentType with
  | none => exact iff_of_true rfl ⟨nofun, nofun⟩
  | some l =>
    simp only [Option.mem_some_iff, forall_eq']
    cases htype : DocumentType.reader.read? l.value with
    | none =>
      apply iff_of_false
      · intro h
        obtain ⟨type, htype', -⟩ := of_bind_ok h
        obtain ⟨type, hparse⟩ := succeeds_of_map htype'
        rw [Literal.parse_ok_iff.mp hparse] at htype
        cases htype
      · rintro ⟨⟨type, htype'⟩, -⟩
        rw [htype'] at htype
        cases htype
    | some type =>
      have hread : readField (Literal.parse DocumentType.reader) (some l)
          = .ok (some type) := by
        show (Literal.parse DocumentType.reader l).map some = .ok (some type)
        rw [Literal.parse_ok_iff.mpr htype]
        rfl
      rw [hread]
      show (if some type = some DocumentType.book ∧ _ then throw _ else pure ()
        : Except Fault Unit) = .ok () ↔ _
      rw [throw_ok_iff, hvenue]
      have hvalue : l.IsValue DocumentType.reader := ⟨type, htype⟩
      rw [not_and, not_not]
      exact (and_iff_right hvalue).symm

/-- A specification passes if each of its checks does. -/
theorem check_of_passed (h : spec.Passed) : spec.check = .ok () := by
  unfold check
  simp only [seq_ok_iff]
  exact ⟨h.version, h.title, h.authors, h.assessors, h.publication, h.style, h.body,
    h.bibliography, h.venue, h.citations⟩

/-- A specification passes its check if and only if it is valid. -/
theorem check_iff_valid {spec : Specification} : spec.check = .ok () ↔ spec.Valid := by
  unfold check
  rw [Specification.valid_iff]
  simp only [seq_ok_iff, checkContent_ok_iff, Title.check_ok_iff, People.checkAuthors_ok_iff,
    People.checkAssessors_ok_iff, checkBlock_ok_iff, Publication.check_ok_iff,
    StyleBlock.check_ok_iff, Body.check_ok_iff, Bibliography.check_ok_iff, checkVenue_ok_iff,
    checkCitations_ok_iff, and_assoc]

end Specification

end Manuscript
