import Mathlib.Data.List.TakeDrop
import Mathlib.Data.List.TakeWhile
import Manuscript.Proofs.Validation.Acceptance

/-!
# Skipped pages

The pages that are skipped in the numeration are declared as single pages and as spans, in any
order. Spans may overlap and repeat each other; each page of each of them is skipped, and no other.

* `PageSpan.Written`: how page spans are written.
* `PageSpan.read?_eq_some_iff`: a text is read as the page span that is written there.
* `Sheet.pairwise_dropRepeats`: ascending pages of which none stands behind itself are distinct.
* `Sheet.skippedPages_union`: the skipped pages are the union of the declared spans, in order.
-/

namespace Manuscript

open Manuscript.Character (isAsciiDigit isBlank)

/-! ## Page spans in texts -/

namespace PageSpan

variable {cs : List Char} {n : Nat} {s : String} {span : PageSpan}

/-- The text is a page number with white space around it: digits, with at most one plus sign in
front, for a number from one on that fits in 32 bits. -/
def IsPage (cs : List Char) (n : Nat) : Prop :=
  ∃ sign digits, Text.trimBoth isBlank cs = sign ++ digits ∧ (sign = [] ∨ sign = ['+'])
    ∧ digits ≠ [] ∧ (∀ d ∈ digits, isAsciiDigit d = true)
    ∧ Number.ofDigits 0 digits = n ∧ 0 < n ∧ n < 4294967296

/-- A page span is written as one page, or as an earlier and a later page around the first hyphen of
the text. -/
inductive Written : List Char → PageSpan → Prop
  | single {cs : List Char} {n : Nat} (hhyphen : '-' ∉ cs) (hpage : IsPage cs n) : Written cs ⟨n, n⟩
  | pair {before after : List Char} {first last : Nat} (hhyphen : '-' ∉ before)
      (hfirst : IsPage before first) (hlast : IsPage after last) (hascending : first < last) :
      Written (before ++ '-' :: after) ⟨first, last⟩

theorem page?_eq_some_iff : page? cs = some n ↔ IsPage cs n := Number.positive?_iff_digits

/-- Without a hyphen the whole text is a page. -/
theorem read?_of_not_mem (h : '-' ∉ s.toList) :
    reader.read? s = (page? s.toList).map fun n => ⟨n, n⟩ := by
  have hall : ∀ c ∈ s.toList, (c != '-') = true := fun c hc =>
    bne_iff_ne.mpr fun heq => h (heq ▸ hc)
  unfold reader
  dsimp only
  rw [List.span_eq_takeWhile_dropWhile, List.takeWhile_eq_self_iff.mpr hall,
    List.dropWhile_eq_nil_iff.mpr hall]

/-- The first hyphen parts the text into two pages. -/
theorem read?_of_hyphen {before after : List Char} (hs : s.toList = before ++ '-' :: after)
    (h : '-' ∉ before) :
    reader.read? s = (page? before).bind fun first => (page? after).bind fun last =>
      if first < last then some ⟨first, last⟩ else none := by
  have hall : ∀ c ∈ before, (c != '-') = true := fun c hc =>
    bne_iff_ne.mpr fun heq => h (heq ▸ hc)
  unfold reader
  dsimp only
  rw [hs, List.span_eq_takeWhile_dropWhile, List.takeWhile_append_of_pos hall,
    List.dropWhile_append_of_pos hall]
  rw [List.takeWhile_cons_of_neg (by decide), List.dropWhile_cons_of_neg (by decide),
    List.append_nil]
  rfl

/-- A page span is read from a text exactly if it is written there. -/
theorem read?_eq_some_iff : reader.read? s = some span ↔ Written s.toList span := by
  constructor
  · intro h
    by_cases hhyphen : '-' ∈ s.toList
    · obtain ⟨before, after, hs, hbefore⟩ := List.eq_append_cons_of_mem hhyphen
      rw [read?_of_hyphen hs hbefore] at h
      obtain ⟨first, hfirst, h⟩ := Option.bind_eq_some_iff.mp h
      obtain ⟨last, hlast, h⟩ := Option.bind_eq_some_iff.mp h
      split_ifs at h with hascending
      cases h
      rw [hs]
      exact .pair hbefore (page?_eq_some_iff.mp hfirst) (page?_eq_some_iff.mp hlast) hascending
    · rw [read?_of_not_mem hhyphen] at h
      obtain ⟨n, hn, rfl⟩ := Option.map_eq_some_iff.mp h
      exact .single hhyphen (page?_eq_some_iff.mp hn)
  · intro h
    generalize hs : s.toList = cs at h
    cases h with
    | single hhyphen hpage =>
      subst hs
      rw [read?_of_not_mem hhyphen, page?_eq_some_iff.mpr hpage]
      rfl
    | pair hhyphen hfirst hlast hascending =>
      rw [read?_of_hyphen hs hhyphen, page?_eq_some_iff.mpr hfirst, page?_eq_some_iff.mpr hlast]
      exact if_pos hascending

/-- A span has the pages from its first to its last one. -/
theorem mem_pages {p : Nat} : p ∈ span.pages ↔ span.first ≤ p ∧ p ≤ span.last := by
  unfold pages
  rw [List.mem_range'_1]
  omega

end PageSpan

/-! ## Pages in order -/

namespace Sheet

theorem mem_dropRepeats {pages : List Nat} {p : Nat} : p ∈ dropRepeats pages ↔ p ∈ pages := by
  induction pages with
  | nil => rfl
  | cons n rest ih =>
    unfold dropRepeats
    split_ifs with h
    · -- the first page is left out, but it is there once more
      have hn : n ∈ rest := List.mem_of_head? h
      rw [ih, List.mem_cons]
      exact ⟨.inr, fun hp => hp.elim (fun heq => heq ▸ hn) id⟩
    · rw [List.mem_cons, ih, List.mem_cons]

/-- Ascending pages are distinct if those that stand directly behind themselves are left out. -/
theorem pairwise_dropRepeats {pages : List Nat} (h : pages.Pairwise (· ≤ ·)) :
    (dropRepeats pages).Pairwise (· < ·) := by
  induction h with
  | nil => exact .nil
  | @cons n rest hle hrest ih =>
    unfold dropRepeats
    split_ifs with hhead
    · exact ih
    · refine .cons ?_ ih
      intro m hm
      have hmem : m ∈ rest := mem_dropRepeats.mp hm
      cases hrest with
      | nil => cases hmem
      | @cons k rest hk _ =>
        -- the next page is another one, and no page behind it is smaller
        have hne : k ≠ n := fun heq => hhead (congrArg some heq)
        have hnk : n ≤ k := hle k List.mem_cons_self
        have hkm : k ≤ m := (List.mem_cons.mp hmem).elim (fun heq => Nat.le_of_eq heq.symm) (hk m)
        omega

variable {spans : List PageSpan} {p : Nat}

theorem mem_pagesOf : p ∈ pagesOf spans ↔ ∃ span ∈ spans, span.first ≤ p ∧ p ≤ span.last := by
  unfold pagesOf
  rw [mem_dropRepeats, List.mem_mergeSort, List.mem_flatMap]
  simp only [PageSpan.mem_pages]

theorem pairwise_pagesOf (spans : List PageSpan) : (pagesOf spans).Pairwise (· < ·) := by
  have htrans : ∀ m n k : Nat,
      decide (m ≤ n) = true → decide (n ≤ k) = true → decide (m ≤ k) = true :=
    fun m n k hmn hnk =>
      decide_eq_true (Nat.le_trans (of_decide_eq_true hmn) (of_decide_eq_true hnk))
  have htotal : ∀ m n : Nat, (decide (m ≤ n) || decide (n ≤ m)) = true := by
    intro m n
    simpa using Nat.le_total m n
  have hsorted := List.pairwise_mergeSort htrans htotal (spans.flatMap PageSpan.pages)
  exact pairwise_dropRepeats (hsorted.imp of_decide_eq_true)

end Sheet

/-! ## Skipped pages -/

/-- The pages are those of the declared spans, each of them once and in ascending order. -/
structure NumerationBlock.Skips (b : NumerationBlock) (pages : List Nat) : Prop where
  ascending : pages.Pairwise (· < ·)
  mem_iff : ∀ p, p ∈ pages ↔ ∃ l ∈ b.skip, ∃ span, PageSpan.Written l.value.toList span
    ∧ span.first ≤ p ∧ p ≤ span.last

namespace Sheet

variable {b : NumerationBlock}

/-- The pages of the spans that are read from the declared texts are skipped. -/
theorem skips_pagesOf {spans : List PageSpan}
    (h : b.skip.mapM (Literal.parse PageSpan.reader) = .ok spans) : b.Skips (pagesOf spans) := by
  obtain ⟨hto, hfrom⟩ := mem_of_mapM_ok h
  refine ⟨pairwise_pagesOf spans, fun p => ?_⟩
  rw [mem_pagesOf]
  constructor
  · rintro ⟨span, hspan, hp⟩
    obtain ⟨l, hl, hread⟩ := hfrom span hspan
    exact ⟨l, hl, span, PageSpan.read?_eq_some_iff.mp (Literal.parse_ok_iff.mp hread), hp⟩
  · rintro ⟨l, hl, span, hwritten, hp⟩
    obtain ⟨other, hother, hread⟩ := hto l hl
    have hsame := Literal.parse_ok_iff.mp hread
    cases hsame.symm.trans (PageSpan.read?_eq_some_iff.mpr hwritten)
    exact ⟨span, hother, hp⟩

/-- The skipped pages are the exact union of the declared spans. A text is read as a span exactly if
it is written as one. Page settings that pass their check can be applied to any sheet, every
declared text is a span then, and the sheet skips the pages of these spans, once each and in
ascending order; so does every sheet that a style section with these page settings is resolved to.
-/
theorem skippedPages_union (h : b.check = .ok ()) :
    (∀ s span, PageSpan.reader.read? s = some span ↔ PageSpan.Written s.toList span)
      ∧ (∀ l ∈ b.skip, ∃ span, PageSpan.Written l.value.toList span)
      ∧ (∀ sheet : Sheet, ∃ sheet', sheet.applyNumeration b = .ok sheet'
          ∧ b.Skips sheet'.skippedPages)
      ∧ ∀ style defaultStyle type table sheet, style.numeration = some b →
          resolve (some style) defaultStyle type table = .ok sheet →
          b.Skips sheet.skippedPages := by
  refine ⟨fun _ _ => PageSpan.read?_eq_some_iff, ?_, ?_, ?_⟩
  · intro l hl
    obtain ⟨span, hspan⟩ := (NumerationBlock.check_ok_iff.mp h).skip l hl
    exact ⟨span, PageSpan.read?_eq_some_iff.mp hspan⟩
  · intro sheet
    obtain ⟨sheet', hsheet'⟩ := sheet.succeeds_applyNumeration h
    have hblock : applyBlock applyNumeration (some b) sheet = .ok sheet' := hsheet'
    obtain ⟨_, _, _, pages, -, -, -, ⟨spans, hspans, rfl⟩, rfl⟩ := applyNumeration_ok hblock
    exact ⟨_, hsheet', skips_pagesOf hspans⟩
  · intro style defaultStyle type table sheet hblock hresolve
    obtain ⟨_, _, -, -, hfollows⟩ := follows_of_resolve hresolve
    have hskips := hfollows.skippedPages
    rw [hblock] at hskips
    obtain ⟨spans, hspans, hpages⟩ := hskips
    rw [hpages]
    exact skips_pagesOf hspans

/-- Pages that are declared out of order, in spans that overlap. -/
def scatteredPages : NumerationBlock where
  skip := [⟨"4-6", ⟨2, 10⟩⟩, ⟨" 1 ", ⟨2, 17⟩⟩, ⟨"5 - +8", ⟨2, 24⟩⟩]
  position := ⟨1, 1⟩

theorem skippedPages_union_scatteredPages :
    scatteredPages.check = .ok ()
      ∧ ∃ sheet', (ofGuide .mla9 .paper).applyNumeration scatteredPages = .ok sheet'
        ∧ scatteredPages.Skips sheet'.skippedPages := by
  have hcheck : scatteredPages.check = .ok () := by decide +kernel
  obtain ⟨-, -, happly, -⟩ := skippedPages_union hcheck
  exact ⟨hcheck, happly (ofGuide .mla9 .paper)⟩

example : pagesOf [⟨4, 6⟩, ⟨1, 1⟩, ⟨5, 8⟩] = [1, 4, 5, 6, 7, 8] := by cbv

end Sheet

end Manuscript
