import Mathlib.Data.List.Infix
import Mathlib.Tactic.IntervalCases
import Mathlib.Tactic.Ring
import Manuscript.Style.Choice

/-!
# Roman numerals

A Roman number is spelled from the largest numeral down, each as often as it fits into what is left.
It is read letter by letter, where a letter in front of a larger one is subtracted. What is left
behind a numeral is smaller than its value, so that the letters behind it are no larger than its
last one, and each numeral is read by itself.

* `denoted`: the number that letters denote.
* `denoted_spell`: what a table of numerals spells denotes the number, less what is left over.
* `decade`, `roman_eq`: the numerals from 900 down are those of the nine digits, at each power of
  ten.
* `Numeration.render_roman`: a Roman number denotes its number, no letter but `m` stands more than
  three times in a row, and different numbers are written differently.
-/

namespace Manuscript.Number

variable {xs ys : List Char} {c : Char} {k n : Nat} {table : List (Nat × List Char)}

/-! ## Reading -/

/-- The value of a letter. -/
def letterValue : Char → Nat
  | 'i' => 1
  | 'v' => 5
  | 'x' => 10
  | 'l' => 50
  | 'c' => 100
  | 'd' => 500
  | 'm' => 1000
  | _ => 0

/-- The value of a letter with its sign: in front of a larger one it is subtracted. -/
def signedValue (c : Char) (next : Option Char) : Int :=
  if next.any fun d => letterValue c < letterValue d then -(letterValue c : Int) else letterValue c

/-- The number that letters denote. -/
def denoted : List Char → Int
  | [] => 0
  | c :: rest => signedValue c rest.head? + denoted rest

theorem signedValue_of_le {next : Option Char} (h : ∀ d ∈ next, letterValue d ≤ letterValue c) :
    signedValue c next = letterValue c := by
  refine if_neg ?_
  rw [Option.any_eq_true]
  rintro ⟨d, hd, hlt⟩
  have hle := h d hd
  have hlt := of_decide_eq_true hlt
  omega

/-- Letters are read apart from those behind them if the next one is no larger than their last. -/
theorem denoted_append
    (h : ∀ c ∈ xs.getLast?, ∀ d ∈ ys.head?, letterValue d ≤ letterValue c) :
    denoted (xs ++ ys) = denoted xs + denoted ys := by
  induction xs with
  | nil => exact (Int.zero_add _).symm
  | cons c xs ih =>
    cases xs with
    | nil =>
      -- only the last letter gets another neighbour, and is still added
      have hsign : signedValue c ys.head? = signedValue c none :=
        (signedValue_of_le (h c rfl)).trans (signedValue_of_le (by simp)).symm
      show signedValue c ys.head? + denoted ys = signedValue c none + 0 + denoted ys
      rw [hsign, Int.add_zero]
    | cons d xs =>
      rw [List.getLast?_cons_cons] at h
      show signedValue c (some d) + denoted (d :: xs ++ ys)
        = signedValue c (some d) + denoted (d :: xs) + denoted ys
      rw [ih h, Int.add_assoc]

/-! ## Spelling -/

theorem head_replicate_append {numeral : List Char}
    (hc : c ∈ ((List.replicate k numeral).flatten ++ ys).head?) :
    0 < k ∧ c ∈ numeral.head? ∨ c ∈ ys.head? := by
  induction k with
  | zero => exact .inr hc
  | succ k ih =>
    rw [List.replicate_succ, List.flatten_cons, List.append_assoc, List.head?_append,
      Option.mem_def, Option.or_eq_some_iff] at hc
    rcases hc with hc | ⟨-, hc⟩
    · exact .inl ⟨k.succ_pos, hc⟩
    · exact (ih hc).imp_left fun hnumeral => ⟨k.succ_pos, hnumeral.2⟩

/-- A spelling starts with the first letter of a numeral that fits into the number. -/
theorem head_spell (hc : c ∈ (spell table n).head?) :
    ∃ e ∈ table, e.1 ≤ n ∧ c ∈ e.2.head? := by
  induction table generalizing n with
  | nil => cases hc
  | cons e rest ih =>
    rcases head_replicate_append hc with ⟨hpos, hfirst⟩ | hrest
    · exact ⟨e, List.mem_cons_self, (Nat.div_pos_iff.mp hpos).2, hfirst⟩
    · obtain ⟨f, hf, hle, hfirst⟩ := ih hrest
      exact ⟨f, List.mem_cons_of_mem e hf, hle.trans (Nat.mod_le n e.1), hfirst⟩

/-- A numeral denotes its value, which lies between those of its first and its last letter. -/
structure Fits (value : Nat) (numeral : List Char) : Prop where
  pos : 0 < value
  denotes : denoted numeral = value
  first : ∀ c ∈ numeral.head?, letterValue c ≤ value
  last : ∀ c ∈ numeral.getLast?, value ≤ letterValue c

/-- A numeral may be repeated in front of letters that are no larger than its value. -/
theorem Fits.denoted_replicate {value : Nat} {numeral : List Char} (h : Fits value numeral)
    (hys : ∀ d ∈ ys.head?, letterValue d ≤ value) (k : Nat) :
    denoted ((List.replicate k numeral).flatten ++ ys) = value * k + denoted ys := by
  induction k with
  | zero => simp
  | succ k ih =>
    have hborder : ∀ c ∈ numeral.getLast?,
        ∀ d ∈ ((List.replicate k numeral).flatten ++ ys).head?, letterValue d ≤ letterValue c := by
      intro c hc d hd
      have hd : letterValue d ≤ value :=
        (head_replicate_append hd).elim (fun hfirst => h.first d hfirst.2) (hys d)
      exact hd.trans (h.last c hc)
    rw [List.replicate_succ, List.flatten_cons, List.append_assoc, denoted_append hborder, ih,
      h.denotes, Nat.cast_succ]
    ring

/-- What is left of a number when it was spelled. -/
def leftOver : List (Nat × List Char) → Nat → Nat
  | [], n => n
  | (value, _) :: rest, n => leftOver rest (n % value)

/-- A spelling denotes its number, less what is left over. -/
theorem denoted_spell (h : ∀ e ∈ table, Fits e.1 e.2) (n : Nat) :
    denoted (spell table n) + leftOver table n = n := by
  induction table generalizing n with
  | nil => exact Int.zero_add _
  | cons e rest ih =>
    obtain ⟨value, numeral⟩ := e
    obtain ⟨hfits, hrest⟩ := List.forall_mem_cons.mp h
    -- what follows the numeral is spelled from less than its value
    have hsmaller : ∀ d ∈ (spell rest (n % value)).head?, letterValue d ≤ value := by
      intro d hd
      obtain ⟨e, he, hle, hfirst⟩ := head_spell hd
      have hd : letterValue d ≤ e.1 := (hrest e he).first d hfirst
      have hmod : n % value < value := Nat.mod_lt n hfits.pos
      omega
    have hdivision : value * (n / value) + n % value = n := Nat.div_add_mod n value
    have hleft := ih hrest (n % value)
    rw [spell, hfits.denoted_replicate hsmaller, leftOver, add_assoc, hleft]
    exact_mod_cast hdivision

theorem fits_numerals : ∀ e ∈ numerals, Fits e.1 e.2 := by
  have hall : numerals.Forall fun e => 0 < e.1 ∧ denoted e.2 = e.1
      ∧ (e.2.head?.all fun c => letterValue c ≤ e.1) = true
      ∧ (e.2.getLast?.all fun c => e.1 ≤ letterValue c) = true := by
    decide
  rw [List.forall_iff_forall_mem] at hall
  intro e he
  obtain ⟨hpos, hdenotes, hfirst, hlast⟩ := hall e he
  rw [Option.all_eq_true] at hfirst hlast
  exact ⟨hpos, hdenotes, fun c hc => of_decide_eq_true (hfirst c hc),
    fun c hc => of_decide_eq_true (hlast c hc)⟩

theorem denoted_roman (n : Nat) : denoted (roman n) = n := by
  have hleft : leftOver numerals n = 0 := Nat.mod_one _
  have hdenoted := denoted_spell fits_numerals n
  rwa [hleft, Nat.cast_zero, add_zero] at hdenoted

/-! ## Letters in a row -/

/-- The numerals of a digit, from nine down. -/
def decade (one five ten : Char) : List (Nat × List Char) :=
  [(9, [one, ten]), (5, [five]), (4, [one, five]), (1, [one])]

/-- Numerals for numbers that are as many times larger. -/
def scaled (k : Nat) (table : List (Nat × List Char)) : List (Nat × List Char) :=
  table.map fun e => (k * e.1, e.2)

theorem spell_scaled (k : Nat) (table rest : List (Nat × List Char)) (n : Nat) :
    spell (scaled k table ++ rest) n
      = spell table (n / k) ++ spell rest (k * leftOver table (n / k) + n % k) := by
  induction table generalizing n with
  | nil =>
    show spell rest n = spell rest (k * (n / k) + n % k)
    rw [Nat.div_add_mod]
  | cons e table ih =>
    -- what the numeral leaves behind has the same digits below `k`, and fewer above
    have hrest := ih (n % (k * e.1))
    rw [Nat.mod_mul_right_div_self, Nat.mod_mul_right_mod] at hrest
    show _ ++ spell (scaled k table ++ rest) (n % (k * e.1)) = _ ++ _ ++ _
    rw [hrest, Nat.div_div_eq_div_mul, List.append_assoc]
    rfl

/-- A number is written digit by digit, and its thousands by letters `m`. -/
theorem roman_eq (n : Nat) :
    roman n = List.replicate (n / 1000) 'm' ++ (spell (decade 'c' 'd' 'm') (n / 100 % 10)
      ++ (spell (decade 'x' 'l' 'c') (n / 10 % 10) ++ spell (decade 'i' 'v' 'x') (n % 10))) := by
  have htable : numerals = (1000, ['m']) :: (scaled 100 (decade 'c' 'd' 'm')
      ++ (scaled 10 (decade 'x' 'l' 'c') ++ decade 'i' 'v' 'x')) := rfl
  have hleft (one five ten : Char) (n : Nat) : leftOver (decade one five ten) n = 0 := Nat.mod_one _
  have hhundreds : n % 1000 / 100 = n / 100 % 10 := by omega
  have htens : n % 1000 % 100 / 10 = n / 10 % 10 := by omega
  have hones : n % 1000 % 100 % 10 = n % 10 := by omega
  unfold roman
  rw [htable, spell, spell_scaled, hleft, Nat.mul_zero, Nat.zero_add, spell_scaled, hleft,
    Nat.mul_zero, Nat.zero_add, hhundreds, htens, hones, List.flatten_replicate_singleton]

/-- Equal letters in a row do not go on from one text to another that starts with another letter. -/
theorem replicate_infix_append (hborder : ∀ c ∈ xs.getLast?, c ∉ ys.head?)
    (h : List.replicate k c <:+: xs ++ ys) :
    List.replicate k c <:+: xs ∨ List.replicate k c <:+: ys := by
  obtain ⟨front, back, heq⟩ := h
  rw [List.append_assoc] at heq
  rcases List.append_eq_append_iff.mp heq with ⟨before, rfl, hrow⟩ | ⟨before, rfl, rfl⟩
  · rcases List.append_eq_append_iff.mp hrow with ⟨rest, rfl, -⟩ | ⟨rest, hsplit, rfl⟩
    · exact .inl ⟨front, rest, by rw [List.append_assoc]⟩
    · have hall : ∀ d ∈ before ++ rest, d = c := fun d hd => List.eq_of_mem_replicate (hsplit ▸ hd)
      -- a row that is split at the border ends the first text and starts the second one
      rcases before.eq_nil_or_concat with rfl | ⟨before, last, rfl⟩
      · rw [List.nil_append] at hsplit
        exact .inr ⟨[], back, by rw [hsplit]; rfl⟩
      · cases rest with
        | nil =>
          rw [List.append_nil] at hsplit
          exact .inl ⟨front, [], by rw [hsplit, List.append_nil]⟩
        | cons d rest =>
          have hlast : last = c := hall last (by simp)
          have hnext : d = c := hall d (by simp)
          refine absurd ?_ (hborder last (by simp))
          rw [hlast, hnext]
          rfl
  · exact .inr ⟨before, back, by rw [List.append_assoc]⟩

theorem mem_spell (hc : c ∈ spell table n) : ∃ e ∈ table, c ∈ e.2 := by
  induction table generalizing n with
  | nil => cases hc
  | cons e rest ih =>
    rcases List.mem_append.mp hc with hc | hc
    · obtain ⟨numeral, hnumeral, hc⟩ := List.mem_flatten.mp hc
      rw [List.eq_of_mem_replicate hnumeral] at hc
      exact ⟨e, List.mem_cons_self, hc⟩
    · obtain ⟨f, hf, hc⟩ := ih hc
      exact ⟨f, List.mem_cons_of_mem e hf, hc⟩

/-- The letters of a digit. -/
theorem mem_spell_decade {one five ten : Char} (hc : c ∈ spell (decade one five ten) n) :
    c = one ∨ c = five ∨ c = ten := by
  obtain ⟨e, he, hc⟩ := mem_spell hc
  simp only [decade, List.mem_cons, List.not_mem_nil, or_false] at he
  rcases he with rfl | rfl | rfl | rfl <;>
    simp only [List.mem_cons, List.not_mem_nil] at hc <;> tauto

/-- The first letter of a digit. -/
theorem head_spell_decade {one five ten : Char} (hc : c ∈ (spell (decade one five ten) n).head?) :
    c = one ∨ c = five := by
  obtain ⟨e, he, -, hc⟩ := head_spell hc
  simp only [decade, List.mem_cons, List.not_mem_nil, or_false] at he
  rcases he with rfl | rfl | rfl | rfl <;> cases hc <;> tauto

/-- No letter of a digit stands four times in a row. -/
theorem not_infix_spell_decade {one five ten : Char} (hne : five ≠ one) (hn : n < 10) :
    ¬ List.replicate 4 c <:+: spell (decade one five ten) n := by
  intro h
  -- only eight takes four letters, and they are not all the same
  have hlong : (spell (decade one five ten) n).length < 4
      ∨ spell (decade one five ten) n = [five, one, one, one] := by
    interval_cases n <;> simp [spell, decade]
  rcases hlong with hlong | hlong
  · exact absurd h.length_le (by rw [List.length_replicate]; omega)
  · rw [hlong] at h
    have heq := h.eq_of_length rfl
    simp only [List.replicate, List.cons.injEq] at heq
    exact hne (heq.1.symm.trans heq.2.1)

/-- The text starts, if at all, with one of some letters, and no four letters in a row are `c`. -/
structure Digits (c : Char) (starts ys : List Char) : Prop where
  head : ∀ d ∈ ys.head?, d ∈ starts
  row : ¬ List.replicate 4 c <:+: ys

theorem Digits.nil : Digits c [] [] := by
  refine ⟨by simp, ?_⟩
  intro h
  exact absurd h.length_le (by simp)

/-- A digit with letters of its own may stand in front. -/
theorem Digits.cons {starts : List Char} (h : Digits c starts ys) (one five ten : Char)
    (hn : n < 10) (hne : five ≠ one) (hother : starts.Forall (· ∉ [one, five, ten])) :
    Digits c (one :: five :: starts) (spell (decade one five ten) n ++ ys) := by
  rw [List.forall_iff_forall_mem] at hother
  constructor
  · intro d hd
    rw [List.head?_append, Option.mem_def, Option.or_eq_some_iff] at hd
    rcases hd with hd | ⟨-, hd⟩
    · rcases head_spell_decade hd with rfl | rfl <;> simp
    · exact List.mem_cons_of_mem _ (List.mem_cons_of_mem _ (h.head d hd))
  · intro hrow
    have hborder : ∀ d ∈ (spell (decade one five ten) n).getLast?, d ∉ ys.head? := by
      intro d hlast hd
      have hletter := mem_spell_decade (List.mem_of_getLast? hlast)
      exact hother d (h.head d hd) (by simpa using hletter)
    rcases replicate_infix_append hborder hrow with hrow | hrow
    · exact not_infix_spell_decade hne hn hrow
    · exact h.row hrow

/-- No letter but `m` stands more than three times in a row. -/
theorem not_infix_roman (hc : c ≠ 'm') (n : Nat) : ¬ List.replicate 4 c <:+: roman n := by
  have hdigit (k : Nat) : k % 10 < 10 := Nat.mod_lt k (by decide)
  have hones : Digits c ['i', 'v'] (spell (decade 'i' 'v' 'x') (n % 10)) := by
    have hlast := Digits.nil.cons (c := c) 'i' 'v' 'x' (hdigit n) (by decide) (by decide)
    rwa [List.append_nil] at hlast
  have htens := hones.cons 'x' 'l' 'c' (hdigit (n / 10)) (by decide) (by decide)
  have hhundreds := htens.cons 'c' 'd' 'm' (hdigit (n / 100)) (by decide) (by decide)
  intro hrow
  rw [roman_eq] at hrow
  refine (replicate_infix_append ?_ hrow).elim ?_ hhundreds.row
  · -- the thousands end in `m`, with which no digit starts
    intro d hlast hd
    have hm : d = 'm' := List.eq_of_mem_replicate (List.mem_of_getLast? hlast)
    have hstart := hhundreds.head d hd
    rw [hm] at hstart
    exact absurd hstart (by decide)
  · intro hthousands
    exact hc (List.eq_of_mem_replicate (hthousands.subset List.mem_cons_self))

end Manuscript.Number

namespace Manuscript.Numeration

open Manuscript.Number

/-- Roman numerals denote their numbers, and a number is written in Roman letters of which none but
`m` stands more than three times in a row. Different numbers are written differently. -/
theorem render_roman :
    (∀ n, denoted (roman.render n).toList = n)
      ∧ (∀ n, ∀ c ∈ (roman.render n).toList, 0 < letterValue c)
      ∧ (∀ n c, c ≠ 'm' → ¬ List.replicate 4 c <:+: (roman.render n).toList)
      ∧ Function.Injective roman.render := by
  have hrender (n : Nat) : (roman.render n).toList = Number.roman n := String.toList_ofList
  have hdenoted (n : Nat) : denoted (roman.render n).toList = n := by
    rw [hrender]
    exact denoted_roman n
  refine ⟨hdenoted, ?_, ?_, ?_⟩
  · intro n c hc
    rw [hrender] at hc
    obtain ⟨e, he, hc⟩ := mem_spell hc
    have hletters : numerals.Forall fun e => e.2.Forall fun c => 0 < letterValue c := by decide
    have hnumeral := List.forall_iff_forall_mem.mp hletters e he
    exact List.forall_iff_forall_mem.mp hnumeral c hc
  · intro n c hc
    rw [hrender]
    exact not_infix_roman hc n
  · intro m n h
    have hsame : (m : Int) = n := by rw [← hdenoted m, h, hdenoted]
    exact Int.ofNat.inj hsame

/-- Four letters `c`, of which three stand in a row. -/
theorem render_roman_cccxc :
    'x' ∈ (roman.render 390).toList ∧ 0 < letterValue 'x'
      ∧ 'c' ≠ 'm' ∧ ¬ List.replicate 4 'c' <:+: (roman.render 390).toList
      ∧ roman.render 390 ≠ roman.render 410 := by
  obtain ⟨-, hletters, hrow, hinjective⟩ := render_roman
  have hx : 'x' ∈ (roman.render 390).toList := by decide
  refine ⟨hx, hletters 390 'x' hx, by decide, hrow 390 'c' (by decide), ?_⟩
  intro h
  exact absurd (hinjective h) (by decide)

example : roman.render 1994 = "mcmxciv" := by decide

end Manuscript.Numeration
