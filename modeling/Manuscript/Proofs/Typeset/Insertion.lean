import Manuscript.Proofs.Typeset.Spacing

/-!
# The spaces that are put in

The marks of a text say exactly which of its characters lie in words that look like addresses, and
the rule for the spaces behind punctuation does nothing but put single spaces behind marks outside
of such words. What becomes of each character is a piece of the set text, so that the text is what
the pieces start with.

* `addressMask_eq_true_iff`: the characters that are marked.
* `SpaceAt`: what stands around a character that takes a space.
* `piecesOf`: the piece of each character; the set text is made of them.
* `spaceAfter_inserts`: which characters are marked, where spaces are put in, and that nothing else
  changes, least of all the words that look like addresses.
-/

namespace Manuscript.Typeset

open Manuscript.Character

variable {p : Char → Bool} {c next : Char} {cs front word back : List Char} {i : Nat}

/-! ## Marked characters -/

/-- The marks of the characters of a text. -/
def addressMask (cs : List Char) : List Bool := (markAddresses cs).map Prod.snd

/-- The word stands between the texts around it, and is as long as white space allows. -/
structure WordAt (front word back : List Char) : Prop where
  word : IsWord word
  front : ∀ c ∈ front.getLast?, isBlank c = true
  back : EndsWord back

theorem length_addressMask (cs : List Char) : (addressMask cs).length = cs.length := by
  have hlength := congrArg List.length (map_fst_markAddresses cs)
  rw [List.length_map] at hlength
  unfold addressMask
  rw [List.length_map, hlength]

theorem addressMask_blank (hc : isBlank c = true) :
    addressMask (c :: cs) = false :: addressMask cs := by
  unfold addressMask
  rw [markAddresses_blank hc, List.map_cons]

theorem addressMask_around (h : WordAt front word back) :
    addressMask (front ++ (word ++ back))
      = addressMask front ++ (List.replicate word.length (isAddress word) ++ addressMask back) := by
  unfold addressMask
  rw [markAddresses_around h.front h.word h.back, List.map_append, List.map_append, List.map_map]
  congr 2
  exact List.map_const'

/-- The index lies in a word of the text that looks like an address. -/
def InAddress (cs : List Char) (i : Nat) : Prop :=
  ∃ front word back, cs = front ++ (word ++ back) ∧ WordAt front word back
    ∧ IsWebAddress word ∧ front.length ≤ i ∧ i < front.length + word.length

/-- Characters may stand in front of a text, unless they make its first word longer. -/
theorem InAddress.append (h : InAddress cs i)
    (hborder : EndsWord cs ∨ ∀ c ∈ front.getLast?, isBlank c = true) :
    InAddress (front ++ cs) (front.length + i) := by
  obtain ⟨before, word, back, rfl, hat, haddress, hfirst, hlast⟩ := h
  refine ⟨front ++ before, word, back, by simp, ⟨hat.word, ?_, hat.back⟩, haddress, ?_, ?_⟩
  · intro c hc
    rw [List.getLast?_append, Option.mem_def, Option.or_eq_some_iff] at hc
    rcases hc with hc | ⟨hnone, hc⟩
    · exact hat.front c hc
    · -- nothing stands between the word and the characters in front
      rw [List.getLast?_eq_none_iff.mp hnone] at hborder
      rcases hborder with hends | hfront
      · exact absurd hends (hat.word.not_endsWord back)
      · exact hfront c hc
  · rw [List.length_append]
    omega
  · rw [List.length_append]
    omega

/-- A character is marked exactly if it lies in a word that looks like an address. -/
theorem addressMask_eq_true_iff : (addressMask cs)[i]? = some true ↔ InAddress cs i := by
  constructor
  · intro h
    induction worded cs generalizing i with
    | nil => cases h
    | @blank c cs hc _ ih =>
      rw [addressMask_blank hc] at h
      cases i with
      | zero => cases h
      | succ i =>
        have hrest : InAddress cs i := ih h
        have hblank : ∀ d ∈ [c].getLast?, isBlank d = true := by simpa using hc
        have hall := hrest.append (.inr hblank)
        rwa [List.length_singleton, Nat.add_comm] at hall
    | @word word cs hword hcs _ ih =>
      have hat : WordAt [] word cs := ⟨hword, by simp, hcs⟩
      have hmask : addressMask (word ++ cs)
          = List.replicate word.length (isAddress word) ++ addressMask cs := addressMask_around hat
      rw [hmask] at h
      by_cases hi : i < word.length
      · rw [List.getElem?_append_left (by rwa [List.length_replicate]), List.getElem?_replicate,
          if_pos hi] at h
        have haddress := isAddress_iff.mp (Option.some.inj h)
        exact ⟨[], word, cs, rfl, hat, haddress, i.zero_le, by simpa using hi⟩
      · -- the index lies behind the word, which cannot be made longer by what follows
        rw [List.getElem?_append_right (by rw [List.length_replicate]; omega),
          List.length_replicate] at h
        have hall : InAddress (word ++ cs) (word.length + (i - word.length)) :=
          (ih h).append (.inl hcs)
        rwa [Nat.add_sub_cancel' (Nat.le_of_not_lt hi)] at hall
  · rintro ⟨front, word, back, rfl, hat, haddress, hfirst, hlast⟩
    have hi : i - front.length < word.length := by omega
    rw [addressMask_around hat, List.getElem?_append_right (by rwa [length_addressMask]),
      length_addressMask, List.getElem?_append_left (by rwa [List.length_replicate]),
      List.getElem?_replicate, if_pos hi, isAddress_iff.mpr haddress]

/-! ## Pieces -/

/-- What becomes of each character of a marked text; `previous` is the character before. -/
def piecesFrom (p : Char → Bool) (previous : Option Char) : List (Char × Bool) → List (List Char)
  | [] => []
  | x :: rest =>
    (if !x.2 && takesSpace p previous x.1 (rest.map Prod.fst) then [x.1, ' '] else [x.1])
      :: piecesFrom p (some x.1) rest

theorem flatten_piecesFrom (p : Char → Bool) (previous : Option Char)
    (marked : List (Char × Bool)) :
    (piecesFrom p previous marked).flatten = spaceAfterFrom p previous marked := by
  induction marked generalizing previous with
  | nil => rfl
  | cons x rest ih =>
    rw [piecesFrom, List.flatten_cons, ih, spaceAfterFrom_cons]
    split_ifs <;> rfl

/-- The pieces are the characters of a text, some of them with a space behind. -/
abbrev Spread (pieces : List (List Char)) (cs : List Char) : Prop :=
  List.Forall₂ (fun piece c => piece = [c] ∨ piece = [c, ' ']) pieces cs

theorem spread_piecesFrom (p : Char → Bool) (previous : Option Char)
    (marked : List (Char × Bool)) :
    Spread (piecesFrom p previous marked) (marked.map Prod.fst) := by
  induction marked generalizing previous with
  | nil => exact .nil
  | cons x rest ih =>
    refine .cons ?_ (ih _)
    split_ifs
    · exact .inr rfl
    · exact .inl rfl

section Spread

variable {pieces : List (List Char)}

/-- Without the spaces the pieces are the text. -/
theorem flatMap_take_of_spread (h : Spread pieces cs) : pieces.flatMap (List.take 1) = cs := by
  induction h with
  | nil => rfl
  | cons hpiece _ ih =>
    rw [List.flatMap_cons, ih]
    rcases hpiece with rfl | rfl <;> rfl

theorem head_of_spread (h : Spread pieces cs) : pieces.flatten.head? = cs.head? := by
  cases h with
  | nil => rfl
  | cons hpiece _ =>
    rcases hpiece with rfl | rfl <;> rfl

/-- A text that ends in white space still does with spaces put in. -/
theorem last_of_spread (h : Spread pieces cs) (hblank : ∀ c ∈ cs.getLast?, isBlank c = true) :
    ∀ c ∈ pieces.flatten.getLast?, isBlank c = true := by
  induction h with
  | nil => exact hblank
  | @cons piece c pieces cs hpiece hrest ih =>
    intro d hd
    rw [List.flatten_cons, List.getLast?_append, Option.mem_def, Option.or_eq_some_iff] at hd
    -- the last piece ends in the last character or in the space behind it
    cases hrest with
    | nil =>
      have hc : isBlank c = true := hblank c rfl
      rcases hd with hd | ⟨-, hd⟩
      · cases hd
      · rcases hpiece with rfl | rfl <;> cases hd
        · exact hc
        · rfl
    | cons hnext hmore =>
      rw [List.getLast?_cons_cons] at hblank
      rcases hd with hd | ⟨hnone, -⟩
      · exact ih hblank d hd
      · rcases hnext with rfl | rfl <;> cases List.getLast?_eq_none_iff.mp hnone

end Spread

/-- What stands around a character that takes a space: it is a mark outside of addresses, and is
followed by a character that is neither white space, nor a mark, nor the end of a quotation or a
bracket, unless both are part of a number or of an abbreviation. -/
structure SpaceAt (p : Char → Bool) (cs : List Char) (i : Nat) (c next : Char) : Prop where
  here : cs[i]? = some c
  behind : cs[i + 1]? = some next
  mark : p c = true
  outside : (addressMask cs)[i]? = some false
  notBlank : isBlank next = false
  notMark : p next = false
  notClosing : next ∉ closingMarks
  notNumber : ¬ ((∃ j d, i = j + 1 ∧ cs[j]? = some d ∧ isAsciiDigit d = true)
    ∧ isAsciiDigit next = true)
  notAbbreviation : ¬ (c = '.' ∧ isAlphabetic next = true ∧ cs[i + 2]? = some '.')

/-- The character before an index; before the first one, it is `previous`. -/
def charBefore (previous : Option Char) (cs : List Char) : Nat → Option Char
  | 0 => previous
  | j + 1 => cs[j]?

theorem any_charBefore {q : Char → Bool} :
    (charBefore none cs i).any q = true ↔ ∃ j d, i = j + 1 ∧ cs[j]? = some d ∧ q d = true := by
  cases i with
  | zero => simp [charBefore]
  | succ j =>
    unfold charBefore
    rw [Option.any_eq_true]
    constructor
    · rintro ⟨d, hd, hq⟩
      exact ⟨j, d, rfl, hd, hq⟩
    · rintro ⟨k, d, hk, hd, hq⟩
      obtain rfl := Nat.succ.inj hk
      exact ⟨d, hd, hq⟩

theorem needsSpaceAfter_iff {previous afterNext : Option Char} :
    needsSpaceAfter p previous c next afterNext = true ↔
      isBlank next = false ∧ p next = false ∧ next ∉ closingMarks
        ∧ ¬ (previous.any isAsciiDigit = true ∧ isAsciiDigit next = true)
        ∧ ¬ (c = '.' ∧ isAlphabetic next = true ∧ afterNext = some '.') := by
  rw [← Bool.not_eq_false, needsSpaceAfter_eq_false_iff]
  simp only [not_or, Bool.not_eq_true]

/-- A character outside of addresses takes a space in view of what stands around it. -/
theorem exists_spaceAt_iff (hc : cs[i]? = some c) :
    (∃ next, SpaceAt p cs i c next) ↔ (addressMask cs)[i]? = some false
      ∧ takesSpace p (charBefore none cs i) c (cs.drop (i + 1)) = true := by
  have hnext : (cs.drop (i + 1)).head? = cs[i + 1]? := List.head?_drop
  have hafter : ((cs.drop (i + 1)).drop 1).head? = cs[i + 2]? := by
    rw [List.drop_drop, List.head?_drop]
  cases hrest : cs.drop (i + 1) with
  | nil =>
    -- the last character of a text never takes a space
    rw [hrest] at hnext
    refine iff_of_false ?_ (by simp [takesSpace])
    rintro ⟨next, h⟩
    cases hnext.trans h.behind
  | cons next later =>
    rw [hrest] at hnext hafter
    rw [takesSpace, Bool.and_eq_true, needsSpaceAfter_iff, any_charBefore]
    change later.head? = _ at hafter
    rw [hafter]
    constructor
    · rintro ⟨next', h⟩
      obtain rfl : next = next' := Option.some.inj (hnext.trans h.behind)
      exact ⟨h.outside, h.mark, h.notBlank, h.notMark, h.notClosing, h.notNumber, h.notAbbreviation⟩
    · rintro ⟨houtside, hmark, hblank, hnotMark, hclosing, hnumber, habbreviation⟩
      exact ⟨next, hc, hnext.symm, hmark, houtside, hblank, hnotMark, hclosing, hnumber,
        habbreviation⟩

theorem getElem?_piecesFrom (p : Char → Bool) (previous : Option Char)
    {marked : List (Char × Bool)} {x : Char × Bool} (hx : marked[i]? = some x) :
    (piecesFrom p previous marked)[i]? = some
      (if !x.2 && takesSpace p (charBefore previous (marked.map Prod.fst) i) x.1
          ((marked.map Prod.fst).drop (i + 1))
        then [x.1, ' '] else [x.1]) := by
  induction marked generalizing previous i with
  | nil => cases hx
  | cons y rest ih =>
    cases i with
    | zero =>
      obtain rfl := Option.some.inj hx
      rfl
    | succ i =>
      have hbefore : charBefore (some y.1) (rest.map Prod.fst) i
          = charBefore previous ((y :: rest).map Prod.fst) (i + 1) := by
        cases i <;> rfl
      have hrest := ih (some y.1) hx
      rw [hbefore] at hrest
      exact hrest

/-! ## The set text -/

/-- What becomes of each character of a text. -/
def piecesOf (p : Char → Bool) (cs : List Char) : List (List Char) :=
  piecesFrom p none (markAddresses cs)

theorem flatten_piecesOf (p : Char → Bool) (cs : List Char) :
    (piecesOf p cs).flatten = spaceAfter p cs := flatten_piecesFrom p none (markAddresses cs)

/-- A character is kept, and has a space behind it exactly if it takes one. -/
theorem getElem?_piecesOf (p : Char → Bool) (hc : cs[i]? = some c) :
    (∃ next, SpaceAt p cs i c next) ∧ (piecesOf p cs)[i]? = some [c, ' ']
      ∨ (¬ ∃ next, SpaceAt p cs i c next) ∧ (piecesOf p cs)[i]? = some [c] := by
  obtain ⟨x, hx, rfl⟩ : ∃ x, (markAddresses cs)[i]? = some x ∧ x.1 = c := by
    rw [← map_fst_markAddresses cs, List.getElem?_map] at hc
    exact Option.map_eq_some_iff.mp hc
  have hpiece := getElem?_piecesFrom p none hx
  rw [map_fst_markAddresses] at hpiece
  have hmask : (addressMask cs)[i]? = some x.2 := by
    unfold addressMask
    rw [List.getElem?_map, hx]
    rfl
  rw [exists_spaceAt_iff hc, hmask]
  unfold piecesOf
  rw [hpiece]
  split_ifs with htakes
  · rw [Bool.and_eq_true, Bool.not_eq_true'] at htakes
    exact .inl ⟨⟨congrArg some htakes.1, htakes.2⟩, rfl⟩
  · refine .inr ⟨?_, rfl⟩
    rintro ⟨hout, hmark⟩
    exact htakes (by rw [Option.some.inj hout, hmark]; rfl)

theorem spread_piecesOf (p : Char → Bool) (cs : List Char) : Spread (piecesOf p cs) cs := by
  have hspread := spread_piecesFrom p none (markAddresses cs)
  rwa [map_fst_markAddresses] at hspread

/-- The characters of a word that looks like an address are pieces by themselves. -/
theorem piecesOf_address (hat : WordAt front word back) (haddress : IsWebAddress word) :
    ((piecesOf p (front ++ (word ++ back))).drop front.length).take word.length
      = word.map fun c => [c] := by
  apply List.ext_getElem?
  intro j
  by_cases hj : j < word.length
  · rw [List.getElem?_take_of_lt hj, List.getElem?_drop, List.getElem?_map,
      List.getElem?_eq_getElem hj]
    have hc : (front ++ (word ++ back))[front.length + j]? = some word[j] := by
      rw [List.getElem?_append_right (Nat.le_add_right _ j), Nat.add_sub_cancel_left,
        List.getElem?_append_left hj, List.getElem?_eq_getElem hj]
    have hmarked : (addressMask (front ++ (word ++ back)))[front.length + j]? = some true :=
      addressMask_eq_true_iff.mpr ⟨front, word, back, rfl, hat, haddress, by omega, by omega⟩
    rcases getElem?_piecesOf p hc with ⟨⟨_, hspace⟩, -⟩ | ⟨-, hpiece⟩
    · cases hmarked.symm.trans hspace.outside
    · exact hpiece
  · have hlength : word.length ≤ j := Nat.le_of_not_lt hj
    rw [List.getElem?_eq_none, List.getElem?_eq_none]
    · rwa [List.length_map]
    · exact (List.length_take_le _ _).trans hlength

/-- A word that looks like an address stands in the set text as it stood in the text. -/
theorem spaceAfter_around (p : Char → Bool) (hat : WordAt front word back)
    (haddress : IsWebAddress word) :
    ∃ front' back', spaceAfter p (front ++ (word ++ back)) = front' ++ (word ++ back')
      ∧ WordAt front' word back' := by
  have hspread := spread_piecesOf p (front ++ (word ++ back))
  have hword := piecesOf_address (p := p) hat haddress
  rw [← flatten_piecesOf]
  generalize piecesOf p (front ++ (word ++ back)) = pieces at hspread hword
  have hfront := List.forall₂_take_append _ _ _ hspread
  have hrest := List.forall₂_drop_append _ _ _ hspread
  have hback := List.forall₂_drop_append _ _ _ hrest
  refine ⟨(pieces.take front.length).flatten,
    ((pieces.drop front.length).drop word.length).flatten, ?_, hat.word, ?_, ?_⟩
  · have hflatten : (word.map fun c => [c]).flatten = word := by
      rw [← List.flatMap_def, List.flatMap_singleton']
    conv_lhs => rw [← List.take_append_drop front.length pieces,
      ← List.take_append_drop word.length (pieces.drop front.length), hword]
    rw [List.flatten_append, List.flatten_append, hflatten]
  · exact last_of_spread hfront hat.front
  · unfold EndsWord
    rw [head_of_spread hback]
    exact hat.back

/-- Spaces are put in where they belong, and nothing else is done to a text. Each character has a
mark, which says whether it lies in a word that looks like an address. One space is put behind each
character that `SpaceAt` describes, none is put behind any other, and without these spaces the set
text is the text. A word that looks like an address is a word of the set text, as it was. -/
theorem spaceAfter_inserts (cs : List Char) :
    (addressMask cs).length = cs.length
      ∧ (∀ i, (addressMask cs)[i]? = some true ↔ InAddress cs i)
      ∧ ∀ p : Char → Bool,
        (∃ pieces : List (List Char), spaceAfter p cs = pieces.flatten ∧ pieces.length = cs.length
          ∧ pieces.flatMap (List.take 1) = cs
          ∧ ∀ i c, cs[i]? = some c →
            (∃ next, SpaceAt p cs i c next) ∧ pieces[i]? = some [c, ' ']
              ∨ (¬ ∃ next, SpaceAt p cs i c next) ∧ pieces[i]? = some [c])
        ∧ ∀ front word back, cs = front ++ (word ++ back) → WordAt front word back →
          IsWebAddress word → ∃ front' back',
            spaceAfter p cs = front' ++ (word ++ back') ∧ WordAt front' word back' := by
  refine ⟨length_addressMask cs, fun i => addressMask_eq_true_iff, fun p => ⟨?_, ?_⟩⟩
  · have hspread := spread_piecesOf p cs
    refine ⟨piecesOf p cs, (flatten_piecesOf p cs).symm, hspread.length_eq,
      flatMap_take_of_spread hspread, ?_⟩
    intro i c hc
    exact getElem?_piecesOf p hc
  · rintro front word back rfl hat haddress
    exact spaceAfter_around p hat haddress

/-- An address in capitals with punctuation in it, between words that take spaces. -/
theorem spaceAfter_inserts_capitals :
    let p := Guide.mla9.isPunctuation
    let front := "so,see ".toList
    let word := "WWW.a.org/b,c".toList
    let back := " now.it".toList
    let cs := front ++ (word ++ back)
    cs[2]? = some ',' ∧ SpaceAt p cs 2 ',' 's'
      ∧ WordAt front word back ∧ IsWebAddress word
      ∧ (∃ pieces : List (List Char),
        spaceAfter p cs = pieces.flatten ∧ pieces[2]? = some [',', ' '])
      ∧ ∃ front' back', spaceAfter p cs = front' ++ (word ++ back') ∧ WordAt front' word back' := by
  intro p front word back cs
  have hspace : SpaceAt p cs 2 ',' 's' := by
    have hnumber : isAsciiDigit 's' = false := rfl
    refine ⟨rfl, rfl, by decide, by decide +kernel, rfl, by decide, by decide, ?_, ?_⟩
    · rw [hnumber]
      exact fun h => Bool.false_ne_true h.2
    · exact fun h => absurd h.1 (by decide)
  have hat : WordAt front word back := by
    have hletters : word.Forall fun c => isBlank c = false := by decide
    refine ⟨⟨nofun, List.forall_iff_forall_mem.mp hletters⟩, ?_, endsWord_cons.mpr rfl⟩
    rintro c ⟨⟩
    rfl
  have haddress : IsWebAddress word := .inr (by decide +kernel)
  obtain ⟨-, -, hspaces⟩ := spaceAfter_inserts cs
  obtain ⟨⟨pieces, hset, -, -, hpieces⟩, hwords⟩ := hspaces p
  have hpiece : pieces[2]? = some [',', ' '] := by
    rcases hpieces 2 ',' rfl with ⟨-, hpiece⟩ | ⟨hnone, -⟩
    · exact hpiece
    · exact absurd ⟨'s', hspace⟩ hnone
  have hkept := hwords front word back rfl hat haddress
  exact ⟨rfl, hspace, hat, haddress, ⟨pieces, hset, hpiece⟩, hkept⟩

end Manuscript.Typeset
