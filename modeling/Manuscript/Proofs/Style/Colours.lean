import Manuscript.Proofs.Text.Lowering
import Manuscript.Proofs.Text.Trimming
import Manuscript.Style.Measure

/-!
# Colours

A colour is read from the bytes of a text. What is checked before makes sure that each byte is a
character, so that the text can be cut at any of them, and that the digits of each channel are
hexadecimal.

* `hexDigits`, `isHex_iff`: the check says that the text is made of six hexadecimal digits.
* `Text.slice?_append`: a part of a text of which each character is a byte.
* `Colour.read?_hex`: reading six digits takes two of them for each channel.
* `Colour.read_display`: which texts are colours, how a colour that was read is shown, and that it
  is read again from what is shown.
-/

namespace Manuscript

open Manuscript.Character (isBlank lower)

/-! ## Bytes -/

namespace Text

variable {cs : List Char} {start stop n : Nat}

theorem byteLength_eq (h : ∀ c ∈ cs, c.utf8Size = 1) : byteLength cs = cs.length := by
  induction cs with
  | nil => rfl
  | cons c cs ih =>
    obtain ⟨hc, hcs⟩ := List.forall_mem_cons.mp h
    rw [byteLength, hc, ih hcs, List.length_cons, Nat.add_comm]

/-- A text can be cut anywhere if each of its characters is a byte. -/
theorem cutAt?_eq (h : ∀ c ∈ cs, c.utf8Size = 1) (hn : n ≤ cs.length) :
    cutAt? n cs = some (cs.take n, cs.drop n) := by
  induction cs generalizing n with
  | nil =>
    obtain rfl : n = 0 := Nat.le_zero.mp hn
    rfl
  | cons c cs ih =>
    obtain ⟨hc, hcs⟩ := List.forall_mem_cons.mp h
    cases n with
    | zero => rfl
    | succ n =>
      rw [cutAt?, hc, if_pos (Nat.le_add_left 1 n), Nat.add_sub_cancel,
        ih hcs (Nat.le_of_succ_le_succ hn)]
      rfl

theorem slice?_eq (h : ∀ c ∈ cs, c.utf8Size = 1) (hstart : start ≤ stop)
    (hstop : stop ≤ cs.length) :
    slice? start stop cs = some ((cs.drop start).take (stop - start)) := by
  have hbehind : ∀ c ∈ cs.drop start, c.utf8Size = 1 := fun c hc => h c (List.mem_of_mem_drop hc)
  have hlength : stop - start ≤ (cs.drop start).length := by
    rw [List.length_drop]
    omega
  unfold slice?
  rw [cutAt?_eq h (hstart.trans hstop)]
  show (cutAt? (stop - start) (cs.drop start) >>= _) = _
  rw [cutAt?_eq hbehind hlength]
  rfl

end Text

namespace Colour

variable {hex : List Char} {s : String} {c : Colour}

/-! ## Digits -/

/-- The hexadecimal digits, in small letters and in capitals. -/
def hexDigits : List Char :=
  ['0', '1', '2', '3', '4', '5', '6', '7', '8', '9', 'a', 'b', 'c', 'd', 'e', 'f',
    'A', 'B', 'C', 'D', 'E', 'F']

/-- A digit is a byte, and has a value, by which it is written as a small letter. -/
theorem of_mem_hexDigits : ∀ d ∈ hexDigits, d.utf8Size = 1 ∧ isBlank d = false ∧ d ≠ 'Σ'
    ∧ ∃ v < 16, Number.hexDigit? d = some v ∧ lower d = [hexDigit v] := by
  have hall : hexDigits.Forall fun d => d.utf8Size = 1 ∧ isBlank d = false ∧ d ≠ 'Σ'
      ∧ ∃ v < 16, Number.hexDigit? d = some v ∧ lower d = [hexDigit v] := by
    decide +kernel
  exact List.forall_iff_forall_mem.mp hall

theorem hexDigit_mem : ∀ v < 16,
    hexDigit v ∈ hexDigits ∧ Number.hexDigit? (hexDigit v) = some v := by
  decide +kernel

theorem mem_hexDigits_iff {d : Char} : d ∈ hexDigits ↔ (Number.hexDigit? d).isSome = true := by
  constructor
  · intro h
    obtain ⟨-, -, -, v, -, hv, -⟩ := of_mem_hexDigits d h
    rw [hv]
    rfl
  · intro h
    -- above `f` no character is a digit, so that finitely many are left
    have hall : ∀ n < 103, (Number.hexDigit? (Char.ofNat n)).isSome = true →
        Char.ofNat n ∈ hexDigits := by decide +kernel
    have hbelow : d.toNat < 103 := by
      have hle {last : Char} (hd : d ≤ last) : d.toNat ≤ last.toNat := hd
      unfold Number.hexDigit? at h
      split_ifs at h with hdigit hsmall hcapital
      · exact (hle hdigit.2).trans_lt (by decide)
      · exact (hle hsmall.2).trans_lt (by decide)
      · exact (hle hcapital.2).trans_lt (by decide)
      · cases h
    rw [← Char.ofNat_toNat d] at h ⊢
    exact hall d.toNat hbelow h

/-- The check says that the text is made of six hexadecimal digits. -/
theorem isHex_iff : isHex hex = true ↔ hex.length = 6 ∧ ∀ d ∈ hex, d ∈ hexDigits := by
  unfold isHex
  rw [Bool.and_eq_true, beq_iff_eq, List.all_eq_true]
  simp only [← mem_hexDigits_iff]
  -- the length is counted in bytes, but the digits are one byte each
  constructor
  · rintro ⟨hbytes, hdigits⟩
    rw [Text.byteLength_eq fun d hd => (of_mem_hexDigits d (hdigits d hd)).1] at hbytes
    exact ⟨hbytes, hdigits⟩
  · rintro ⟨hlength, hdigits⟩
    rw [Text.byteLength_eq fun d hd => (of_mem_hexDigits d (hdigits d hd)).1]
    exact ⟨hlength, hdigits⟩

/-- What passes the check can be cut at each of its bytes. -/
theorem slice?_of_isHex {start : Nat} (h : isHex hex = true) (hstart : start ≤ 4) :
    Text.slice? start (start + 2) hex = some ((hex.drop start).take 2) := by
  obtain ⟨hlength, hdigits⟩ := isHex_iff.mp h
  have hbytes : ∀ d ∈ hex, d.utf8Size = 1 := fun d hd => (of_mem_hexDigits d (hdigits d hd)).1
  rw [Text.slice?_eq hbytes (Nat.le_add_right start 2) (by omega), Nat.add_sub_cancel_left]

/-! ## Channels -/

theorem channel?_pair {high low : Char} {a b : Nat} (hhigh : Number.hexDigit? high = some a)
    (hlow : Number.hexDigit? low = some b) :
    channel? [high, low] = some (UInt8.ofNat (16 * a + b)) := by
  unfold channel?
  dsimp only
  rw [hhigh, hlow]
  rfl

/-- A channel that two digits write is shown by them, in small letters. -/
theorem channel?_hex {high low : Char} (hhigh : high ∈ hexDigits) (hlow : low ∈ hexDigits) :
    ∃ v, channel? [high, low] = some v ∧ hexPair v = [high, low].flatMap lower := by
  obtain ⟨-, -, -, a, ha, hread, hshown⟩ := of_mem_hexDigits high hhigh
  obtain ⟨-, -, -, b, hb, hread', hshown'⟩ := of_mem_hexDigits low hlow
  have hvalue : (UInt8.ofNat (16 * a + b)).toNat = 16 * a + b :=
    UInt8.toNat_ofNat_of_lt' (show 16 * a + b < 256 by omega)
  have hdiv : (16 * a + b) / 16 = a := by omega
  have hmod : (16 * a + b) % 16 = b := by omega
  refine ⟨_, channel?_pair hread hread', ?_⟩
  unfold hexPair
  rw [hvalue, hdiv, hmod, List.flatMap_cons, List.flatMap_singleton, hshown, hshown']
  rfl

/-- A channel is read from the digits that show it. -/
theorem channel?_hexPair (v : UInt8) : channel? (hexPair v) = some v := by
  have hv : v.toNat < 256 := v.toNat_lt
  obtain ⟨-, hhigh⟩ := hexDigit_mem (v.toNat / 16) (by omega)
  obtain ⟨-, hlow⟩ := hexDigit_mem (v.toNat % 16) (by omega)
  unfold hexPair
  rw [channel?_pair hhigh hlow, Nat.div_add_mod, UInt8.ofNat_toNat]

/-! ## Colours -/

/-- Nothing but a hash sign in front of six digits is read. -/
theorem read?_eq (s : String) (hex : List Char) (h : (Text.trim s).toList = '#' :: hex) :
    reader.read? s = if isHex hex then
      (channelAt? hex 0).bind fun red => (channelAt? hex 2).bind fun green =>
        (channelAt? hex 4).bind fun blue => some ⟨red, green, blue⟩
      else none := by
  unfold Text.trim at h
  rw [String.toList_ofList] at h
  unfold reader
  dsimp only
  rw [h]
  rfl

/-- Two digits each are read as a channel. -/
theorem read?_pairs {r₁ r₀ g₁ g₀ b₁ b₀ : Char}
    (h : (Text.trim s).toList = ['#', r₁, r₀, g₁, g₀, b₁, b₀])
    (hhex : isHex [r₁, r₀, g₁, g₀, b₁, b₀] = true) :
    reader.read? s = (channel? [r₁, r₀]).bind fun red => (channel? [g₁, g₀]).bind fun green =>
      (channel? [b₁, b₀]).bind fun blue => some ⟨red, green, blue⟩ := by
  rw [read?_eq s _ h, if_pos hhex]
  unfold channelAt?
  rw [slice?_of_isHex hhex (by decide), slice?_of_isHex hhex (by decide),
    slice?_of_isHex hhex (by decide)]
  rfl

/-- Six digits are read, and the colour is shown by them, in small letters. -/
theorem read?_hex (h : (Text.trim s).toList = '#' :: hex) (hhex : isHex hex = true) :
    ∃ c, reader.read? s = some c
      ∧ hexPair c.red ++ hexPair c.green ++ hexPair c.blue = hex.flatMap lower := by
  obtain ⟨hlength, hdigits⟩ := isHex_iff.mp hhex
  match hex, hlength with
  | [r₁, r₀, g₁, g₀, b₁, b₀], _ =>
    simp only [List.forall_mem_cons] at hdigits
    obtain ⟨hr₁, hr₀, hg₁, hg₀, hb₁, hb₀, -⟩ := hdigits
    obtain ⟨red, hred, hshownRed⟩ := channel?_hex hr₁ hr₀
    obtain ⟨green, hgreen, hshownGreen⟩ := channel?_hex hg₁ hg₀
    obtain ⟨blue, hblue, hshownBlue⟩ := channel?_hex hb₁ hb₀
    refine ⟨⟨red, green, blue⟩, ?_, ?_⟩
    · rw [read?_pairs h hhex, hred, hgreen, hblue]
      rfl
    · dsimp only
      rw [hshownRed, hshownGreen, hshownBlue, ← List.flatMap_append, ← List.flatMap_append]
      rfl

/-- A text is a colour if it is a hash sign and six hexadecimal digits. -/
theorem isSome_read?_iff : (reader.read? s).isSome = true
    ↔ ∃ hex, (Text.trim s).toList = '#' :: hex ∧ hex.length = 6 ∧ ∀ d ∈ hex, d ∈ hexDigits := by
  constructor
  · intro h
    have hsome := h
    unfold reader at hsome
    dsimp only at hsome
    split at hsome
    · next hex htrim =>
      split_ifs at hsome with hhex
      · refine ⟨hex, ?_, isHex_iff.mp hhex⟩
        unfold Text.trim
        rw [String.toList_ofList, htrim]
      · cases hsome
    · cases hsome
  · rintro ⟨hex, htrim, hhex⟩
    obtain ⟨c, hread, -⟩ := read?_hex htrim (isHex_iff.mpr hhex)
    rw [hread]
    rfl

/-- A colour that was read is shown in small letters. -/
theorem display_of_read? (h : reader.read? s = some c) :
    c.display = Text.lowercase (Text.trim s) := by
  obtain ⟨hex, htrim, hhex⟩ := isSome_read?_iff.mp (Option.isSome_of_eq_some h)
  obtain ⟨_, hread, hshown⟩ := read?_hex htrim (isHex_iff.mpr hhex)
  cases h.symm.trans hread
  -- no digit is a capital sigma, so that each of them is lowered by itself
  have hsigma : 'Σ' ∉ '#' :: hex := by
    rw [List.mem_cons, not_or]
    refine ⟨by decide, fun hmem => ?_⟩
    exact (of_mem_hexDigits _ (hhex.2 _ hmem)).2.2.1 rfl
  have hhash : lower '#' = ['#'] := by decide +kernel
  unfold display Text.lowercase
  rw [htrim, Text.lowerAfter_eq hsigma, hshown, List.flatMap_cons, hhash]
  rfl

theorem mem_hexPair {v : UInt8} {d : Char} (h : d ∈ hexPair v) : d ∈ hexDigits := by
  have hv : v.toNat < 256 := v.toNat_lt
  unfold hexPair at h
  rw [List.mem_cons, List.mem_singleton] at h
  rcases h with rfl | rfl
  · exact (hexDigit_mem (v.toNat / 16) (by omega)).1
  · exact (hexDigit_mem (v.toNat % 16) (by omega)).1

/-- A colour is read from what it is shown as. -/
theorem read?_of_display (c : Colour) : reader.read? c.display = some c := by
  have hdigits : ∀ d ∈ hexPair c.red ++ hexPair c.green ++ hexPair c.blue, d ∈ hexDigits := by
    intro d hd
    rcases List.mem_append.mp hd with hd | hd
    · exact (List.mem_append.mp hd).elim mem_hexPair mem_hexPair
    · exact mem_hexPair hd
  have hvisible : ∀ d ∈ '#' :: (hexPair c.red ++ hexPair c.green ++ hexPair c.blue),
      isBlank d = false :=
    List.forall_mem_cons.mpr ⟨rfl, fun d hd => (of_mem_hexDigits d (hdigits d hd)).2.1⟩
  -- nothing is trimmed off what is shown
  have htrim : (Text.trim c.display).toList
      = '#' :: (hexPair c.red ++ hexPair c.green ++ hexPair c.blue) := by
    unfold Text.trim display
    rw [String.toList_ofList, String.toList_ofList]
    exact Text.trimBoth_eq_self (fun d hd => hvisible d (List.mem_of_mem_head? hd))
      fun d hd => hvisible d (List.mem_of_getLast? hd)
  have hread := read?_pairs htrim (isHex_iff.mpr ⟨rfl, hdigits⟩)
  rw [hread]
  show (channel? (hexPair c.red)).bind (fun red => (channel? (hexPair c.green)).bind fun green =>
    (channel? (hexPair c.blue)).bind fun blue => some ⟨red, green, blue⟩) = some c
  rw [channel?_hexPair, channel?_hexPair, channel?_hexPair]
  rfl

/-- Colours are read and shown consistently. A text is a colour exactly if it is, without the white
space around it, a hash sign and six hexadecimal digits. What passes the check of the digits is cut
into channels at borders of characters only. A colour that was read is shown by its text in small
letters, and is read again from what is shown. -/
theorem read_display :
    (∀ s, (reader.read? s).isSome = true
        ↔ ∃ hex, (Text.trim s).toList = '#' :: hex ∧ hex.length = 6 ∧ ∀ d ∈ hex, d ∈ hexDigits)
      ∧ (∀ hex, isHex hex = true →
        ∀ start ∈ [0, 2, 4], (Text.slice? start (start + 2) hex).isSome = true)
      ∧ (∀ s c, reader.read? s = some c → c.display = Text.lowercase (Text.trim s))
      ∧ ∀ c : Colour, reader.read? c.display = some c := by
  refine ⟨fun s => isSome_read?_iff, ?_, fun s c h => display_of_read? h, read?_of_display⟩
  intro hex hhex start hstart
  have hle : ∀ k ∈ [0, 2, 4], k ≤ 4 := by decide
  rw [slice?_of_isHex hhex (hle start hstart)]
  rfl

/-- A colour in both cases of letters. -/
theorem read_display_mixedCase :
    isHex "1a2B3c".toList = true ∧ 4 ∈ [0, 2, 4]
      ∧ (Text.slice? 4 6 "1a2B3c".toList).isSome = true
      ∧ reader.read? " #1a2B3c\n" = some ⟨0x1a, 0x2b, 0x3c⟩
      ∧ display ⟨0x1a, 0x2b, 0x3c⟩ = Text.lowercase (Text.trim " #1a2B3c\n") := by
  obtain ⟨-, hslices, hshown, -⟩ := read_display
  have hhex : isHex "1a2B3c".toList = true := by decide +kernel
  have hread : reader.read? " #1a2B3c\n" = some ⟨0x1a, 0x2b, 0x3c⟩ := by decide +kernel
  exact ⟨hhex, by decide, hslices _ hhex 4 (by decide), hread, hshown _ _ hread⟩

/-- Six bytes that cannot be cut in pairs do not pass the check. -/
example : Text.byteLength "1€23".toList = 6 ∧ Text.slice? 0 2 "1€23".toList = none
    ∧ isHex "1€23".toList = false := by decide +kernel

end Colour

end Manuscript
