import Mathlib.Tactic.SplitIfs
import Manuscript.Token.Lexer

/-!
# What tokens look like

What holds of the tokens of every source that can be read, whatever it says.

* `Indented`: an increase of indentation says its depth and stands in front of a token of it.
* `fits_tokenize`: the tokens of a source are indented so, and no text holds a carriage return.
-/

namespace Manuscript

/-- Every increase of indentation says its depth, and a token of that depth stands behind it. -/
def Indented (ts : List Token) : Prop :=
  ∀ t us, t :: us <:+ ts → t.isIndent = true →
    t.value = toString t.indent ∧ ∃ u ∈ us.head?, u.indent = t.indent

theorem Indented.suffix {ts us : List Token} (h : Indented ts) (hs : us <:+ ts) : Indented us :=
  fun t vs hv => h t vs (hv.trans hs)

/-- A depth can be read off its decimal form. -/
theorem eq_of_toString_eq {m n : Nat} (h : toString m = toString n) : m = n := by
  have hd : Nat.toDigits 10 m = Nat.toDigits 10 n := String.ofList_injective h
  rw [← Nat.ofDigitChars_ten_toDigits (n := m), hd, Nat.ofDigitChars_ten_toDigits]

/-- A value without carriage returns. -/
def CleanValue (value : String) : Prop := '\r' ∉ value.toList

theorem CleanValue.push {v : String} (h : CleanValue v) {ch : Char} (hc : ch ≠ '\r') :
    CleanValue (v.push ch) := by
  unfold CleanValue at *
  simp [h, hc.symm]

/-- What one token says by itself: an increase of indentation says its depth, and a text has no
carriage return. -/
structure Token.WellFormed (t : Token) : Prop where
  indent : t.isIndent = true → t.value = toString t.indent
  text : t.isText = true → CleanValue t.value

/-- Tokens that may stand where a token of a depth is awaited, if there is one, up to where another
is awaited. -/
def Fits : Option Nat → List Token → Option Nat → Prop
  | awaited, [], next => ∀ d ∈ awaited, d ∈ next
  | awaited, t :: ts, next =>
    (∀ d ∈ awaited, t.indent = d) ∧ t.WellFormed
      ∧ Fits (if t.isIndent then some t.indent else none) ts next

variable {a b c : Option Nat} {ts us : List Token}

theorem Fits.weaken (h : Fits b ts c) (hab : ∀ d ∈ a, d ∈ b) : Fits a ts c := by
  cases ts with
  | nil => exact fun d hd => h d (hab d hd)
  | cons t ts => exact ⟨fun d hd => h.1 d (hab d hd), h.2⟩

/-- Where nothing is awaited, less is asked for. -/
theorem Fits.of_none (h : Fits b ts c) : Fits none ts c := h.weaken (by simp)

theorem Fits.append (h : Fits a ts b) (h' : Fits b us c) : Fits a (ts ++ us) c := by
  induction ts generalizing a with
  | nil => exact h'.weaken h
  | cons t ts ih => exact ⟨h.1, h.2.1, ih h.2.2⟩

/-- One token that is no increase of indentation. -/
theorem Fits.single {t : Token} (hd : ∀ d ∈ a, t.indent = d) (hi : t.isIndent = false)
    (ht : t.isText = true → CleanValue t.value) : Fits a [t] none := by
  refine ⟨hd, ⟨by simp [hi], ht⟩, ?_⟩
  rw [hi]
  exact fun d hd => hd

theorem Fits.wellFormed (h : Fits a ts b) : ∀ t ∈ ts, t.WellFormed := by
  induction ts generalizing a with
  | nil => simp
  | cons u ts ih =>
    intro t ht
    rcases List.mem_cons.mp ht with rfl | ht
    · exact h.2.1
    · exact ih h.2.2 t ht

/-- Tokens behind which nothing is awaited are indented as they should be. -/
theorem Fits.indented (h : Fits a ts none) : Indented ts := by
  induction ts generalizing a with
  | nil =>
    intro t us hs
    exact absurd (List.suffix_nil.mp hs) (by simp)
  | cons u ts ih =>
    intro t us hs hi
    rcases List.suffix_cons_iff.mp hs with heq | hs
    · cases heq
      refine ⟨h.2.1.indent hi, ?_⟩
      -- behind the increase of indentation its depth is awaited: the tokens do not end there
      have hrest := h.2.2
      rw [if_pos hi] at hrest
      cases ts with
      | nil => exact absurd (hrest _ rfl) (by simp)
      | cons v ts => exact ⟨v, rfl, hrest.1 _ rfl⟩
    · exact ih h.2.2 t us hs hi

/-! ## The lexer -/

namespace Lexer

/-- The depth of the token that is being read, if one is. -/
def awaited (l : Lexer) : Option Nat :=
  match l.mode with
  | .keyword | .text | .escape => some l.depth
  | _ => none

/-- What a step without an error leaves behind: the tokens fit, and so does what was read of the
next one. -/
structure Step.Fine (a : Option Nat) (s : Step) : Prop where
  tokens : Fits a s.tokens s.lexer.awaited
  buffer : CleanValue s.lexer.buffer

variable {l : Lexer} {ch : Char} {p : Position}

theorem Step.Fine.after {ts : List Token} {s : Step} (hs : s.Fine b) (ht : Fits a ts b) :
    (s.after ts).Fine a := ⟨ht.append hs.tokens, hs.buffer⟩

/-- Between tokens, a character that is no blank begins a token or is one. -/
theorem fine_stepBetween_of_ne (he : (l.stepBetween ch p).error = none) (hm : l.mode = .between)
    (hb : CleanValue l.buffer) (hc : ch ≠ '\r') (hblank : ¬ (ch = ' ' ∨ ch = '\t')) :
    (l.stepBetween ch p).Fine (some l.depth) := by
  have hdepth (k : TokenKind) (v : String) : ∀ d ∈ some l.depth, (l.token k v p).indent = d := by
    rintro _ ⟨⟩
    rfl
  unfold stepBetween at he ⊢
  rw [if_neg hblank] at he ⊢
  split_ifs at he ⊢
  · exact ⟨.single (hdepth .lineEnd "") rfl nofun, hb⟩
  · refine ⟨?_, hb⟩
    rw [show awaited { l with lineHasTokens := true } = none by unfold awaited; rw [hm]]
    exact .single (hdepth .separator ",") rfl nofun
  · exact ⟨fun d hd => hd, by simp [CleanValue]⟩
  · exact ⟨fun d hd => hd, by simpa [CleanValue] using hc.symm⟩

/-- Between tokens, a blank does nothing. -/
theorem fine_stepBetween (he : (l.stepBetween ch p).error = none) (hm : l.mode = .between)
    (hb : CleanValue l.buffer) (hc : ch ≠ '\r') : (l.stepBetween ch p).Fine none := by
  by_cases hblank : ch = ' ' ∨ ch = '\t'
  · unfold stepBetween
    rw [if_pos hblank]
    exact ⟨nofun, hb⟩
  · have hfine := fine_stepBetween_of_ne he hm hb hc hblank
    exact ⟨hfine.tokens.of_none, hfine.buffer⟩

theorem fine_stepLineStart (he : (l.stepLineStart ch p).error = none) (hb : CleanValue l.buffer)
    (hc : ch ≠ '\r') : (l.stepLineStart ch p).Fine none := by
  unfold stepLineStart at he ⊢
  dsimp only at he ⊢
  by_cases htab : ch = '\t'
  · rw [if_pos htab]
    exact ⟨nofun, hb⟩
  by_cases hspace : ch = ' '
  · rw [if_neg htab, if_pos hspace]
    exact ⟨nofun, hb⟩
  rw [if_neg htab, if_neg hspace] at he ⊢
  split_ifs at he ⊢
  · exact ⟨nofun, hb⟩
  · exact ⟨nofun, hb⟩
  · -- the character is no blank, so that a token stands behind the increase of indentation
    refine Step.Fine.after (fine_stepBetween_of_ne he rfl hb hc (by simp [htab, hspace])) ?_
    exact ⟨nofun, ⟨fun _ => rfl, nofun⟩, fun d hd => hd⟩
  · exact fine_stepBetween he rfl hb hc

theorem fine_stepKeyword (he : (l.stepKeyword ch p).error = none) (hm : l.mode = .keyword)
    (hb : CleanValue l.buffer) (hc : ch ≠ '\r') : (l.stepKeyword ch p).Fine (some l.depth) := by
  unfold stepKeyword at he ⊢
  split_ifs at he ⊢
  · refine ⟨?_, hb.push hc⟩
    unfold awaited
    rw [hm]
    exact fun d hd => hd
  · refine Step.Fine.after (fine_stepBetween he rfl (by simp [closeWord, CleanValue]) hc) ?_
    exact .single (by rintro _ ⟨⟩; rfl) rfl nofun

theorem fine_stepText (hm : l.mode = .text) (hb : CleanValue l.buffer) (hc : ch ≠ '\r') :
    (l.stepText ch).Fine (some l.depth) := by
  have hstay : ∀ v n m, Fits (some l.depth) []
      { l with buffer := v, line := n, column := m }.awaited := by
    intro v n m
    unfold awaited
    rw [hm]
    exact fun d hd => hd
  unfold stepText
  split_ifs
  · exact ⟨.single (by rintro _ ⟨⟩; rfl) rfl fun _ => hb, by simp [CleanValue]⟩
  · exact ⟨fun d hd => hd, hb⟩
  · exact ⟨hstay _ _ _, hb⟩
  · exact ⟨hstay _ _ _, hb.push (by decide)⟩
  · exact ⟨hstay _ _ _, hb.push hc⟩

theorem fine_stepEscape (he : (l.stepEscape ch p).error = none) (hb : CleanValue l.buffer) :
    (l.stepEscape ch p).Fine (some l.depth) := by
  unfold stepEscape at he ⊢
  unfold unescape? at he ⊢
  split_ifs at he ⊢
  · exact ⟨fun d hd => hd, hb.push (by decide)⟩
  · exact ⟨fun d hd => hd, hb.push (by decide)⟩
  · exact ⟨fun d hd => hd, hb.push (by decide)⟩
  · exact ⟨fun d hd => hd, hb.push (by decide)⟩

/-- One character: what was awaited comes, or is awaited still. -/
theorem fine_step (hb : CleanValue l.buffer) (he : (l.step ch).error = none) :
    (l.step ch).Fine l.awaited := by
  unfold step at he ⊢
  by_cases hc : ch = '\r'
  · rw [if_pos hc]
    exact ⟨fun d hd => hd, hb⟩
  rw [if_neg hc] at he ⊢
  have hb' : CleanValue { l with column := l.column + 1 }.buffer := hb
  show Step.Fine (awaited { l with column := l.column + 1 }) _
  generalize { l with column := l.column + 1 } = l' at he hb' ⊢
  unfold awaited
  dsimp only at he ⊢
  cases hm : l'.mode with
  | lineStart =>
    rw [hm] at he
    exact fine_stepLineStart he hb' hc
  | comment =>
    dsimp only
    split_ifs
    · exact ⟨nofun, hb'⟩
    · exact ⟨nofun, hb'⟩
  | between =>
    rw [hm] at he
    exact fine_stepBetween he hm hb' hc
  | keyword =>
    rw [hm] at he
    exact fine_stepKeyword he hm hb' hc
  | text =>
    exact fine_stepText hm hb' hc
  | escape =>
    rw [hm] at he
    exact fine_stepEscape he hb'

/-- At the end of a source, a closed line leaves nothing awaited. -/
theorem fits_closeLine (l : Lexer) : Fits none l.closeLine.tokens none := by
  unfold closeLine
  split_ifs
  · exact .single nofun rfl nofun
  · exact nofun

theorem fits_finish (he : l.finish.error = none) : Fits l.awaited l.finish.tokens none := by
  unfold finish awaited at *
  cases hm : l.mode with
  | lineStart => exact fits_closeLine l
  | comment => exact fits_closeLine l
  | between => exact fits_closeLine l
  | keyword => exact Fits.append (.single (by rintro _ ⟨⟩; rfl) rfl nofun) (fits_closeLine _)
  | text =>
    rw [hm] at he
    cases he
  | escape =>
    rw [hm] at he
    cases he

/-- Reading on, what was awaited comes. -/
theorem fits_read {cs : List Char} (hb : CleanValue l.buffer) (h : l.read cs = .ok ts) :
    Fits l.awaited ts none := by
  -- what is awaited after a character is what the rest of the source has to begin with
  induction cs generalizing l ts with
  | nil =>
    unfold read at h
    dsimp only at h
    split at h
    · cases h
    next he =>
      cases h
      exact fits_finish he
  | cons ch cs ih =>
    unfold read at h
    dsimp only at h
    split at h
    · cases h
    next he =>
      have hfine := fine_step hb he
      rcases hr : (l.step ch).lexer.read cs with e | us
      · rw [hr] at h
        cases h
      · rw [hr] at h
        cases h
        exact hfine.tokens.append (ih hfine.buffer hr)

end Lexer

/-- The tokens of a source that can be read fit. -/
theorem fits_tokenize {source : String} (h : tokenize source = .ok ts) : Fits none ts none :=
  Lexer.fits_read (l := {}) (by simp [CleanValue]) h

end Manuscript
