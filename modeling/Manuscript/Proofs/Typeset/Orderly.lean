import Manuscript.Proofs.Typeset.Conservation

/-!
# Orderly white space

Once white space is set as a policy asks and none is left in front of punctuation, a text is
orderly, which is a matter of its ends and of the characters that stand side by side. Spaces behind
punctuation and capitals leave it orderly, and the rules for white space leave an orderly text
alone.

* `Orderly`: the condition on the white space of a text.
* `orderly_tighten`, `Orderly.spaceAfter`, `Orderly.raised`: each pass gives or keeps it.
* `Orderly.normalizeWhitespace_eq`, `Orderly.tighten_eq`: an orderly text is as it should be.
-/

namespace Manuscript.Typeset

open Manuscript.Character

variable {policy : WhitespacePolicy} {p q : Char → Bool} {c d : Char} {cs ds pending : List Char}

/-! ## Characters side by side -/

/-- The white space that a policy puts together. -/
def collapsed : WhitespacePolicy → Char → Bool
  | .yes => fun _ => false
  | .no => isBlank
  | .escaped => isSpace

theorem isBlank_of_collapsed (h : collapsed policy c = true) : isBlank c = true := by
  cases policy with
  | yes => cases h
  | no => exact h
  | escaped => exact isBlank_of_isSpace h

/-- The first character may stand right in front of the second one. -/
structure MayMeet (policy : WhitespacePolicy) (p : Char → Bool) (c d : Char) : Prop where
  /-- No white space that is dropped in front of punctuation stands there. -/
  tight : isDroppable policy c = true → p d = false
  /-- White space that is put together stands alone. -/
  alone : collapsed policy c = true → collapsed policy d = false

theorem isSpace_of_letter (h : isBlank c = false) : isSpace c = false :=
  Bool.eq_false_iff.mpr fun hc => Bool.false_ne_true (h.symm.trans (isBlank_of_isSpace hc))

theorem collapsed_of_letter (h : isBlank c = false) : collapsed policy c = false :=
  Bool.eq_false_iff.mpr fun hc => Bool.false_ne_true (h.symm.trans (isBlank_of_collapsed hc))

theorem isDroppable_of_letter (h : isBlank c = false) : isDroppable policy c = false :=
  Bool.eq_false_iff.mpr fun hc => Bool.false_ne_true (h.symm.trans (isBlank_of_isDroppable hc))

/-- Anything may stand behind a character that is not white space. -/
theorem MayMeet.behind_letter (h : isBlank c = false) : MayMeet policy p c d where
  tight hc := by rw [isDroppable_of_letter h] at hc; cases hc
  alone hc := by rw [collapsed_of_letter h] at hc; cases hc

/-- A character that is neither white space nor punctuation may stand behind anything. -/
theorem MayMeet.before_letter (h : isBlank d = false) (hd : p d = false) :
    MayMeet policy p c d where
  tight _ := hd
  alone _ := collapsed_of_letter h

/-- The white space of the text is as the policy asks, and none stands in front of punctuation. -/
structure Orderly (policy : WhitespacePolicy) (p : Char → Bool) (cs : List Char) : Prop where
  head : ∀ c ∈ cs.head?, isSpace c = false
  last : ∀ c ∈ cs.getLast?, isSpace c = false
  spaces : ∀ c ∈ cs, collapsed policy c = true → c = ' '
  chain : cs.IsChain (MayMeet policy p)

/-! ## Putting white space together -/

theorem collapse_none (cs : List Char) : collapse (fun _ => false) cs = cs := by
  induction cs with
  | nil => rfl
  | cons c cs ih =>
    unfold collapse
    rw [if_neg Bool.false_ne_true, ih]

theorem normalizeWhitespace_eq_trimBoth (policy : WhitespacePolicy) (cs : List Char) :
    normalizeWhitespace policy cs = Text.trimBoth isSpace (collapse (collapsed policy) cs) := by
  unfold normalizeWhitespace
  cases policy with
  | yes =>
    have hnone : collapse (collapsed .yes) cs = cs := collapse_none cs
    rw [hnone]
  | no => rfl
  | escaped => rfl

theorem head_collapse (h : ¬ cs.head?.any q = true) :
    ∀ c ∈ (collapse q cs).head?, q c = false := by
  cases cs with
  | nil => exact fun c hc => nomatch hc
  | cons d ds =>
    have hd : ¬ q d = true := h
    unfold collapse
    rw [if_neg hd]
    intro c hc
    obtain rfl := Option.some.inj hc
    exact Bool.eq_false_iff.mpr hd

theorem chain_collapse (q : Char → Bool) (cs : List Char) :
    (collapse q cs).IsChain fun c d => q c = true → q d = false := by
  induction cs with
  | nil => exact .nil
  | cons c cs ih =>
    unfold collapse
    split_ifs with hc hnext
    · exact ih
    · exact ih.cons fun d hd _ => head_collapse hnext d hd
    · exact ih.cons fun d _ hq => absurd hq hc

theorem spaces_collapse (q : Char → Bool) (cs : List Char) :
    ∀ c ∈ collapse q cs, q c = true → c = ' ' := by
  induction cs with
  | nil => exact fun c hc => nomatch hc
  | cons c cs ih =>
    unfold collapse
    split_ifs with hc hnext
    · exact ih
    · exact List.forall_mem_cons.mpr ⟨fun _ => rfl, ih⟩
    · exact List.forall_mem_cons.mpr ⟨fun hq => absurd hq hc, ih⟩

theorem collapse_eq_self (hspaces : ∀ c ∈ cs, q c = true → c = ' ')
    (hchain : cs.IsChain fun c d => q c = true → q d = false) : collapse q cs = cs := by
  induction cs with
  | nil => rfl
  | cons c cs ih =>
    obtain ⟨hc, hcs⟩ := List.forall_mem_cons.mp hspaces
    obtain ⟨hnext, htail⟩ := List.isChain_cons.mp hchain
    unfold collapse
    rw [ih hcs htail]
    split_ifs with hq hany
    · cases cs with
      | nil => cases hany
      | cons d ds =>
        rw [List.head?_cons, Option.any_some, hnext d rfl hq] at hany
        cases hany
    · rw [hc hq]
    · rfl

/-! ## Drawing punctuation up -/

/-- A tightened text starts as the text does, or with a punctuation mark. -/
theorem head_tightenFrom {drops : Char → Bool} :
    ∀ c ∈ (tightenFrom drops p pending cs).head?, p c = true ∨ c ∈ (pending ++ cs).head? := by
  induction cs generalizing pending with
  | nil =>
    rw [List.append_nil]
    exact fun c hc => .inr hc
  | cons d ds ih =>
    unfold tightenFrom
    split_ifs with hd hmark
    · have hhead : ∀ c ∈ (tightenFrom drops p (pending ++ [d]) ds).head?,
          p c = true ∨ c ∈ (pending ++ [d] ++ ds).head? := ih
      rwa [List.append_assoc] at hhead
    · intro c hc
      obtain rfl := Option.some.inj hc
      exact .inl hmark
    · intro c hc
      rw [List.head?_append] at hc ⊢
      exact .inr hc

theorem last_tightenFrom {drops : Char → Bool} :
    (tightenFrom drops p pending cs).getLast? = (pending ++ cs).getLast? := by
  induction cs generalizing pending with
  | nil => rw [List.append_nil]; rfl
  | cons d ds ih =>
    unfold tightenFrom
    split_ifs with hd hmark
    · rw [ih, List.append_assoc, List.singleton_append]
    · rw [List.getLast?_cons, ih, List.nil_append, List.getLast?_append_cons, List.getLast?_cons]
    · rw [List.getLast?_append_cons, List.getLast?_cons, ih, List.nil_append,
        List.getLast?_append_cons, List.getLast?_cons]

theorem chain_tightenFrom (hp : Marks p) (hpending : ∀ c ∈ pending, isDroppable policy c = true)
    (h : (pending ++ cs).IsChain fun c d =>
      collapsed policy c = true → collapsed policy d = false) :
    (tightenFrom (isDroppable policy) p pending cs).IsChain (MayMeet policy p) := by
  have hmark {c : Char} (hc : isDroppable policy c = true) : p c = false := by
    apply Bool.eq_false_iff.mpr
    intro hmark
    rw [isDroppable_of_letter (hp.notBlank hmark)] at hc
    cases hc
  induction cs generalizing pending with
  | nil =>
    rw [List.append_nil] at h
    exact h.imp_of_mem_imp fun c d _ hd halone => ⟨fun _ => hmark (hpending d hd), halone⟩
  | cons c cs ih =>
    unfold tightenFrom
    split_ifs with hc hmarkc
    · apply ih
      · exact List.forall_mem_append.mpr ⟨hpending, List.forall_mem_singleton.mpr hc⟩
      · rwa [List.append_assoc]
    · -- the mark comes out on its own, and is no white space
      obtain ⟨-, hcs, -⟩ := List.isChain_append.mp h
      have hrest := ih (List.forall_mem_nil _) hcs.tail
      exact hrest.cons fun d _ => .behind_letter (hp.notBlank hmarkc)
    · -- what waited comes out in front of a character that is no mark
      obtain ⟨hfront, hcs, hborder⟩ := List.isChain_append.mp h
      obtain ⟨hnext, hrest⟩ := List.isChain_cons.mp hcs
      refine List.isChain_append.mpr ⟨?_, (ih (List.forall_mem_nil _) hrest).cons ?_, ?_⟩
      · exact hfront.imp_of_mem_imp fun c d _ hd halone =>
          ⟨fun _ => hmark (hpending d hd), halone⟩
      · intro d hd
        refine ⟨fun hdrop => absurd hdrop hc, fun hcollapsed => ?_⟩
        rcases head_tightenFrom d hd with hmarkd | hmem
        · exact collapsed_of_letter (hp.notBlank hmarkd)
        · exact hnext d hmem hcollapsed
      · intro d hd e he
        refine ⟨fun _ => ?_, hborder d hd e he⟩
        obtain rfl := Option.some.inj he
        exact Bool.eq_false_iff.mpr hmarkc

theorem tightenFrom_eq_self (hpending : ∀ c ∈ pending, isDroppable policy c = true)
    (h : (pending ++ cs).IsChain fun c d => isDroppable policy c = true → p d = false) :
    tightenFrom (isDroppable policy) p pending cs = pending ++ cs := by
  induction cs generalizing pending with
  | nil => rw [List.append_nil]; rfl
  | cons c cs ih =>
    obtain ⟨-, hcs, hborder⟩ := List.isChain_append.mp h
    unfold tightenFrom
    split_ifs with hc hmark
    · rw [ih, List.append_assoc, List.singleton_append]
      · exact List.forall_mem_append.mpr ⟨hpending, List.forall_mem_singleton.mpr hc⟩
      · rwa [List.append_assoc]
    · -- white space in front of the mark would have been dropped
      rcases List.eq_nil_or_concat pending with rfl | ⟨front, d, rfl⟩
      · rw [ih (List.forall_mem_nil _) hcs.tail]
        rfl
      · have hd := hpending d (by simp)
        have htight := hborder d (by simp) c rfl hd
        rw [hmark] at htight
        cases htight
    · rw [ih (List.forall_mem_nil _) hcs.tail]
      rfl

/-! ## Orderly texts -/

theorem orderly_tighten (hp : Marks p) (policy : WhitespacePolicy) (cs : List Char) :
    Orderly policy p (tighten policy p (normalizeWhitespace policy cs)) := by
  have hwithin := Text.infix_trimBoth isSpace (collapse (collapsed policy) cs)
  have hspaces := spaces_collapse (collapsed policy) cs
  have hchain := List.IsChain.infix (chain_collapse (collapsed policy) cs) hwithin
  have hhead := Text.head_trimBoth isSpace (collapse (collapsed policy) cs)
  have hlast := Text.last_trimBoth isSpace (collapse (collapsed policy) cs)
  rw [normalizeWhitespace_eq_trimBoth]
  generalize Text.trimBoth isSpace (collapse (collapsed policy) cs) = ds at *
  exact {
    head := by
      intro c hc
      rcases head_tightenFrom c hc with hmark | hmem
      · exact isSpace_of_letter (hp.notBlank hmark)
      · exact hhead c hmem
    last := by
      have heq : (tighten policy p ds).getLast? = ds.getLast? := last_tightenFrom
      rwa [heq]
    spaces := by
      intro c hc
      exact hspaces c (hwithin.subset ((deletes_tighten policy p ds).sublist.subset hc))
    chain := chain_tightenFrom hp (List.forall_mem_nil _) hchain }

/-- An orderly text has its white space as the policy asks. -/
theorem Orderly.normalizeWhitespace_eq (h : Orderly policy p cs) :
    normalizeWhitespace policy cs = cs := by
  rw [normalizeWhitespace_eq_trimBoth, collapse_eq_self h.spaces (h.chain.imp fun _ _ h => h.alone),
    Text.trimBoth_eq_self h.head h.last]

/-- An orderly text has no white space in front of punctuation. -/
theorem Orderly.tighten_eq (h : Orderly policy p cs) : tighten policy p cs = cs :=
  tightenFrom_eq_self (List.forall_mem_nil _) (h.chain.imp fun _ _ h => h.tight)

/-! ## Spaces behind punctuation -/

variable {previous : Option Char} {marked : List (Char × Bool)}

theorem last_spaceAfterFrom :
    (spaceAfterFrom p previous marked).getLast? = (marked.map Prod.fst).getLast? := by
  induction marked generalizing previous with
  | nil => rfl
  | cons x rest ih =>
    rw [spaceAfterFrom_cons, List.map_cons, List.getLast?_cons]
    split_ifs with hspace
    · obtain ⟨-, next, later, hrest, -⟩ := of_takesSpace (Bool.and_eq_true_iff.mp hspace).2
      rw [List.getLast?_cons, List.getLast?_cons, ih, hrest, List.getLast?_cons]
      rfl
    · rw [List.getLast?_cons, ih]

theorem last_spaceAfter (p : Char → Bool) (cs : List Char) :
    (spaceAfter p cs).getLast? = cs.getLast? := by
  unfold spaceAfter
  rw [last_spaceAfterFrom, map_fst_markAddresses]

theorem mem_spaceAfterFrom :
    ∀ c ∈ spaceAfterFrom p previous marked, c = ' ' ∨ c ∈ marked.map Prod.fst := by
  induction marked generalizing previous with
  | nil => exact fun c hc => nomatch hc
  | cons x rest ih =>
    have hrest : ∀ c ∈ spaceAfterFrom p (some x.1) rest,
        c = ' ' ∨ c ∈ (x :: rest).map Prod.fst :=
      fun c hc => (ih c hc).imp_right (List.mem_cons_of_mem _)
    rw [spaceAfterFrom_cons]
    split_ifs
    · exact List.forall_mem_cons.mpr ⟨.inr List.mem_cons_self,
        List.forall_mem_cons.mpr ⟨.inl rfl, hrest⟩⟩
    · exact List.forall_mem_cons.mpr ⟨.inr List.mem_cons_self, hrest⟩

theorem chain_spaceAfterFrom (hp : Marks p)
    (h : (marked.map Prod.fst).IsChain (MayMeet policy p)) :
    (spaceAfterFrom p previous marked).IsChain (MayMeet policy p) := by
  induction marked generalizing previous with
  | nil => exact .nil
  | cons x rest ih =>
    obtain ⟨hnext, hrest⟩ := List.isChain_cons.mp h
    rw [spaceAfterFrom_cons]
    split_ifs with hspace
    · obtain ⟨hmark, next, later, heq, hletter, hplain⟩ :=
        of_takesSpace (Bool.and_eq_true_iff.mp hspace).2
      have hbehind : ∀ d ∈ (spaceAfterFrom p (some x.1) rest).head?, MayMeet policy p ' ' d := by
        rw [head_spaceAfterFrom, heq]
        intro d hd
        obtain rfl := Option.some.inj hd
        exact .before_letter hletter hplain
      exact ((ih hrest).cons hbehind).cons fun d _ => .behind_letter (hp.notBlank hmark)
    · apply (ih hrest).cons
      rwa [head_spaceAfterFrom]

/-- Spaces behind punctuation leave a text orderly. -/
theorem Orderly.spaceAfter (hp : Marks p) (h : Orderly policy p cs) :
    Orderly policy p (spaceAfter p cs) where
  head := by
    rw [head_spaceAfter]
    exact h.head
  last := by
    rw [last_spaceAfter]
    exact h.last
  spaces := by
    intro c hc hcollapsed
    rcases mem_spaceAfterFrom c hc with rfl | hmem
    · rfl
    · rw [map_fst_markAddresses] at hmem
      exact h.spaces c hmem hcollapsed
  chain := chain_spaceAfterFrom hp (by rw [map_fst_markAddresses]; exact h.chain)

/-! ## Capitals -/

theorem Raised.head (hp : Marks p) (h : Raised previous cs ds) :
    ∀ d ∈ ds.head?, d ∈ cs.head? ∨ Plain p d := by
  cases h with
  | nil => exact fun d hd => nomatch hd
  | keep c _ => exact fun d hd => .inl hd
  | raise _ hc _ =>
    intro d hd
    rw [List.head?_append_of_ne_nil _ (upper_ne_nil _)] at hd
    exact .inr (plain_of_mem_upper hp hc (List.mem_of_mem_head? hd))

theorem Raised.last (hp : Marks p) (h : Raised previous cs ds) :
    ∀ d ∈ ds.getLast?, d ∈ cs.getLast? ∨ Plain p d := by
  induction h with
  | nil => exact fun d hd => nomatch hd
  | @keep _ cs ds c hrest ih =>
    intro d hd
    rcases eq_or_ne ds [] with rfl | hne
    · rw [hrest.eq_nil]
      exact .inl hd
    · rw [← List.singleton_append, List.getLast?_append_of_ne_nil _ hne] at hd
      exact (ih d hd).imp_left List.mem_getLast?_cons
  | @raise _ c cs ds _ hc hrest ih =>
    intro d hd
    rcases eq_or_ne ds [] with rfl | hne
    · rw [List.append_nil] at hd
      exact .inr (plain_of_mem_upper hp hc (List.mem_of_getLast? hd))
    · rw [List.getLast?_append_of_ne_nil _ hne] at hd
      exact (ih d hd).imp_left List.mem_getLast?_cons

theorem Raised.mem (hp : Marks p) (h : Raised previous cs ds) :
    ∀ d ∈ ds, d ∈ cs ∨ Plain p d := by
  induction h with
  | nil => exact fun d hd => nomatch hd
  | keep c _ ih =>
    exact List.forall_mem_cons.mpr ⟨.inl List.mem_cons_self,
      fun d hd => (ih d hd).imp_left (List.mem_cons_of_mem c)⟩
  | raise _ hc _ ih =>
    exact List.forall_mem_append.mpr ⟨fun d hd => .inr (plain_of_mem_upper hp hc hd),
      fun d hd => (ih d hd).imp_left (List.mem_cons_of_mem _)⟩

theorem Raised.chain (hp : Marks p) (h : Raised previous cs ds)
    (hcs : cs.IsChain (MayMeet policy p)) : ds.IsChain (MayMeet policy p) := by
  induction h with
  | nil => exact .nil
  | keep c hrest ih =>
    obtain ⟨hnext, htail⟩ := List.isChain_cons.mp hcs
    apply (ih htail).cons
    intro d hd
    rcases hrest.head hp d hd with hmem | ⟨hletter, hplain⟩
    · exact hnext d hmem
    · exact .before_letter hletter hplain
  | @raise _ c _ _ _ hc _ ih =>
    have hupper : ∀ d ∈ upper c, isBlank d = false :=
      fun d hd => (plain_of_mem_upper hp hc hd).1
    refine List.isChain_append.mpr ⟨?_, ih hcs.tail, ?_⟩
    · exact (List.pairwise_of_forall_mem_list fun d hd e _ => .behind_letter (hupper d hd)).isChain
    · exact fun d hd e _ => .behind_letter (hupper d (List.mem_of_getLast? hd))

/-- Capitals leave a text orderly. -/
theorem Orderly.raised (hp : Marks p) (h : Orderly policy p cs) (hraised : Raised previous cs ds) :
    Orderly policy p ds where
  head := by
    intro d hd
    rcases hraised.head hp d hd with hmem | hplain
    · exact h.head d hmem
    · exact isSpace_of_letter hplain.1
  last := by
    intro d hd
    rcases hraised.last hp d hd with hmem | hplain
    · exact h.last d hmem
    · exact isSpace_of_letter hplain.1
  spaces := by
    intro d hd hcollapsed
    rcases hraised.mem hp d hd with hmem | hplain
    · exact h.spaces d hmem hcollapsed
    · rw [collapsed_of_letter hplain.1] at hcollapsed
      cases hcollapsed
  chain := hraised.chain hp h.chain

end Manuscript.Typeset
