import Manuscript.Proofs.Canonical.ReadSections
import Manuscript.Proofs.Grammar.Conservation
import Manuscript.Proofs.Reordering.Content

/-!
# Reordered sections

Every section is read again from another form of it, and sections that change places are read as the
same declarations.
-/

namespace Manuscript

open Canonical

namespace Grammar

open Production

variable {α β : Type} {m m' : Passage}

/-! ## One section -/

/-- Declarations are the same up to positions. -/
def SameDeclaration (d d' : Declaration) : Prop := d'.unplaced = d.unplaced

/-- A section is read again, and the version if it is the first one. -/
theorem rereads_sectionBody {first first' : Bool} {k : Keyword} {t t' : Token}
    (hk : m.keyword? = some k) (hm : m.Rearranged m') (hat : m.At 0) (ht : t.indent = 0)
    (ht' : t'.indent = 0) (hv : k = .version → first' = true) :
    RereadsPassage (sectionBody first k t) (sectionBody first' k t') m m' SameDeclaration := by
  have hline : RereadsPassage lineEnd lineEnd m m fun _ _ => True :=
    rereadsLine_lineEnd.passage (.refl m)
  have htext (expected : String) :
      RereadsPassage (literalLine expected) (literalLine expected) m m SameText :=
    (rereadsLine_literalLine expected).passage (.refl m)
  have hcontent (kind : ContentKind) :
      RereadsPassage (contentSection kind t) (contentSection kind t') m m
        fun b b' => b'.unplaced = b.unplaced := rereads_contentSection kind hat ht ht'
  have hblock (b b' : ContentBlock) (h : b'.unplaced = b.unplaced) :
      SameDeclaration (.element (.content b)) (.element (.content b')) :=
    congrArg (fun b => Declaration.element (.content b)) h
  unfold Passage.Rearranged at hm
  rw [hk] at hm
  cases k with
  | version =>
    obtain rfl : m' = m := hm
    cases first with
    | false => exact .fail
    | true =>
      rw [hv rfl]
      exact (htext _).map fun _ _ h => congrArg Declaration.version h
  | type =>
    obtain rfl : m' = m := hm
    exact (htext _).map fun _ _ h => congrArg Declaration.documentType h
  | title =>
    obtain rfl : m' = m := hm
    exact (rereads_titleSection hat ht ht').map fun _ _ h =>
      congrArg (Declaration.title · .origin) h
  | author =>
    exact (rereads_peopleSection hm hat ht ht').map fun _ _ h =>
      congrArg (Declaration.authors · .origin) h
  | assessor =>
    exact (rereads_peopleSection hm hat ht ht').map fun _ _ h =>
      congrArg (Declaration.assessors · .origin) h
  | publication =>
    exact (rereads_publicationSection hm hat ht ht').map fun _ _ h =>
      congrArg Declaration.publication h
  | style =>
    exact (rereads_styleSection hm hat ht ht').map fun _ _ h => congrArg Declaration.style h
  | chapter =>
    obtain rfl : m' = m := hm
    exact (htext _).map fun _ _ h => congrArg (fun l => Declaration.element (.chapter l)) h
  | paragraph =>
    obtain rfl : m' = m := hm
    exact (hcontent _).map hblock
  | abstract =>
    obtain rfl : m' = m := hm
    exact (hcontent _).map hblock
  | preface =>
    obtain rfl : m' = m := hm
    exact (hcontent _).map hblock
  | acknowledgements =>
    obtain rfl : m' = m := hm
    exact (hcontent _).map hblock
  | appendix =>
    obtain rfl : m' = m := hm
    exact (hcontent _).map hblock
  | bibliography =>
    exact (rereads_bibliographySection hm hat ht ht').map fun _ _ h =>
      congrArg (Declaration.bibliography · .origin) h
  | header =>
    obtain rfl : m' = m := hm
    exact hline.map fun _ _ _ => rfl
  | blank =>
    obtain rfl : m' = m := hm
    exact hline.map fun _ _ _ => rfl
  | image =>
    exact (rereads_imageSection hm hat ht ht').map fun _ _ h =>
      congrArg (fun i => Declaration.element (.image i)) h
  | _ => exact .fail

/-! ## Every section -/

/-- The tokens of a section: its first, and those behind it. -/
def sectionTokens (m : Passage) : Token × List Token := (m.line.first, m.behind)

theorem tokensOf_eq (ms : List Passage) :
    Passage.tokensOf ms = (ms.map sectionTokens).flatMap fun x => x.1 :: x.2 := by
  induction ms with
  | nil => rfl
  | cons m ms ih =>
    rw [Passage.tokensOf, Passage.tokens_eq, ih]
    rfl

/-- The tokens of a section are read as a declaration, wherever it may stand. -/
def Declares (m : Passage) (d : Declaration) : Prop := DeclaresAs (sectionTokens m) d

/-- A section that was read begins with its keyword at depth 0. It declares something else than the
sections before it, or may stand more than once; and if it is the version, it is the first. -/
theorem of_run_sectionFrom {seen : List Keyword} {first : Bool} {t : Token} {d : Declaration}
    {ts us : List Token} {b b' : Bool} {q q' : Position}
    (hr : (sectionFrom seen first t).run (.before ts b q) = (.ok d, .before us b' q')) :
    sectionKeyword? t = some d.keyword ∧ (d.keyword.isRepeatable = true ∨ d.keyword ∉ seen)
      ∧ (d.keyword = .version → first = true)
      ∧ (sectionBody first d.keyword t).run (.before ts b q) = (.ok d, .before us b' q') := by
  have hbooks : Books False (0 + texts [t]) _ (fun d : Declaration => 0 + ↑d.literals) _ :=
    books_sectionFrom seen first t
  obtain ⟨-, hkey, hnew, -⟩ := hbooks ts b q d us b' q' nofun hr
  have hbody : (sectionBody first d.keyword t).run (.before ts b q)
      = (.ok d, .before us b' q') := by
    unfold sectionFrom at hr
    rw [hkey] at hr
    dsimp only at hr
    split_ifs at hr
    · cases hr
    · exact hr
  refine ⟨hkey, hnew, fun hv => ?_, hbody⟩
  rw [hv] at hbody
  cases first with
  | false => cases hbody
  | true => rfl

/-- An error that was found is not forgotten. -/
theorem errors_of_run {progress progress' : Progress} {ts us : List Token} {b b' : Bool}
    {q q' : Position}
    (hr : (repeatWhile progress (fun _ _ => true) step).run (.before ts b q)
      = (.ok progress', .before us b' q')) (hok : progress'.errors = []) :
    progress.errors = [] := by
  let motive (progress' : Progress) (_ : List Token) : Prop :=
    progress'.errors = [] → progress.errors = []
  have hstep : ∀ s t ts s' us b q, motive s (t :: ts) → (true = true) →
      (step s t).run (.before ts t.isLineEnd t.position) = (.ok s', .before us b q) →
        motive s' us :=
    fun s t ts s' us b q hm _ hr hok => hm (of_run_step hr hok).1
  exact (of_run_repeatWhile hstep id hr).1 hok

/-- No section begins with an increase of indentation. -/
theorem not_isIndent_of_run {progress progress' : Progress} {ts us : List Token} {b b' : Bool}
    {q q' : Position}
    (hr : (repeatWhile progress (fun _ _ => true) step).run (.before ts b q)
      = (.ok progress', .before us b' q')) (hok : progress'.errors = []) :
    ∀ t ∈ ts.head?, t.isIndent = false := by
  intro t ht
  obtain ⟨vs, rfl⟩ : ∃ vs, ts = t :: vs := ⟨_, List.eq_cons_of_mem_head? ht⟩
  obtain ⟨progress₁, ws, b₁, q₁, hstep, hrest⟩ := of_run_repeatWhile_cons rfl hr
  obtain ⟨-, d, hsection, -⟩ := of_run_step hstep (errors_of_run hrest hok)
  obtain ⟨hkey, -⟩ := of_run_sectionFrom hsection
  exact Token.not_isIndent_of_keyword (Option.filter_eq_some_iff.mp hkey).1

theorem sectionKeyword_same {t t' : Token} (h : t'.unplaced = t.unplaced) :
    sectionKeyword? t' = sectionKeyword? t := by
  unfold sectionKeyword?
  rw [keyword_eq h, (eq_of_unplaced h).2.2]

/-- What a section that was read declares, another form of it declares wherever it stands. -/
theorem declaresAs_of_run {seen : List Keyword} {first : Bool} {t : Token} {d : Declaration}
    {ts rest us : List Token} {b b' : Bool} {q q' : Position} (hm : m.Rearranged m') (hat : m.At 0)
    (ht : t.unplaced = m.line.first) (hts : ts.map Token.unplaced = m.behind)
    (hrest : Follows 0 rest)
    (hr : (sectionFrom seen first t).run (.before (ts ++ rest) b q) = (.ok d, .before us b' q'))
    (hus : ∀ t ∈ us.head?, t.isIndent = false) :
    us = rest ∧ Declares m' d := by
  obtain ⟨hkey, -, -, hbody⟩ := of_run_sectionFrom hr
  have hword : m.keyword? = some d.keyword := by
    unfold Passage.keyword?
    rw [← ht]
    exact (Option.filter_eq_some_iff.mp hkey).1
  have hagain (first' : Bool) (t' : Token) (ht' : t'.unplaced = m.line.first)
      (hv : d.keyword = .version → first' = true) :=
    rereads_sectionBody hword hm hat (hat.indent_eq ht) (hat.indent_eq ht') hv ts rest b q d us b'
      q' hts (hat.depth_eq ▸ hrest) hbody hus
  rw [hat.depth_eq] at hagain
  refine ⟨(hagain true t ht fun _ => rfl).1, fun t' ht' => ?_, fun first' t' ht' hv => ?_⟩
  · have ht' : t'.unplaced = m.line.first := ht'.trans (congrArg SourceLine.first hm.line_eq)
    rw [sectionKeyword_same (unplaced_trans ht ht'), hkey]
  · exact (hagain first' t' (ht'.trans (congrArg SourceLine.first hm.line_eq)) hv).2

/-- Declarations that may stand behind those that were read. -/
structure Admitted (progress : Progress) (ds : List Declaration) : Prop where
  order : (ds.map Declaration.keyword).Pairwise MayFollow
  unseen : ∀ d ∈ ds, d.keyword.isRepeatable = true ∨ d.keyword ∉ progress.seen
  late : progress.declarations ≠ [] → ∀ d ∈ ds, d.keyword ≠ .version

/-- Sections of which none is broken are read as declarations that may stand in their order, and
other forms of them as the same declarations. -/
theorem of_run_sections {F G : List Passage} (hFG : List.Forall₂ Passage.Rearranged F G)
    (hat : ∀ m ∈ F, m.At 0) {progress progress' : Progress} {ts us : List Token} {b b' : Bool}
    {q q' : Position} (hts : ts.map Token.unplaced = Passage.tokensOf F)
    (hr : (repeatWhile progress (fun _ _ => true) step).run (.before ts b q)
      = (.ok progress', .before us b' q')) (hok : progress'.errors = []) :
    ∃ ds, List.Forall₂ Declares G ds
      ∧ progress'.declarations = progress.declarations ++ ds ∧ Admitted progress ds := by
  induction hFG generalizing progress ts b q with
  | nil =>
    obtain rfl := List.map_eq_nil_iff.mp hts
    rw [run_repeatWhile_nil] at hr
    cases hr
    exact ⟨[], .nil, (List.append_nil _).symm, .nil, by simp, by simp⟩
  | @cons m m' F G hm _ ih =>
    rw [Passage.tokensOf, Passage.tokens_eq, List.cons_append] at hts
    obtain ⟨t, _, rfl, ht, hts⟩ := List.map_eq_cons_iff.mp hts
    obtain ⟨vs, ws, rfl, hvs, hws⟩ := List.map_eq_append_iff.mp hts
    obtain ⟨progress₁, us₁, b₁, q₁, hstep, hrest⟩ := of_run_repeatWhile_cons rfl hr
    obtain ⟨-, d, hsection, hdeclarations, hseen⟩ := of_run_step hstep (errors_of_run hrest hok)
    obtain ⟨hkey, hnew, hversion, -⟩ := of_run_sectionFrom hsection
    have hF : ∀ x ∈ F, x.At 0 := fun x hx => hat x (List.mem_cons_of_mem m hx)
    have hfollow : Follows 0 ws := by
      have hnone : Follows 0 ([] : List Token) := nofun
      rw [← List.append_nil ws]
      exact follows_members hF hws hnone
    obtain ⟨rfl, hd⟩ := declaresAs_of_run hm (hat m List.mem_cons_self) ht hvs hfollow hsection
      (not_isIndent_of_run hrest hok)
    obtain ⟨ds, hds, heq, hadmitted⟩ := ih hF hws hrest
    have hunseen := hadmitted.unseen
    rw [hseen] at hunseen
    have hlate := hadmitted.late (by simp [hdeclarations])
    refine ⟨d :: ds, .cons hd hds, ?_, ?_, ?_, ?_⟩
    · rw [heq, hdeclarations, List.append_assoc]
      rfl
    · refine List.pairwise_cons.mpr ⟨fun k hk => ?_, hadmitted.order⟩
      obtain ⟨e, he, rfl⟩ := List.mem_map.mp hk
      refine ⟨hlate e he, ?_⟩
      by_contra hno
      rw [not_or, not_not] at hno
      -- the first of the two would have been remembered
      have hsingle : d.keyword.isRepeatable = false := by
        rw [← hno.2]
        simpa using hno.1
      rcases hunseen e he with hrep | hnot
      · exact hno.1 hrep
      · exact hnot (hno.2 ▸ mem_seenAfter hkey hsingle)
    · refine List.forall_mem_cons.mpr ⟨hnew, fun e he => ?_⟩
      exact (hunseen e he).imp_right fun hnot hmem =>
        hnot (subset_seenAfter progress.seen t hmem)
    · intro hne
      refine List.forall_mem_cons.mpr ⟨fun hv => ?_, hlate⟩
      have hempty := hversion hv
      rw [List.isEmpty_iff] at hempty
      exact hne hempty

end Grammar

end Manuscript
