import Mathlib.Data.List.Forall2
import Manuscript.Grammar.Parse
import Manuscript.Proofs.Canonical.ReadContent
import Manuscript.Proofs.Canonical.ReadSettings

/-!
# Reading printed sections

Every section of the canonical form is read as what it was printed from, and all sections are read
one after the other.

* `reads_sectionBody`: the same for one section of any keyword.
* `reads_sections`: sections that are known one by one are read if they may stand in their order.
* `reads_declarationTrees`: the same for the sections of the canonical form.
-/

namespace Manuscript

/-- A section that the canonical form may have: people stand in a section each. -/
def Declaration.Single : Declaration → Prop
  | .authors members _ | .assessors members _ => ∃ p, members = [p]
  | _ => True

namespace Grammar

open Canonical Production

variable {α : Type} {f : List Token → Prop}

/-! ## One section -/

theorem first_declarationTree {d : Declaration} (hd : d.Grammatical) :
    (declarationTree d).first = .word d.keyword := by
  cases d with
  | element e => cases e <;> rfl
  | _ => rfl

/-- A section that declares one element of the content. -/
theorem reads_element (first : Bool) {e : Element} (he : e.Grammatical) {t : Token}
    (ht : t.indent = 0) :
    Reads (sectionBody first e.keyword t) ((elementTree e).behind 0) (Follows 0)
      fun d => d.unplaced = (Declaration.element e).unplaced := by
  cases e with
  | chapter heading =>
    refine Reads.map (reads_literalLine _ heading) fun l hl => ?_
    exact congrArg (fun l => Declaration.element (.chapter l)) hl
  | header p => exact Reads.map reads_lineEnd fun _ _ => rfl
  | blank p => exact Reads.map reads_lineEnd fun _ _ => rfl
  | image i =>
    refine Reads.map (reads_imageSection ht he) fun i' hi' => ?_
    exact congrArg (fun i => Declaration.element (.image i)) hi'
  | content b =>
    have hb := reads_contentSection ht he
    have hgood (b' : ContentBlock) (hb' : b'.unplaced = b.unplaced) :
        (Declaration.element (.content b')).unplaced
          = (Declaration.element (.content b)).unplaced :=
      congrArg (fun b => Declaration.element (.content b)) hb'
    obtain ⟨kind, sentences, p⟩ := b
    cases kind with
    | paragraph => exact Reads.map hb hgood
    | abstract => exact Reads.map hb hgood
    | preface => exact Reads.map hb hgood
    | acknowledgements => exact Reads.map hb hgood
    | appendix => exact Reads.map hb hgood

/-- A section of one person is a block of the person's fields. -/
theorem behind_person (k : Keyword) (a : Person) :
    (blockTree k ([a].flatMap fun p => (Fielded.declared p).map fieldTree)).behind 0
      = lineEndAt 0 :: blockTokens 1 ((Fielded.declared a).map fieldTree) := by
  rw [List.flatMap_singleton]
  rfl

/-- A section is read behind its keyword. -/
theorem reads_sectionBody {first : Bool} {d : Declaration} (hd : d.Grammatical) (hs : d.Single)
    (hv : d.keyword = .version → first = true) {t : Token} (ht : t.indent = 0) :
    Reads (sectionBody first d.keyword t) ((declarationTree d).behind 0) (Follows 0)
      fun d' => d'.unplaced = d.unplaced := by
  cases d with
  | version text =>
    obtain rfl : first = true := hv rfl
    exact Reads.map (reads_literalLine _ text) fun l hl => congrArg Declaration.version hl
  | documentType text =>
    exact Reads.map (reads_literalLine _ text) fun l hl => congrArg Declaration.documentType hl
  | title fragments p =>
    exact Reads.map (reads_titleSection t hd) fun xs hxs =>
      congrArg (Declaration.title · .origin) hxs
  | authors members p =>
    obtain ⟨a, rfl⟩ := hs
    have ha : Fielded.declared a ≠ [] := hd.2 a (by simp)
    rw [show (declarationTree (.authors [a] p)).behind 0 = _ from behind_person .author a]
    exact Reads.map (reads_peopleSection ht ha) fun as has =>
      congrArg (Declaration.authors · .origin) has
  | assessors members p =>
    obtain ⟨a, rfl⟩ := hs
    have ha : Fielded.declared a ≠ [] := hd.2 a (by simp)
    rw [show (declarationTree (.assessors [a] p)).behind 0 = _ from behind_person .assessor a]
    exact Reads.map (reads_peopleSection ht ha) fun as has =>
      congrArg (Declaration.assessors · .origin) has
  | publication a =>
    exact Reads.map (reads_publicationSection ht hd) fun a' ha' =>
      congrArg Declaration.publication ha'
  | style s =>
    exact Reads.map (reads_styleSection ht hd) fun s' hs' => congrArg Declaration.style hs'
  | element e => exact reads_element first hd ht
  | bibliography sources p =>
    exact Reads.map (reads_bibliographySection ht hd.1 hd.2) fun ss hss =>
      congrArg (Declaration.bibliography · .origin) hss

theorem opensSection_keyword (d : Declaration) : d.keyword.opensSection = true := by
  cases d with
  | element e =>
    cases e with
    | content b =>
      obtain ⟨kind, _, _⟩ := b
      cases kind <;> rfl
    | _ => rfl
  | _ => rfl

theorem sectionKeyword_eq {d : Declaration} (hd : d.Grammatical) {t : Token}
    (ht : t.unplaced = (declarationTree d).first.token 0) : sectionKeyword? t = some d.keyword := by
  rw [first_declarationTree hd] at ht
  obtain ⟨-, -, hindent⟩ := lexeme_of_unplaced ht
  unfold sectionKeyword?
  rw [keyword_of_unplaced ht]
  simp [opensSection_keyword, hindent]

/-! ## Every section -/

/-- One section may stand behind another: it may stand more than once or is not the same, and it
does not declare the version. -/
def MayFollow (j k : Keyword) : Prop := k ≠ .version ∧ (k.isRepeatable = true ∨ k ≠ j)

/-- A token and the tokens behind it are read as a declaration, wherever the section may stand. -/
structure DeclaresAs (x : Token × List Token) (d : Declaration) : Prop where
  keyword : ∀ t : Token, t.unplaced = x.1 → sectionKeyword? t = some d.keyword
  body : ∀ (first : Bool) (t : Token), t.unplaced = x.1 →
    (d.keyword = .version → first = true) →
      Reads (sectionBody first d.keyword t) x.2 (Follows 0) fun d' => d'.unplaced = d.unplaced

/-- What was met is what is met by one more section, or was met before. -/
theorem of_mem_seenAfter {seen : List Keyword} {t : Token} {j k : Keyword}
    (ht : sectionKeyword? t = some k) (hj : j ∈ seenAfter seen t) : j ∈ seen ∨ j = k := by
  unfold seenAfter at hj
  rw [ht] at hj
  dsimp only at hj
  split_ifs at hj
  · exact .inl hj
  · exact (List.mem_cons.mp hj).symm

/-- A production that does not fail has an outcome. -/
theorem Reads.outcome {p : Production α} {es : List Token} {g : α → Prop} (hp : Reads p es f g) :
    Reads (outcome p) es f fun r => ∃ a, r = .ok a ∧ g a := by
  intro ts rest b q hts hrest
  obtain ⟨a, b', q', ha, hg⟩ := hp ts rest b q hts hrest
  refine ⟨.ok a, b', q', ?_, a, rfl, hg⟩
  unfold Production.outcome run
  rw [ha]
  rfl

/-- What is known behind sections that were read as some declarations. -/
structure ReadAs (ds : List Declaration) (progress : Progress) : Prop where
  errors : progress.errors = []
  declarations : progress.declarations.map Declaration.unplaced = ds.map Declaration.unplaced
  seen : progress.seen ⊆ ds.map Declaration.keyword

/-- One more section is read. -/
theorem reads_step {known : List Declaration} {progress : Progress} (h : ReadAs known progress)
    {x : Token × List Token} {d : Declaration} (hd : DeclaresAs x d)
    (hk : ∀ e ∈ known, MayFollow e.keyword d.keyword) {t : Token} (ht : t.unplaced = x.1) :
    Reads (step progress t) x.2 (Follows 0) (ReadAs (known ++ [d])) := by
  have hkey := hd.keyword t ht
  -- a section that was met and may stand once is one of those before
  have hnew : ¬ (!d.keyword.isRepeatable && progress.seen.contains d.keyword) = true := by
    intro hboth
    rw [Bool.and_eq_true, List.contains_iff_mem] at hboth
    obtain ⟨e, he, hee⟩ := List.mem_map.mp (h.seen hboth.2)
    rcases (hk e he).2 with hr | hne
    · simp [hr] at hboth
    · exact hne hee.symm
  -- nothing stands in front of the version
  have hfirst : d.keyword = .version → progress.declarations.isEmpty = true := by
    intro hv
    have hknown : known = [] := by
      by_contra hne
      obtain ⟨e, es, rfl⟩ := List.exists_cons_of_ne_nil hne
      exact (hk e List.mem_cons_self).1 hv
    have hdeclarations := h.declarations
    rw [hknown] at hdeclarations
    simpa using hdeclarations
  have hbody : Reads (sectionFrom progress.seen progress.declarations.isEmpty t) x.2 (Follows 0)
      fun d' => d'.unplaced = d.unplaced := by
    unfold sectionFrom
    rw [hkey]
    show Reads (if _ then _ else _) _ _ _
    rw [if_neg hnew]
    exact hd.body _ t ht hfirst
  unfold step
  rw [← List.append_nil x.2]
  refine (Reads.outcome hbody).bind (fun ts rest hts hrest => ?_) ?_
  · rw [List.map_eq_nil_iff.mp hts]
    exact hrest
  · rintro _ ⟨d', rfl, hd'⟩
    refine .pure ⟨h.errors, ?_, fun j hj => ?_⟩
    · show (progress.declarations ++ [d']).map Declaration.unplaced = _
      rw [List.map_append, List.map_append, h.declarations, List.map_singleton, hd',
        List.map_singleton]
    · rw [List.map_append]
      rcases of_mem_seenAfter hkey hj with hj | rfl
      · exact List.mem_append_left _ (h.seen hj)
      · exact List.mem_append_right _ List.mem_cons_self

/-- A section stands at depth 0. -/
theorem DeclaresAs.plain {x : Token × List Token} {d : Declaration} (h : DeclaresAs x d) {t : Token}
    (ht : t.unplaced = x.1) : t.isIndent = false ∧ t.indent ≤ 0 := by
  obtain ⟨hword, hopens⟩ := Option.filter_eq_some_iff.mp (h.keyword t ht)
  rw [Bool.and_eq_true, beq_iff_eq] at hopens
  exact ⟨Token.not_isIndent_of_keyword hword, hopens.2.le⟩

/-- The sections of a source are read one after the other, if they may stand in their order. -/
theorem reads_sections {xs : List (Token × List Token)} {ds : List Declaration}
    (hd : List.Forall₂ DeclaresAs xs ds) (ho : (ds.map Declaration.keyword).Pairwise MayFollow) :
    Reads sections (xs.flatMap fun x => x.1 :: x.2) (· = []) (ReadAs ds) := by
  have hrest (known rest : List Declaration) (hds : ds = known ++ rest)
      (ys : List (Token × List Token)) (hys : List.Forall₂ DeclaresAs ys rest) (progress : Progress)
      (h : ReadAs known progress) : Reads (repeatWhile progress (fun _ _ => true) step)
      (ys.flatMap fun x => x.1 :: x.2) (· = []) (ReadAs ds) := by
    induction hys generalizing known progress with
    | nil =>
      refine .loop_nil (fun _ hnil t ht => ?_) ?_
      · rw [hnil] at ht
        cases ht
      · rw [hds, List.append_nil]
        exact h
    | @cons x d ys rest hx hys ih =>
      have hk : ∀ e ∈ known, MayFollow e.keyword d.keyword := by
        rw [hds, List.map_append, List.pairwise_append] at ho
        intro e he
        exact ho.2.2 e.keyword (List.mem_map_of_mem he) d.keyword (by simp)
      rw [List.flatMap_cons, List.cons_append]
      refine Reads.loop_cons (f := Follows 0) (fun _ _ => rfl) (fun t ht => reads_step h hx hk ht)
        (fun ts rest' hts hnil => ?_)
        fun progress' h' => ih (known ++ [d]) (by rw [hds, List.append_assoc]; rfl) progress' h'
      -- behind the section stands another one, or nothing
      rw [hnil, List.append_nil]
      cases hys with
      | nil =>
        rw [List.map_eq_nil_iff.mp hts]
        exact nofun
      | @cons y e _ _ hy =>
        rw [List.flatMap_cons, List.cons_append] at hts
        obtain ⟨u, us, rfl, hu, -⟩ := List.map_eq_cons_iff.mp hts
        rintro _ ⟨⟩
        exact hy.plain hu
  exact hrest [] ds rfl xs hd {} ⟨rfl, rfl, List.nil_subset _⟩

/-- A grammatical section is read as what it was printed from. -/
theorem declaresAs_declarationTree {d : Declaration} (hd : d.Grammatical) (hs : d.Single) :
    DeclaresAs ((declarationTree d).first.token 0, (declarationTree d).behind 0) d where
  keyword := fun _ ht => sectionKeyword_eq hd ht
  body := fun first t ht hfirst => by
    have hindent : t.indent = 0 := (lexeme_of_unplaced ht).2.2
    exact reads_sectionBody hd hs hfirst hindent

/-- The sections of the canonical form are read one after the other, if they may stand in their
order. -/
theorem reads_declarationTrees {ds : List Declaration} (hd : ∀ d ∈ ds, d.Grammatical ∧ d.Single)
    (ho : (ds.map Declaration.keyword).Pairwise MayFollow) :
    Reads sections ((ds.map declarationTree).flatMap (Tree.tokens 0)) (· = []) (ReadAs ds) := by
  have hforall : List.Forall₂ DeclaresAs
      (ds.map fun d => ((declarationTree d).first.token 0, (declarationTree d).behind 0)) ds :=
    List.forall₂_map_left_iff.mpr (List.forall₂_same.mpr fun d hmem =>
      declaresAs_declarationTree (hd d hmem).1 (hd d hmem).2)
  have htokens := reads_sections hforall ho
  rw [List.flatMap_map] at htokens ⊢
  simp only [Tree.tokens_eq]
  exact htokens

end Grammar

end Manuscript
