import Manuscript.Proofs.Citation.Sorting
import Manuscript.Proofs.Compilation.Raised
import Manuscript.Proofs.Validation.Acceptance

/-!
# The bibliography of a document

The bibliography section lists the declared sources by their keys, one entry for each source. The
order of declaration counts within a key only: where all keys differ, a specification with its
sources in another order has the same document.

* `shelf_find_of_perm`: a shelf does not depend on the order of its works if their ids differ.
* `Specification.check_withSources`: a specification passes its check in whatever order its sources
  come.
* `process_withSources`: it has the same document then, if the keys of its sources differ.
* `process_lists`: what stands in the bibliography section of a document.
-/

namespace Manuscript

/-- A shelf does not depend on the order of its works if their ids differ. -/
theorem shelf_find_of_perm {works others : List Work} (hperm : others.Perm works)
    (hids : (works.filterMap Work.id).Nodup) (id : String) :
    (Shelf.ofWorks others).find? id = (Shelf.ofWorks works).find? id := by
  cases hfind : (Shelf.ofWorks works).find? id with
  | none =>
    cases hother : (Shelf.ofWorks others).find? id with
    | none => rfl
    | some w =>
      obtain ⟨hw, hid⟩ := of_find hother
      obtain ⟨v, hv⟩ := find_of_mem (hperm.subset hw) hid
      rw [hfind] at hv
      cases hv
  | some w =>
    obtain ⟨hw, hid⟩ := of_find hfind
    obtain ⟨v, hv⟩ := find_of_mem (hperm.symm.subset hw) hid
    obtain ⟨hvmem, hvid⟩ := of_find hv
    have hvw : v = w := eq_of_nodup_filterMap hids (hperm.subset hvmem) hw hvid hid
    rw [hv, hvw]

/-- Works have the ids of their sources. -/
theorem ids_of_sources {sources : List Source} {works : List Work}
    (h : List.Forall₂ (fun s w => Work.ofSource s = .ok w) sources works) :
    works.filterMap Work.id = sources.filterMap Source.citedAs := by
  induction h with
  | nil => rfl
  | cons hwork _ ih => rw [List.filterMap_cons, List.filterMap_cons, id_ofSource hwork, ih]

/-- Works have the keys of their sources, and so have their entries. -/
theorem keys_of_sources (g : Guide) {sources : List Source} {works : List Work}
    (h : List.Forall₂ (fun s w => Work.ofSource s = .ok w) sources works) :
    (works.map (Entry.ofWork g)).map Entry.sortKey = sources.map Source.listingKey := by
  induction h with
  | nil => rfl
  | cons hwork _ ih =>
    rw [List.map_cons, List.map_cons, List.map_cons, ih, ← sortKey_ofSource hwork]
    rfl

/-! ## Sources in another order -/

/-- A bibliography passes its check in whatever order its sources come. -/
theorem Bibliography.check_of_perm {b : Bibliography} {sources : List Source}
    (hperm : sources.Perm b.sources) (h : b.check = .ok ()) :
    Bibliography.check { b with sources } = .ok () := by
  rw [Bibliography.check_ok_iff] at h ⊢
  constructor
  · exact fun s hs => h.sources s (hperm.subset hs)
  · exact (hperm.filterMap _).nodup_iff.mpr h.ids

namespace Specification

/-- The specification with other sources in its bibliography. -/
def withSources (spec : Specification) (sources : List Source) : Specification :=
  { spec with bibliography := spec.bibliography.map fun b => { b with sources } }

variable {spec : Specification} {sources : List Source}

theorem sources_withSources (hperm : sources.Perm spec.sources) :
    (spec.withSources sources).sources = sources := by
  unfold Specification.sources withSources at *
  cases hb : spec.bibliography with
  | none =>
    -- without a bibliography there is nothing to put in another order
    rw [hb] at hperm
    exact hperm.eq_nil.symm
  | some b => rfl

/-- A specification passes its check in whatever order its sources come. -/
theorem check_withSources (hperm : sources.Perm spec.sources) (h : spec.check = .ok ()) :
    (spec.withSources sources).check = .ok () := by
  have hpassed := passed_of_check h
  have hbibliography : checkBlock Bibliography.check (spec.withSources sources).bibliography
      = .ok () := by
    unfold withSources
    unfold Specification.sources at hperm
    cases hb : spec.bibliography with
    | none => rfl
    | some b =>
      rw [hb] at hperm
      exact Bibliography.check_of_perm hperm (of_checkBlock hpassed.bibliography b hb)
  have hcitations : (spec.withSources sources).checkCitations = .ok () := by
    rw [checkCitations_ok_iff]
    intro sentence hsentence l hl
    obtain ⟨b, hb, source, hsource, id, hid, hcited⟩ :=
      checkCitations_ok_iff.mp hpassed.citations sentence hsentence l hl
    have hmem : source ∈ spec.sources := by
      unfold Specification.sources
      rw [hb]
      exact hsource
    refine ⟨{ b with sources }, ?_, source, hperm.symm.subset hmem, id, hid, hcited⟩
    unfold withSources
    rw [hb]
    rfl
  exact check_of_passed
    ⟨hpassed.version, hpassed.title, hpassed.authors, hpassed.assessors, hpassed.publication,
      hpassed.style, hpassed.body, hbibliography, hpassed.venue, hcitations⟩

end Specification

namespace Plan

/-- Plans that build every section alike build all sections alike. -/
theorem sections_congr {plan other : Plan} (h : other.build = plan.build) :
    other.sections = plan.sections := by
  funext supply kinds
  induction kinds generalizing supply with
  | nil => rfl
  | cons kind rest ih =>
    unfold sections
    rw [h]
    dsimp only
    rw [ih]

end Plan

namespace Compiler

variable {c : Compiler} {spec : Specification} {p : Preparation} {doc : Document}
  {warnings : List Warning} {sources : List Source}

/-- The works of a specification, source by source. -/
theorem works_of_prepare (h : c.prepare spec = .ok p) :
    List.Forall₂ (fun s w => Work.ofSource s = .ok w) spec.sources p.works :=
  mapM_ok_iff.mp (worksOf_of_prepare h)

/-- With its sources in another order, a specification is prepared with their works in that order.
-/
theorem prepare_withSources (hperm : sources.Perm spec.sources) (h : c.prepare spec = .ok p) :
    ∃ works : List Work, works.Perm p.works
      ∧ c.prepare (spec.withSources sources) = .ok { p with works } := by
  -- the works follow their sources into the other order
  obtain ⟨works, hworks, hpermWorks⟩ := List.perm_comp_forall₂ hperm (works_of_prepare h)
  refine ⟨works, hpermWorks, ?_⟩
  have hread : worksOf (spec.withSources sources) = .ok works := by
    show (spec.withSources sources).sources.mapM Work.ofSource = _
    rw [Specification.sources_withSources hperm]
    exact mapM_ok_iff.mpr hworks
  unfold prepare at h ⊢
  obtain ⟨type, htype, h⟩ := of_bind_ok h
  obtain ⟨sheet, hsheet, h⟩ := of_bind_ok h
  obtain ⟨_, -, h⟩ := of_bind_ok h
  obtain ⟨date, hdate, h⟩ := of_bind_ok h
  cases h
  -- nothing else that is read in front of the document depends on the sources
  have htype' : Sheet.orInvalid (spec.withSources sources).readDocumentType = .ok type := htype
  have hsheet' : Sheet.resolve (spec.withSources sources).style c.defaultStyle type c.guides
      = .ok sheet := hsheet
  have hdate' : Sheet.orInvalid (c.dateOf (spec.withSources sources)) = .ok date := hdate
  rw [htype']
  show (Sheet.resolve (spec.withSources sources).style c.defaultStyle type c.guides >>= _) = _
  rw [hsheet', hread]
  show (Sheet.orInvalid (c.dateOf (spec.withSources sources)) >>= _) = _
  rw [hdate']
  rfl

/-- The content is set alike on a shelf with the works in another order. -/
theorem contentOf_withSources (hcheck : spec.check = .ok ()) (h : c.prepare spec = .ok p)
    {works : List Work} (hperm : works.Perm p.works) :
    contentOf (spec.withSources sources) { p with works } = contentOf spec p := by
  have hids : (p.works.filterMap Work.id).Nodup := by
    rw [ids_of_sources (works_of_prepare h)]
    exact Specification.nodup_citedAs hcheck
  have hagrees : (settingOf spec p).Agrees
      (settingOf (spec.withSources sources) { p with works }) :=
    ⟨rfl, shelf_find_of_perm hperm hids⟩
  exact hagrees.setElements_eq rfl 0 spec.body.elements

/-- What there is material for does not depend on the order of the sources. -/
theorem materialOf_withSources (spec : Specification) (sources : List Source)
    (content : SetContent) {works others : List Work} (hperm : others.Perm works) :
    materialOf (spec.withSources sources) content others = materialOf spec content works := by
  unfold materialOf
  rw [hperm.isEmpty_eq]
  rfl

/-- A document is put together from the sorted entries, whatever order they were in. -/
theorem assemble_withSources (h : c.prepare spec = .ok p)
    (hkeys : (spec.sources.map Source.listingKey).Nodup) {works : List Work}
    (hperm : works.Perm p.works) (content : SetContent) (parts : List Part) :
    assemble (spec.withSources sources) { p with works } content parts
      = assemble spec p content parts := by
  have hbuild : (planOf (spec.withSources sources) { p with works } parts).build
      = (planOf spec p parts).build := by
    funext supply kind
    cases kind with
    | body => rfl
    | part part => cases part <;> rfl
  have hentries : Entry.sort (works.map (Entry.ofWork p.sheet.citation))
      = Entry.sort (p.works.map (Entry.ofWork p.sheet.citation)) := by
    apply Entry.sort_eq_of_perm (hperm.map _)
    rw [keys_of_sources _ (works_of_prepare h)]
    exact hkeys
  have hsupply : supplyOf { p with works } content = supplyOf p content := by
    unfold supplyOf
    dsimp only
    rw [hentries]
  have hsections : (assemble (spec.withSources sources) { p with works } content parts).sections
      = (assemble spec p content parts).sections := by
    rw [sections_assemble, sections_assemble, Plan.sections_congr hbuild, hsupply]
  exact congrArg (fun sections => { assemble spec p content parts with sections }) hsections

/-- Where all keys differ, the document does not depend on the order of the sources. -/
theorem process_withSources (h : c.process spec = (.ok doc, warnings))
    (hperm : sources.Perm spec.sources) (hkeys : (spec.sources.map Source.listingKey).Nodup) :
    ∃ others, c.process (spec.withSources sources) = (.ok doc, others) := by
  obtain ⟨p, hp⟩ := processed_of_ok h
  obtain ⟨works, hworks, hprepare⟩ := prepare_withSources hperm hp.prepare
  have hgate : gate (spec.withSources sources) = .ok () := by
    have hchecks : (spec.withSources sources).check = spec.check := by
      rw [Specification.check_withSources hperm hp.check, hp.check]
    have hgates : gate (spec.withSources sources) = gate spec := by
      unfold gate
      rw [hchecks]
      rfl
    rw [hgates, gate_of_ok spec h]
  have hcontent : contentOf (spec.withSources sources) { p with works } = contentOf spec p :=
    contentOf_withSources hp.check hp.prepare hworks
  have hparts : partsFor (spec.withSources sources) { p with works } = partsFor spec p := by
    unfold partsFor
    rw [hcontent, materialOf_withSources spec sources _ hworks]
  have horder := hp.order
  rw [process_of_prepare _ hgate hprepare, hcontent, hparts, horder,
    assemble_withSources hp.prepare hkeys hworks, hp.document]
  exact ⟨_, rfl⟩

end Compiler

/-! ## The section -/

/-- The entry of a source in the form of a guide, under the key of the source. -/
structure Source.ListedAs (g : Guide) (s : Source) (e : Entry) : Prop where
  work : ∃ w, Work.ofSource s = .ok w ∧ e = Entry.ofWork g w
  key : e.sortKey = s.listingKey

namespace Compiler

variable {c : Compiler} {spec : Specification} {p : Preparation} {doc : Document}
  {warnings : List Warning}

/-- Every source has one entry, in its place. -/
theorem listed_of_prepare (h : c.prepare spec = .ok p) :
    List.Forall₂ (Source.ListedAs p.sheet.citation) spec.sources
      (p.works.map (Entry.ofWork p.sheet.citation)) := by
  rw [List.forall₂_map_right_iff]
  exact (works_of_prepare h).imp fun s w hwork => ⟨⟨w, hwork, rfl⟩, sortKey_ofSource hwork⟩

/-- The bibliography section of a document is one list of entries, one for each source, sorted by
their keys and within a key as they were declared. A specification whose sources have different
keys has the same document in whatever order they are declared. -/
theorem process_lists (h : c.process spec = (.ok doc, warnings))
    (hpart : .part .bibliography ∈ doc.outline) :
    (∃ p declared entries, c.prepare spec = .ok p
      ∧ List.Forall₂ (Source.ListedAs p.sheet.citation) spec.sources declared
      ∧ Entry.Sorted declared entries
      ∧ doc.blocksOf (.part .bibliography) = [entries.map .entry])
    ∧ ∀ sources, sources.Perm spec.sources → (spec.sources.map Source.listingKey).Nodup →
      ∃ others, c.process (spec.withSources sources) = (.ok doc, others) := by
  obtain ⟨p, hp⟩ := processed_of_ok h
  constructor
  · rw [hp.document, outline_assemble] at hpart
    have honce : (outlineOf (partsFor spec p)).count (.part .bibliography) ≤ 1 := by
      rw [count_outlineOf]
      exact (once_partsFor hp.check hp.prepare).count_le (by decide)
    refine ⟨p, _, _, hp.prepare, listed_of_prepare hp.prepare, Entry.sorted_sort _, ?_⟩
    rw [hp.document, blocksOf_assemble _ _ _ _ (by decide) hpart honce]
    rfl
  · intro sources hperm hkeys
    exact process_withSources h hperm hkeys

/-- The annotated essay with more sources: two by one author, the later title first, and one without
an author. -/
def wellReadEssay : Specification :=
  let text (line column : Nat) (value : String) : Literal := ⟨value, ⟨line, column⟩⟩
  let book (line : Nat) (authors : List String) (title : String) : Source :=
    { kind := .book, position := ⟨line, 5⟩, title := some (text line 11 title)
      authors := authors.map (text line 20), publisher := some (text line 30 "Murray") }
  { annotatedEssay with
    bibliography := some
      ⟨[book 10 ["Charles Darwin"] "Worms", book 11 [] "Moss",
        { book 12 ["Charles Darwin"] "Orchids" with id := some (text 12 40 "r") }],
        some ⟨9, 1⟩⟩ }

/-- The sources of the essay have different keys; its document is the same when they are declared
from the last to the first. -/
theorem process_lists_wellReadEssay : ∃ doc warnings,
    process { today := ⟨2024, 1, 1⟩ } wellReadEssay = (.ok doc, warnings)
      ∧ .part .bibliography ∈ doc.outline
      ∧ (∃ p declared entries, prepare { today := ⟨2024, 1, 1⟩ } wellReadEssay = .ok p
        ∧ List.Forall₂ (Source.ListedAs p.sheet.citation) wellReadEssay.sources declared
        ∧ Entry.Sorted declared entries
        ∧ doc.blocksOf (.part .bibliography) = [entries.map .entry])
      ∧ (wellReadEssay.sources.map Source.listingKey).Nodup
      ∧ ∃ others, process { today := ⟨2024, 1, 1⟩ }
          (wellReadEssay.withSources wellReadEssay.sources.reverse) = (.ok doc, others) := by
  have hlists : ((process { today := ⟨2024, 1, 1⟩ } wellReadEssay).1.toOption.any fun doc =>
      doc.outline.contains (.part .bibliography)) = true := by decide +kernel
  have hkeys : (wellReadEssay.sources.map Source.listingKey).Nodup := by decide +kernel
  cases h : process { today := ⟨2024, 1, 1⟩ } wellReadEssay with
  | mk outcome warnings =>
    rw [h] at hlists
    cases outcome with
    | error e => cases hlists
    | ok doc =>
      have hpart : .part .bibliography ∈ doc.outline := List.contains_iff_mem.mp hlists
      obtain ⟨hsection, horders⟩ := process_lists h hpart
      exact ⟨doc, warnings, rfl, hpart, hsection, hkeys, horders _ (List.reverse_perm _) hkeys⟩

end Compiler

end Manuscript
