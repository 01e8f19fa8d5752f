import Manuscript.Proofs.Compilation.Building
import Manuscript.Proofs.Compilation.Setting

/-!
# No content is dropped silently

Content that was set goes into the only section that there is for it. Where the document has no such
section, a warning says so. Whether there is content is asked in three places: when the parts of a
document are chosen, when the warnings are raised, and when the sections are built; the answers
agree.

* `Body.hasContent_of_mem`: a body with a block of a kind has content of it.
* `mem_partFindings`: content without a section is warned about.
* `process_places`: what becomes of all content of a document.
-/

namespace Manuscript

/-! ## What there is content for -/

/-- A body with a block of a kind has content of it. -/
theorem Body.hasContent_of_mem {body : Body} {b : ContentBlock} {kind : ContentKind}
    (hmem : .content b ∈ body.elements) (hkind : b.kind = kind) :
    body.hasContent kind = true := by
  have hblock : b ∈ body.blocksOf kind :=
    List.mem_filter.mpr ⟨List.mem_filterMap.mpr ⟨_, hmem, rfl⟩, beq_iff_eq.mpr hkind⟩
  have hne : body.blocksOf kind ≠ [] := List.ne_nil_of_mem hblock
  unfold hasContent
  simpa using hne

/-! ## Warnings -/

/-- A warning of high severity, in these words, that something is missing. -/
structure Warning.Misses (w : Warning) (message : String) : Prop where
  kind : w.finding.kind = .missingMember
  severity : w.severity = .high
  message : w.finding.message = message

namespace Compiler

theorem mem_warnIf {b : Bool} (w : Warning) (h : b = true) : w ∈ warnIf b w := by
  unfold warnIf
  rw [if_pos h]
  exact List.mem_singleton_self w

variable {spec : Specification} {sheet : Sheet} {parts : List Part} {m : Material}

/-- Content without a section is warned about. -/
theorem mem_partFindings {part : Part} (hcontent : part ∈ contentParts)
    (hfills : m.fills part = true) (habsent : part ∉ parts) :
    ∃ w ∈ partFindings spec sheet parts m,
      w.Misses
        ("The document has " ++ part.name ++ " content but no " ++ part.name ++ " section") := by
  have hfound : (m.fills part && !parts.contains part) = true := by
    rw [hfills, List.contains_eq_mem, decide_eq_false habsent]
    rfl
  refine ⟨⟨.unplacedContent part, (spec.style.bind (·.parts)).map (·.position)⟩, ?_,
    rfl, rfl, rfl⟩
  apply List.mem_append_left
  apply List.mem_append_right
  exact List.mem_flatMap.mpr ⟨part, hcontent, mem_warnIf _ hfound⟩

/-- Sources without a bibliography are warned about. -/
theorem mem_partFindings_sources (hsources : m.hasSources = true)
    (habsent : .bibliography ∉ parts) :
    ∃ w ∈ partFindings spec sheet parts m,
      w.Misses "The document lists sources but has no bibliography section" := by
  have hfound : (m.hasSources && !parts.contains .bibliography) = true := by
    rw [hsources, List.contains_eq_mem, decide_eq_false habsent]
    rfl
  refine ⟨⟨.unplacedSources, spec.bibliography.bind (·.position)⟩, ?_, rfl, rfl, rfl⟩
  exact List.mem_append_right _ (mem_warnIf _ hfound)

end Compiler

/-! ## The place of content -/

/-- Blocks are placed completely and in order in the only section of a kind, or there is no such
section and a warning says so if there are blocks. -/
inductive Document.Accounts (doc : Document) (warnings : List Warning) (kind : SectionKind)
    (blocks : List Block) (message : String) : Prop where
  | placed (hblocks : doc.blocksOf kind = [blocks])
  | unplaced (habsent : ∀ s ∈ doc.sections, s.kind ≠ kind)
      (hwarned : blocks ≠ [] → ∃ w ∈ warnings, w.Misses message)

namespace Compiler

variable {c : Compiler} {spec : Specification} {p : Preparation} {doc : Document}
  {warnings : List Warning}

/-- A part of its own is placed if the outline has it, and has to be warned about if not. -/
theorem Processed.accounts (h : Processed c spec p doc warnings) {part : Part}
    (hblank : part ≠ .blankPage) (hcontents : part ≠ .tableOfContents) {blocks : List Block}
    (hblocks : ∀ parts, ((planOf spec p parts).build (supplyOf p (contentOf spec p))
      (.part part)).1.blocks = blocks) {message : String}
    (hwarned : part ∉ partsFor spec p → blocks ≠ [] → ∃ w ∈ warnings, w.Misses message) :
    doc.Accounts warnings (.part part) blocks message := by
  have honce : (outlineOf (partsFor spec p)).count (.part part) ≤ 1 := by
    rw [count_outlineOf]
    exact (once_partsFor h.check h.prepare).count_le hblank
  have hmem : .part part ∈ outlineOf (partsFor spec p) ↔ part ∈ partsFor spec p := by
    rw [← List.count_pos_iff, count_outlineOf, List.count_pos_iff]
  by_cases hpart : part ∈ partsFor spec p
  · apply Document.Accounts.placed
    rw [h.document, blocksOf_assemble _ _ _ _ (by simpa using hcontents) (hmem.mpr hpart) honce,
      hblocks]
  · apply Document.Accounts.unplaced
    · intro s hs hkind
      have hin : s.kind ∈ doc.outline := List.mem_map_of_mem hs
      rw [h.document, outline_assemble, hkind] at hin
      exact hpart (hmem.mp hin)
    · exact hwarned hpart

/-- The blocks of the body are the body. -/
theorem Processed.blocksOf_body (h : Processed c spec p doc warnings) :
    doc.blocksOf .body = [(contentOf spec p).body] := by
  have hmem : .body ∈ outlineOf (partsFor spec p) := by
    rw [← List.count_pos_iff, count_body_outlineOf]
    exact Nat.one_pos
  have honce := Nat.le_of_eq (count_body_outlineOf (partsFor spec p))
  rw [h.document, blocksOf_assemble _ _ _ _ (by simp) hmem honce]
  rfl

/-- The blocks that are declared for a part are placed in it, or missed by a warning. -/
theorem Processed.accounts_content (h : Processed c spec p doc warnings) {kind : ContentKind}
    {part : Part} (hpart : kind.part? = some part) :
    doc.Accounts warnings (.part part) ((contentOf spec p).blocksFor part)
      ("The document has " ++ part.name ++ " content but no " ++ part.name ++ " section") := by
  have hfills : (materialOf spec (contentOf spec p) p.works).fills part
      = spec.body.hasContent kind := by
    cases kind <;> cases hpart <;> rfl
  have hcontent : part ∈ contentParts := by
    cases kind <;> cases hpart <;> decide
  apply h.accounts
  · cases kind <;> cases hpart <;> decide
  · cases kind <;> cases hpart <;> decide
  · intro parts
    cases kind <;> cases hpart <;> rfl
  · intro habsent hblocks
    obtain ⟨s, hshows⟩ := shows_contentOf h.check h.prepare
    obtain ⟨b, hb, hkind⟩ := hshows.exists_block hpart hblocks
    have hsome : spec.body.hasContent kind = true := Body.hasContent_of_mem hb hkind
    obtain ⟨w, hw, hmisses⟩ := mem_partFindings hcontent (hfills.trans hsome) habsent
    exact ⟨w, h.warned w hw, hmisses⟩

/-- No content is dropped silently. In every document the blocks of the body are the body, and the
blocks of the parts, the notes and the bibliography are placed as a whole, or missed by a warning
that says so. -/
theorem process_places (h : c.process spec = (.ok doc, warnings)) :
    ∃ p, c.prepare spec = .ok p
      ∧ doc.blocksOf .body = [(contentOf spec p).body]
      ∧ (∀ kind part, ContentKind.part? kind = some part →
        doc.Accounts warnings (.part part) ((contentOf spec p).blocksFor part)
          ("The document has " ++ part.name ++ " content but no " ++ part.name ++ " section"))
      ∧ doc.Accounts warnings (.part .endnotes) (contentOf spec p).notes
          "The document has endnotes content but no endnotes section"
      ∧ doc.Accounts warnings (.part .bibliography)
          ((Entry.sort (p.works.map (Entry.ofWork p.sheet.citation))).map .entry)
          "The document lists sources but has no bibliography section" := by
  obtain ⟨p, hp⟩ := processed_of_ok h
  refine ⟨p, hp.prepare, hp.blocksOf_body, fun kind part => hp.accounts_content, ?_, ?_⟩
  · apply hp.accounts (by decide) (by decide) (fun _ => rfl)
    intro habsent hnotes
    have hfills : (materialOf spec (contentOf spec p) p.works).fills .endnotes = true := by
      show (!(contentOf spec p).notes.isEmpty) = true
      simpa using hnotes
    obtain ⟨w, hw, hmisses⟩ := mem_partFindings (by decide) hfills habsent
    exact ⟨w, hp.warned w hw, hmisses⟩
  · apply hp.accounts (by decide) (by decide) (fun _ => rfl)
    intro habsent hentries
    have hsources : (materialOf spec (contentOf spec p) p.works).hasSources = true := by
      show (!p.works.isEmpty) = true
      have hne : p.works ≠ [] := by
        intro hnil
        rw [hnil] at hentries
        exact hentries (by simp [Entry.sort])
      simpa using hne
    obtain ⟨w, hw, hmisses⟩ := mem_partFindings_sources hsources habsent
    exact ⟨w, hp.warned w hw, hmisses⟩

/-- The annotated essay with a declared order that has a place for its abstract only. -/
def crampedEssay : Specification :=
  { annotatedEssay with
    style := some
      { base := some ⟨"MLA9", ⟨15, 8⟩⟩, position := ⟨15, 1⟩
        parts := some ⟨[⟨"abstract", ⟨16, 17⟩⟩], ⟨16, 5⟩⟩ } }

/-- The essay is processed; its abstract is placed, its notes and its source are missed. -/
theorem process_places_crampedEssay : ∃ doc warnings,
    process { today := ⟨2024, 1, 1⟩ } crampedEssay = (.ok doc, warnings)
      ∧ ∃ p, prepare { today := ⟨2024, 1, 1⟩ } crampedEssay = .ok p
        ∧ doc.blocksOf .body = [(contentOf crampedEssay p).body]
        ∧ (∀ kind part, ContentKind.part? kind = some part →
          doc.Accounts warnings (.part part) ((contentOf crampedEssay p).blocksFor part)
            ("The document has " ++ part.name ++ " content but no " ++ part.name ++ " section"))
        ∧ doc.Accounts warnings (.part .endnotes) (contentOf crampedEssay p).notes
            "The document has endnotes content but no endnotes section"
        ∧ doc.Accounts warnings (.part .bibliography)
            ((Entry.sort (p.works.map (Entry.ofWork p.sheet.citation))).map .entry)
            "The document lists sources but has no bibliography section" := by
  have hok : (process { today := ⟨2024, 1, 1⟩ } crampedEssay).1.isOk = true := by decide +kernel
  cases h : process { today := ⟨2024, 1, 1⟩ } crampedEssay with
  | mk outcome warnings =>
    rw [h] at hok
    cases outcome with
    | error e => cases hok
    | ok doc => exact ⟨doc, warnings, rfl, process_places h⟩

end Compiler

end Manuscript
