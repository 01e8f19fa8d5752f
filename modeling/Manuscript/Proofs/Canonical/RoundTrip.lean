import Manuscript.Proofs.Canonical.Declarations
import Manuscript.Proofs.Canonical.Scan
import Manuscript.Proofs.Grammar.Conservation
import Manuscript.Proofs.Grammar.LazyReading

/-!
# Parsing the canonical form

The parser accepts the canonical form of every grammatical specification and gives the specification
back, up to positions; and it accepts no source that does not declare a grammatical one.
-/

namespace Manuscript

open Canonical Grammar

/-! ## From a specification to its text and back -/

namespace Specification.Grammatical

variable {spec : Specification} {ts : List Token}

/-- The canonical form is read as the tokens of its sections. -/
theorem tokenize_canonical (h : spec.Grammatical) : ∃ ts, tokenize spec.canonical = .ok ts
    ∧ ts.map Token.unplaced = (spec.declarations.map declarationTree).flatMap (Tree.tokens 0) := by
  obtain ⟨ts, hts, htokens⟩ := tokenize_lines h.clean_lines
  exact ⟨ts, hts, htokens.trans (tokensFrom_linesOf (le_refl 0) _)⟩

/-- The version gate lets the canonical form pass: a version that stands in front is the declared
one. -/
theorem gate (h : spec.Grammatical)
    (hts : ts.map Token.unplaced
      = (spec.declarations.map declarationTree).flatMap (Tree.tokens 0)) :
    TokenStream.checkVersion ⟨ts, none⟩ = .ok () := by
  rw [TokenWindow.checkVersion_complete]
  rintro t u us rfl hk -
  rcases hds : spec.declarations with _ | ⟨d, ds⟩
  · rw [hds] at hts
    cases hts
  · have hd : d ∈ spec.declarations := by
      rw [hds]
      exact List.mem_cons_self
    have hgram : d.Grammatical := (h.of_mem_declarations hd).1
    simp only [hds, List.map_cons, List.flatMap_cons, Tree.tokens_eq, List.cons_append,
      first_declarationTree hgram] at hts
    injection hts with ht hus
    -- the first token is the keyword of the first section, which is the version then
    have hversion : d.keyword = .version :=
      Option.some.inj ((keyword_of_unplaced ht).symm.trans hk)
    obtain ⟨l, rfl⟩ := declaration_of_keyword hversion
    injection hus with hu _
    obtain ⟨-, hvalue, -⟩ := of_unplaced_eq hu
    have hl : l ∈ spec.version := by
      simpa [mem_declarations] using hd
    have hsupported := h.version l hl
    unfold Literal.trimmed at hsupported
    rw [hvalue]
    exact hsupported

/-- What is parsed from the canonical form is the specification, up to positions. -/
theorem parse_canonical (h : spec.Grammatical) :
    ∃ spec', parse spec.canonical = .ok spec' ∧ spec'.unplaced = spec.unplaced := by
  obtain ⟨ts, htokenize, hts⟩ := h.tokenize_canonical
  obtain ⟨progress, b, q, hr, hread⟩ := reads_declarationTrees
    (fun d hd => h.of_mem_declarations hd) h.mayFollow_declarations ts [] true ⟨1, 1⟩ hts rfl
  rw [List.append_nil] at hr
  refine ⟨.ofDeclarations progress.declarations, ?_, ?_⟩
  · rw [parse_of_tokenize htokenize, parseTokens_of_gate (h.gate hts)]
    exact parse_of_run hr hread.errors
  · rw [unplaced_ofDeclarations hread.declarations, spec.unplaced_declarations]

end Specification.Grammatical

/-! ## From a text to a specification -/

/-- What is parsed is grammatical. -/
theorem grammatical_of_parse {source : String} {spec : Specification}
    (h : parse source = .ok spec) : spec.Grammatical := by
  obtain ⟨ts, htokenize, hts⟩ := tokenize_of_parse h
  have hfits := fits_tokenize htokenize
  have hgate := gate_of_parseTokens hts
  rw [parseTokens_of_gate hgate] at hts
  obtain ⟨progress, c, hr, hok, rfl⟩ := of_parse hts
  have hsound : Sound True ts progress [] := sound_sections (fun _ => hfits.indented) hr hok
  refine { hsound.shaped trivial with clean := ?_, version := ?_ }
  · intro l hl
    -- every literal is a text among the tokens
    have hbooks := hsound.books
    rw [texts_nil, add_zero] at hbooks
    have hmem : l ∈ texts ts := by
      rw [hbooks]
      exact hl
    obtain ⟨t, ht, rfl⟩ := List.mem_map.mp hmem
    rw [List.mem_filter] at ht
    exact (hfits.wellFormed t ht.1).text ht.2
  · intro l hl
    obtain ⟨t, u, us, rfl, hk, hu, rfl⟩ := hsound.version l hl
    exact (TokenWindow.checkVersion_complete _).mp hgate t u us rfl hk hu

/-- The parser accepts the grammatical specifications and no others: each of them is parsed from its
canonical form, up to positions, and what is parsed from any source is one of them. -/
theorem parse_grammatical :
    (∀ spec : Specification, spec.Grammatical →
      ∃ spec', parse spec.canonical = .ok spec' ∧ spec'.unplaced = spec.unplaced)
    ∧ ∀ (source : String) (spec : Specification), parse source = .ok spec → spec.Grammatical :=
  ⟨fun _ h => h.parse_canonical, fun _ _ h => grammatical_of_parse h⟩

/-- Blocks inside a style section, escaped characters, a cited page and a source of two authors. -/
def nestedBlocks : Specification :=
  { version := some ⟨" 1.0", .origin⟩
    authors := ⟨[.named ⟨"Ada", .origin⟩, .named ⟨"Bo", .origin⟩], none⟩
    style := some
      { font := some { size := some ⟨"12", .origin⟩, position := .origin }
        numeration := some { skip := [⟨"1", .origin⟩, ⟨"3-4", .origin⟩], position := .origin }
        citation := some ⟨"MLA9", .origin⟩, position := .origin }
    body := ⟨[.content ⟨.abstract,
      [⟨[.text ⟨"\"a\"\n\\", .origin⟩, .citation ⟨"k", .origin⟩ (some ⟨"4", .origin⟩)], .origin⟩],
      .origin⟩]⟩
    bibliography := some ⟨[{ kind := .book, authors := [⟨"C", .origin⟩, ⟨"D", .origin⟩]
                             year := some ⟨"1990", .origin⟩, position := .origin }], none⟩ }

theorem nestedBlocks_grammatical : nestedBlocks.Grammatical where
  title := by decide
  authors := ⟨by decide, by decide⟩
  assessors := ⟨by decide, by decide⟩
  publication := nofun
  style := by
    rintro s ⟨⟩
    refine ⟨⟨?_, nofun, nofun, nofun, ?_, nofun, nofun⟩, rfl⟩
    · rintro b ⟨⟩
      decide
    · rintro b ⟨⟩
      exact .inr (by decide)
  elements := by
    intro e he
    rw [List.mem_singleton.mp he]
    exact ⟨by decide, by decide⟩
  once := by
    intro kind hk
    cases kind <;> decide
  bibliography := by
    rintro b ⟨⟩
    refine ⟨by decide, fun s hs => ?_⟩
    rw [List.mem_singleton.mp hs]
    refine ⟨.inl (by decide), fun k hk => ?_⟩
    cases k <;> first | rfl | cases hk
  clean := by decide +kernel
  version := by
    rintro l ⟨⟩
    decide +kernel

/-- Nested blocks are read from their canonical form, and what is parsed from names on one line is
grammatical. -/
theorem parse_grammatical_nestedBlocks :
    (nestedBlocks.Grammatical ∧ ∃ spec, parse nestedBlocks.canonical = .ok spec
      ∧ spec.unplaced = nestedBlocks.unplaced)
    ∧ ∃ spec, parse "author \"A\", \"B\"\nstyle \"MLA9\"" = .ok spec ∧ spec.Grammatical := by
  have hparse : parse "author \"A\", \"B\"\nstyle \"MLA9\"" = .ok
      { authors := ⟨[.named ⟨"A", ⟨1, 8⟩⟩, .named ⟨"B", ⟨1, 13⟩⟩], some ⟨1, 1⟩⟩
        style := some (.named ⟨"MLA9", ⟨2, 7⟩⟩) } := by
    have htokens : tokenize "author \"A\", \"B\"\nstyle \"MLA9\"" = .ok
        [⟨.keyword, "author", ⟨1, 1⟩, 0⟩, ⟨.text, "A", ⟨1, 8⟩, 0⟩, ⟨.separator, ",", ⟨1, 11⟩, 0⟩,
          ⟨.text, "B", ⟨1, 13⟩, 0⟩, ⟨.lineEnd, "", ⟨1, 16⟩, 0⟩, ⟨.keyword, "style", ⟨2, 1⟩, 0⟩,
          ⟨.text, "MLA9", ⟨2, 7⟩, 0⟩, ⟨.lineEnd, "", ⟨2, 13⟩, 0⟩] := by
      decide +kernel
    rw [parse_of_tokenize htokens]
    rfl
  exact ⟨⟨nestedBlocks_grammatical, parse_grammatical.1 nestedBlocks nestedBlocks_grammatical⟩,
    _, hparse, parse_grammatical.2 _ _ hparse⟩

end Manuscript
