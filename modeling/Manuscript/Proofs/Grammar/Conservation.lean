import Manuscript.Compilation.Compile
import Manuscript.Proofs.Grammar.SectionLedger

/-!
# Conservation of texts

What a parse that succeeds makes of the texts of its tokens: all of them are in the specification,
and nothing else is.

* `sound_step`: a section that follows the grammar keeps what holds of the sections before it.
* `literals_parse`: the literals of a specification are the texts of its tokens.
-/

namespace Manuscript

namespace Grammar

open Production

/-! ## One section -/

/-- A step that leaves no error behind reads a section that follows the grammar. -/
theorem of_run_step {progress progress' : Progress} {t : Token} {ts us : List Token} {b b' : Bool}
    {q q' : Position}
    (h : (step progress t).run (.before ts b q) = (.ok progress', .before us b' q'))
    (hok : progress'.errors = []) :
    progress.errors = [] ∧ ∃ d,
      (sectionFrom progress.seen progress.declarations.isEmpty t).run (.before ts b q) =
        (.ok d, .before us b' q')
      ∧ progress'.declarations = progress.declarations ++ [d]
      ∧ progress'.seen = seenAfter progress.seen t := by
  unfold step outcome at h
  obtain ⟨r, e, hr, h⟩ := of_run_bind h
  unfold run at hr
  rcases hs : (sectionFrom progress.seen progress.declarations.isEmpty t).run (.before ts b q)
    with ⟨(x | x) | d, c⟩
  · rw [hs] at hr
    cases hr
    obtain ⟨_, _, -, h⟩ := of_run_bind h
    cases h
    exact absurd hok (by simp)
  · rw [hs] at hr
    cases hr
  · rw [hs] at hr
    cases hr
    cases h
    exact ⟨hok, d, rfl, rfl, rfl⟩

/-- The version is declared by the first section, as the text behind its keyword. -/
theorem of_run_version {seen : List Keyword} {first : Bool} {t : Token} {l : Literal}
    {ts : List Token} {b : Bool} {q : Position} {c : Cursor}
    (hk : sectionKeyword? t = some .version)
    (h : (sectionFrom seen first t).run (.before ts b q) = (.ok (.version l), c)) :
    first = true ∧ ∃ u us, ts = u :: us ∧ u.isText = true ∧ l = u.literal := by
  unfold sectionFrom at h
  rw [hk] at h
  dsimp only at h
  split_ifs at h
  · cases h
  · unfold sectionBody at h
    cases first with
    | false => cases h
    | true =>
      obtain ⟨l', e, hl, h⟩ := of_run_bind h
      cases h
      unfold literalLine at hl
      obtain ⟨l', e, hl, h⟩ := of_run_bind hl
      obtain ⟨u, us, rfl, hu, rfl, rfl⟩ := of_run_literal hl
      obtain ⟨_, _, -, h⟩ := of_run_bind h
      cases h
      exact ⟨rfl, u, us, rfl, hu, rfl⟩

/-- A section that was met is remembered, if it may stand once. -/
theorem mem_seenAfter {seen : List Keyword} {t : Token} {k : Keyword}
    (hk : sectionKeyword? t = some k) (hr : k.isRepeatable = false) : k ∈ seenAfter seen t := by
  unfold seenAfter
  rw [hk]
  dsimp only
  split_ifs with hs
  · simpa [hr] using hs
  · exact List.mem_cons_self

theorem subset_seenAfter (seen : List Keyword) (t : Token) : seen ⊆ seenAfter seen t := by
  unfold seenAfter
  split
  · split_ifs
    · exact List.Subset.refl seen
    · exact List.subset_cons_self _ seen
  · exact List.Subset.refl seen

/-! ## Every section -/

/-- What holds behind sections of which none is broken: the texts are booked, sections that may
stand once are remembered, and the version is the second token. -/
structure Sound (led : Prop) (source : List Token) (progress : Progress) (ts : List Token) :
    Prop where
  books : texts source = ↑(Specification.ofDeclarations progress.declarations).literals + texts ts
  seen : ∀ k, (Specification.ofDeclarations progress.declarations).has k = true →
    k ∈ progress.seen
  indented : led → Indented ts
  shaped : led → (Specification.ofDeclarations progress.declarations).Shaped
  start : progress.declarations = [] → ts = source
  version : ∀ l ∈ (Specification.ofDeclarations progress.declarations).version,
    ∃ t u us, source = t :: u :: us ∧ t.keyword? = some .version ∧ u.isText = true ∧ l = u.literal

/-- Nothing was read yet. -/
theorem Sound.empty {led : Prop} {source : List Token} (h : led → Indented source) :
    Sound led source {} source where
  books := (zero_add _).symm
  seen := by
    intro k hk
    cases k <;> exact absurd hk Bool.false_ne_true
  indented := h
  shaped := fun _ => Specification.shaped_empty
  start := fun _ => rfl
  version := by simp [Specification.ofDeclarations]

/-- One more section that follows the grammar. -/
theorem sound_step {led : Prop} {source ts us : List Token} {progress progress' : Progress}
    {t : Token} {b b' : Bool} {q q' : Position} (h : Sound led source progress (t :: ts))
    (hr : (step progress t).run (.before ts b q) = (.ok progress', .before us b' q'))
    (hok : progress'.errors = []) : Sound led source progress' us := by
  obtain ⟨-, d, hd, hds, hseen⟩ := of_run_step hr hok
  have hind : led → Indented ts := fun hl => (h.indented hl).suffix (List.suffix_cons t ts)
  have hbooks : Books led (0 + texts [t]) _ (fun d : Declaration => 0 + ↑d.literals) _ :=
    books_sectionFrom progress.seen progress.declarations.isEmpty t
  obtain ⟨hbal, hkey, hnew, hgram⟩ := hbooks ts b q d us b' q' hind hd
  have hspec : Specification.ofDeclarations progress'.declarations
      = (Specification.ofDeclarations progress.declarations).declare d := by
    rw [hds]
    exact List.foldl_concat ..
  have hfree : d.keyword.isRepeatable = true
      ∨ (Specification.ofDeclarations progress.declarations).has d.keyword = false := by
    refine hnew.imp_right fun hn => ?_
    by_contra hhas
    exact hn (h.seen d.keyword (by simpa using hhas))
  constructor
  · have hperm := Specification.literals_declare
      (Specification.ofDeclarations progress.declarations) d hfree
    have hbal' : texts [t] + texts ts = ↑d.literals + texts us := by
      simpa only [zero_add] using hbal
    rw [hspec, Multiset.coe_eq_coe.mpr hperm, h.books, texts_cons, hbal', ← Multiset.coe_add,
      add_assoc]
  · intro k hk
    rw [hspec] at hk
    rw [hseen]
    rcases Specification.has_declare _ d k hk with hk | rfl
    · exact subset_seenAfter progress.seen t (h.seen k hk)
    · refine mem_seenAfter hkey ?_
      by_contra hrep
      rw [Specification.has_of_isRepeatable _ (by simpa using hrep)] at hk
      exact Bool.false_ne_true hk
  · exact fun hl => (hind hl).suffix (run_suffix hr)
  · intro hl
    rw [hspec]
    exact (h.shaped hl).declare (hgram hl) hfree
  · intro hnil
    rw [hds] at hnil
    exact absurd hnil (by simp)
  · intro l hl
    rw [hspec] at hl
    by_cases hv : d.keyword = .version
    · obtain ⟨text, rfl⟩ := Specification.declaration_of_keyword hv
      obtain rfl : text = l := by simpa [Specification.declare] using hl
      obtain ⟨hfirst, u, vs, rfl, hu, rfl⟩ := of_run_version hkey hd
      refine ⟨t, u, vs, ?_, (Option.filter_eq_some_iff.mp hkey).1, hu, rfl⟩
      exact (h.start (by simpa using hfirst)).symm
    · rw [Specification.version_declare _ hv] at hl
      exact h.version l hl

/-! ## The whole source -/

/-- What holds behind all sections, if none of them is broken. -/
theorem sound_sections {led : Prop} {source : List Token} (hled : led → Indented source)
    {progress : Progress} {c : Cursor} {b : Bool} {q : Position}
    (h : sections.run (.before source b q) = (.ok progress, c)) (hok : progress.errors = []) :
    Sound led source progress [] := by
  obtain ⟨-, us, b', q', hc⟩ := run_listed sections source b q
  rw [h] at hc
  obtain rfl : c = Cursor.before us b' q' := hc
  -- a broken section leaves its error behind, so that no error at the end means none before
  let motive (progress : Progress) (ts : List Token) : Prop :=
    progress.errors = [] → Sound led source progress ts
  have hstep : ∀ progress t ts progress' us b q, motive progress (t :: ts) → (true = true) →
      (step progress t).run (.before ts t.isLineEnd t.position) = (.ok progress', .before us b q) →
        motive progress' us := by
    intro progress t ts progress' us b q hm _ hr hok
    exact sound_step (hm (of_run_step hr hok).1) hr hok
  obtain ⟨hsound, hend⟩ := of_run_repeatWhile hstep (fun _ => Sound.empty hled) h
  have hnil : us = [] := by
    cases us with
    | nil => rfl
    | cons t us => exact absurd (hend t rfl) (by simp)
  exact hnil ▸ hsound hok

/-- The progress behind a parse that succeeds. -/
theorem of_parse {ts : List Token} {spec : Specification}
    (h : (TokenWindow.ofTokens ts).parse.1 = .ok spec) :
    ∃ progress c, sections.run (.before ts true ⟨1, 1⟩) = (.ok progress, c)
      ∧ progress.errors = [] ∧ spec = .ofDeclarations progress.declarations := by
  unfold TokenWindow.parse at h
  have hstart : ({ window := .ofTokens ts } : Cursor) = .before ts true ⟨1, 1⟩ := rfl
  rw [hstart] at h
  rcases hr : sections.run (.before ts true ⟨1, 1⟩) with ⟨(e | e) | progress, c⟩
  · rw [hr] at h
    cases h
  · rw [hr] at h
    cases h
  · rw [hr] at h
    dsimp only at h
    split_ifs at h with hempty
    cases h
    exact ⟨progress, c, rfl, by simpa using hempty, rfl⟩

/-- Sections of which none is broken are parsed as what they declare. -/
theorem parse_of_run {ts : List Token} {progress : Progress} {c : Cursor}
    (h : sections.run (.before ts true ⟨1, 1⟩) = (.ok progress, c)) (hok : progress.errors = []) :
    (TokenWindow.ofTokens ts).parse.1 = .ok (.ofDeclarations progress.declarations) := by
  have hstart : ({ window := .ofTokens ts } : Cursor) = .before ts true ⟨1, 1⟩ := rfl
  unfold TokenWindow.parse
  rw [hstart, h]
  dsimp only
  rw [if_pos (by simp [hok])]

end Grammar

/-- The literals of a specification are the texts of the tokens it was parsed from: none is lost,
none stands twice, and none is invented. -/
theorem literals_parse {ts : List Token} {spec : Specification}
    (h : (TokenWindow.ofTokens ts).parse.1 = .ok spec) :
    spec.literals.Perm ((ts.filter Token.isText).map Token.literal) := by
  obtain ⟨progress, c, hr, hok, rfl⟩ := Grammar.of_parse h
  have hsound : Grammar.Sound False ts progress [] := Grammar.sound_sections False.elim hr hok
  have hbooks := hsound.books
  rw [texts_nil, add_zero] at hbooks
  exact (Multiset.coe_eq_coe.mp hbooks).symm

/-- The tokens of a title of two fragments and of two people on one line. -/
def twoLists : List Token :=
  [⟨.keyword, "title", ⟨1, 1⟩, 0⟩, ⟨.text, "On", ⟨1, 7⟩, 0⟩, ⟨.separator, ",", ⟨1, 11⟩, 0⟩,
    ⟨.keyword, "work", ⟨1, 13⟩, 0⟩, ⟨.text, "Emma", ⟨1, 18⟩, 0⟩, ⟨.lineEnd, "", ⟨1, 24⟩, 0⟩,
    ⟨.keyword, "author", ⟨2, 1⟩, 0⟩, ⟨.text, "A", ⟨2, 8⟩, 0⟩, ⟨.separator, ",", ⟨2, 11⟩, 0⟩,
    ⟨.text, "B", ⟨2, 13⟩, 0⟩]

/-- Lists on one line keep their texts. -/
theorem literals_parse_twoLists : ∃ spec, (TokenWindow.ofTokens twoLists).parse.1 = .ok spec
    ∧ spec.literals.Perm [⟨"On", ⟨1, 7⟩⟩, ⟨"Emma", ⟨1, 18⟩⟩, ⟨"A", ⟨2, 8⟩⟩, ⟨"B", ⟨2, 13⟩⟩] := by
  have hparse : (TokenWindow.ofTokens twoLists).parse.1 = .ok
      { title := ⟨[.plain ⟨"On", ⟨1, 7⟩⟩, .work ⟨"Emma", ⟨1, 18⟩⟩], some ⟨1, 1⟩⟩
        authors := ⟨[.named ⟨"A", ⟨2, 8⟩⟩, .named ⟨"B", ⟨2, 13⟩⟩], some ⟨2, 1⟩⟩ } := by
    rfl
  exact ⟨_, hparse, literals_parse hparse⟩

end Manuscript
