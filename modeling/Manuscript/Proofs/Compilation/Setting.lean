import Mathlib.Data.List.Forall2
import Manuscript.Proofs.Compilation.Shelf

/-!
# What the set content shows

Setting the content sends every element to one place and loses none on the way. What a run, a block,
an image or an element is set as is said by relations of their own, without the functions that set
them; `Setting.Shows` puts them together for a list of elements.

* `shows_setRuns`, `shows_setSentences` and `shows_setBlock`: what becomes of a sentence and of a
  block, behind a number of notes that were set before.
* `Shows.append`: more elements add to their places behind the elements in front of them.
* `setBody_shows`: the content of a checked specification shows its body.
-/

namespace Manuscript

/-! ## Notes and citations -/

/-- The runs of some sentences. -/
def runsOf (sentences : List Sentence) : List Run := sentences.flatMap Sentence.runs

/-- The notes of some sentences. -/
def notesOf (sentences : List Sentence) : List Literal := sentences.flatMap Sentence.notes

/-- The sources that some sentences cite. -/
def citationsOf (sentences : List Sentence) : List Literal := sentences.flatMap Sentence.citations

/-- The notes that a run has: one or none. -/
def Run.notes (r : Run) : List Literal := r.note?.toList

namespace Element

/-- The sentences of an element. -/
def sentences : Element → List Sentence
  | content b => b.sentences
  | _ => []

/-- The notes of an element. -/
def notes (e : Element) : List Literal := notesOf e.sentences

/-- The element is shown in the body, not in a part of its own. -/
def staysInBody : Element → Bool
  | content b => b.kind == .paragraph
  | _ => true

end Element

/-- The kinds of content that have parts of their own, with these parts. -/
def partKinds : List (ContentKind × Part) :=
  [(.abstract, .abstract), (.preface, .preface), (.acknowledgements, .acknowledgements),
    (.appendix, .appendix)]

theorem mem_partKinds_iff {kind : ContentKind} {part : Part} :
    (kind, part) ∈ partKinds ↔ kind.part? = some part := by
  cases kind <;> cases part <;> decide

/-- The items of a list, each behind the number of notes in front of it; `count` notes stand in
front of the list. -/
def counted {α : Type} (notes : α → List Literal) (count : Nat) : List α → List (Nat × α)
  | [] => []
  | a :: rest => (count, a) :: counted notes (count + (notes a).length) rest

theorem counted_append {α : Type} (notes : α → List Literal) (count : Nat) (as bs : List α) :
    counted notes count (as ++ bs)
      = counted notes count as ++ counted notes (count + (as.flatMap notes).length) bs := by
  induction as generalizing count with
  | nil => rfl
  | cons a as ih =>
    have hlen : count + ((a :: as).flatMap notes).length
        = count + (notes a).length + (as.flatMap notes).length := by
      rw [List.flatMap_cons, List.length_append, Nat.add_assoc]
    rw [hlen]
    show (count, a) :: counted notes (count + (notes a).length) (as ++ bs) = _
    rw [ih]
    rfl

/-- Counting leaves the items as they are. -/
theorem map_snd_counted {α : Type} (notes : α → List Literal) (count : Nat) (as : List α) :
    (counted notes count as).map Prod.snd = as := by
  induction as generalizing count with
  | nil => rfl
  | cons a as ih => exact congrArg (a :: ·) (ih _)

/-- The block of a kind that an element is, with the number of notes in front of it. -/
def blockOf? (kind : ContentKind) : Nat × Element → Option (Nat × ContentBlock)
  | (n, .content b) => if b.kind = kind then some (n, b) else none
  | _ => none

namespace Setting

variable (s : Setting) (spec : Specification)

/-! ## What things are set as -/

/-- The span that a run is set as, behind a number of notes. A citation is set as the reference to
the work of the source that it means. -/
inductive ShowsRun : Nat × Run → Span → Prop where
  | text (n : Nat) (l : Literal) : ShowsRun (n, .text l) (s.sheet.setText .regular l.value)
  | emphasise (n : Nat) (l : Literal) :
      ShowsRun (n, .emphasise l) (s.sheet.setText .italic l.value)
  | bold (n : Nat) (l : Literal) : ShowsRun (n, .bold l) (s.sheet.setText .bold l.value)
  | work (n : Nat) (l : Literal) : ShowsRun (n, .work l) (s.sheet.setText .italic l.value)
  | quote (n : Nat) (l : Literal) :
      ShowsRun (n, .quote l)
        ⟨"\"" ++ (s.sheet.setText .regular l.value).text ++ "\"",
          (s.sheet.setText .regular l.value).emphasis⟩
  | note (n : Nat) (l : Literal) : ShowsRun (n, .note l) ⟨toString (n + 1), .superscript⟩
  | citation (n : Nat) (l : Literal) (page : Option Literal) {source : Source} {w : Work}
      (hsource : spec.sourceOf? l.trimmed = some source) (hwork : Work.ofSource source = .ok w) :
      ShowsRun (n, .citation l page)
        (Span.regular (w.reference s.sheet.citation (page.map (·.trimmed))))

/-- The spans that a sentence is set as: one for each run. -/
def ShowsSentence (x : Nat × Sentence) (spans : List Span) : Prop :=
  List.Forall₂ (s.ShowsRun spec) (counted Run.notes x.1 x.2.runs) spans

/-- The paragraph that a block of sentences is set as. -/
def ShowsBlock (x : Nat × ContentBlock) (block : Block) : Prop :=
  ∃ sentences,
    List.Forall₂ (s.ShowsSentence spec) (counted Sentence.notes x.1 x.2.sentences) sentences
      ∧ block = .paragraph (s.sheet.setParagraph sentences)

/-- The image as it is placed: every setting that it declares was read. A scale excludes a width and
a height. -/
structure ShowsImage (i : Image) (p : PlacedImage) : Prop where
  id : i.id.map Literal.trimmed = some p.id
  scale : readField (Literal.parse percentageReader) i.size = .ok p.scale
  width : ∃ width, readField (Literal.parse Length.reader) i.width = .ok width
    ∧ p.width = if p.scale.isSome then none else width.map Length.points
  height : ∃ height, readField (Literal.parse Length.reader) i.height = .ok height
    ∧ p.height = if p.scale.isSome then none else height.map Length.points
  alignment : ∃ alignment, readField (Literal.parse Alignment.reader) i.display = .ok alignment
    ∧ p.alignment = alignment.getD s.sheet.guide.rules.alignment

/-- The block of the body that an element is set as, behind a number of notes. -/
inductive ShowsElement : Nat × Element → Block → Prop where
  | chapter (n : Nat) (l : Literal) :
      ShowsElement (n, .chapter l) (.heading (s.sheet.setText .regular l.value).text 1)
  | paragraph {n : Nat} {b : ContentBlock} {block : Block} (hkind : b.kind = .paragraph)
      (hblock : s.ShowsBlock spec (n, b) block) : ShowsElement (n, .content b) block
  | header (n : Nat) (p : Position) : ShowsElement (n, .header p) (.header s.headerLines)
  | blank (n : Nat) (p : Position) : ShowsElement (n, .blank p) .blankPage
  | image (n : Nat) {i : Image} {placed : PlacedImage} (himage : s.ShowsImage i placed) :
      ShowsElement (n, .image i) (.image placed)

/-- The endnotes of some notes, numbered on from those in front of them. Each is a paragraph of one
sentence, the text of the note. -/
def endnotes (count : Nat) (notes : List Literal) : List Block :=
  notes.mapIdx fun i l =>
    .note (count + i + 1) (s.sheet.setParagraph [[s.sheet.setText .regular l.value]])

/-- The content that some elements are set as, behind a number of notes: every element is in its
place and in order, every note has an endnote with its number, and the cited ids are those of the
citations. -/
structure Shows (n : Nat) (es : List Element) (c : SetContent) : Prop where
  body : List.Forall₂ (s.ShowsElement spec)
    ((counted Element.notes n es).filter fun x => x.2.staysInBody) c.body
  parts : ∀ kind part, (kind, part) ∈ partKinds →
    List.Forall₂ (s.ShowsBlock spec) ((counted Element.notes n es).filterMap (blockOf? kind))
      (c.blocksFor part)
  notes : c.notes = s.endnotes n (notesOf (es.flatMap Element.sentences))
  cited : c.cited = (citationsOf (es.flatMap Element.sentences)).map Literal.trimmed

/-- A citation leads to the work of the source that it means. -/
def Knows (l : Literal) : Prop :=
  ∃ source w, spec.sourceOf? l.trimmed = some source ∧ Work.ofSource source = .ok w
    ∧ s.shelf.find? l.trimmed = some w

variable {s spec}

/-! ## Endnotes -/

theorem endnotes_append (n : Nat) (ls ms : List Literal) :
    s.endnotes n (ls ++ ms) = s.endnotes n ls ++ s.endnotes (n + ls.length) ms := by
  unfold endnotes
  rw [List.mapIdx_append]
  congr 1
  apply List.mapIdx_eq_mapIdx_iff.mpr
  intro i hi
  have hnumber : n + (i + ls.length) + 1 = n + ls.length + i + 1 := by omega
  rw [hnumber]

@[simp] theorem length_endnotes (n : Nat) (ls : List Literal) :
    (s.endnotes n ls).length = ls.length := by
  unfold endnotes
  exact List.length_mapIdx

/-- A note leaves an endnote, and other runs leave none. -/
theorem notes_setRun (s : Setting) (n : Nat) (r : Run) :
    (s.setRun n r).notes = s.endnotes n r.notes := by
  cases r with
  | citation l page =>
    unfold setRun
    dsimp only
    cases s.shelf.find? l.trimmed <;> rfl
  | _ => rfl

/-- The notes of a sentence are numbered on from those in front of it. -/
theorem notes_setRuns (s : Setting) (n : Nat) (runs : List Run) :
    (s.setRuns n runs).notes = s.endnotes n (runs.filterMap Run.note?) := by
  induction runs generalizing n with
  | nil => rfl
  | cons r rest ih =>
    have hnotes : (r :: rest).filterMap Run.note? = r.notes ++ rest.filterMap Run.note? := by
      cases r <;> rfl
    show (s.setRun n r).notes ++ (s.setRuns (n + (s.setRun n r).notes.length) rest).notes = _
    rw [ih, hnotes, endnotes_append, notes_setRun, length_endnotes]

/-- So are the notes of a block. -/
theorem notes_setSentences (s : Setting) (n : Nat) (sentences : List Sentence) :
    (s.setSentences n sentences).2.notes = s.endnotes n (notesOf sentences) := by
  induction sentences generalizing n with
  | nil => rfl
  | cons sentence rest ih =>
    have hnotes : notesOf (sentence :: rest)
        = sentence.runs.filterMap Run.note? ++ notesOf rest := rfl
    show (s.setRuns n sentence.runs).notes
      ++ (s.setSentences (n + (s.setRuns n sentence.runs).notes.length) rest).2.notes = _
    rw [ih, hnotes, endnotes_append, notes_setRuns, length_endnotes]

/-- And those of all blocks. -/
theorem notes_setElements (s : Setting) (n : Nat) (es : List Element) :
    (s.setElements n es).notes = s.endnotes n (notesOf (es.flatMap Element.sentences)) := by
  induction es generalizing n with
  | nil => rfl
  | cons e rest ih =>
    have hfirst : (s.setElement n e).notes = s.endnotes n (notesOf e.sentences) := by
      cases e with
      | content b =>
        have hblock : (s.setBlock n b).notes = (s.setSentences n b.sentences).2.notes := by
          unfold setBlock
          cases b.kind.part? <;> rfl
        exact hblock.trans (notes_setSentences s n b.sentences)
      | _ => rfl
    have hnotes : notesOf ((e :: rest).flatMap Element.sentences)
        = notesOf e.sentences ++ notesOf (rest.flatMap Element.sentences) := by
      unfold notesOf
      rw [List.flatMap_cons, List.flatMap_append]
    show (s.setElement n e).notes
      ++ (s.setElements (n + (s.setElement n e).notes.length) rest).notes = _
    rw [ih, hnotes, endnotes_append, hfirst, length_endnotes]

/-! ## Sentences -/

/-- A run is set as one span. -/
theorem shows_setRun (n : Nat) {r : Run} (h : ∀ l ∈ r.cited?, s.Knows spec l) :
    (∃ span, (s.setRun n r).spans = [span] ∧ s.ShowsRun spec (n, r) span)
      ∧ (s.setRun n r).cited = r.cited?.toList.map Literal.trimmed := by
  cases r with
  | text l => exact ⟨⟨_, rfl, .text n l⟩, rfl⟩
  | emphasise l => exact ⟨⟨_, rfl, .emphasise n l⟩, rfl⟩
  | bold l => exact ⟨⟨_, rfl, .bold n l⟩, rfl⟩
  | work l => exact ⟨⟨_, rfl, .work n l⟩, rfl⟩
  | quote l => exact ⟨⟨_, rfl, .quote n l⟩, rfl⟩
  | note l => exact ⟨⟨_, rfl, .note n l⟩, rfl⟩
  | citation l page =>
    obtain ⟨source, w, hsource, hwork, hfind⟩ := h l rfl
    have hset : s.setRun n (.citation l page)
        = { spans := [Span.regular (w.reference s.sheet.citation (page.map (·.trimmed)))]
            cited := [l.trimmed] } := by
      unfold setRun
      dsimp only
      rw [hfind]
    rw [hset]
    exact ⟨⟨_, rfl, .citation n l page hsource hwork⟩, rfl⟩

/-- The runs of a sentence are set one behind the other. -/
theorem shows_setRuns (n : Nat) {runs : List Run}
    (h : ∀ l ∈ runs.filterMap Run.cited?, s.Knows spec l) :
    List.Forall₂ (s.ShowsRun spec) (counted Run.notes n runs) (s.setRuns n runs).spans
      ∧ (s.setRuns n runs).cited = (runs.filterMap Run.cited?).map Literal.trimmed := by
  induction runs generalizing n with
  | nil => exact ⟨.nil, rfl⟩
  | cons r rest ih =>
    have hcited : (r :: rest).filterMap Run.cited?
        = r.cited?.toList ++ rest.filterMap Run.cited? := by
      cases r <;> rfl
    rw [hcited] at h ⊢
    have hr : ∀ l ∈ r.cited?, s.Knows spec l := by
      intro l hl
      exact h l (List.mem_append_left _ (Option.mem_toList.mpr hl))
    obtain ⟨⟨span, hspan, hshows⟩, hc⟩ := shows_setRun n hr
    have hcount : n + (s.setRun n r).notes.length = n + r.notes.length := by
      rw [notes_setRun, length_endnotes]
    obtain ⟨ihs, ihc⟩ := ih (n + r.notes.length) fun l hl => h l (List.mem_append_right _ hl)
    unfold setRuns SetRuns.append
    dsimp only
    rw [hcount, hspan, hc, ihc, List.map_append]
    exact ⟨.cons hshows ihs, rfl⟩

/-- The sentences of a block are set one behind the other, and their spans are kept apart. -/
theorem shows_setSentences (n : Nat) {sentences : List Sentence}
    (h : ∀ l ∈ citationsOf sentences, s.Knows spec l) :
    List.Forall₂ (s.ShowsSentence spec) (counted Sentence.notes n sentences)
        (s.setSentences n sentences).1
      ∧ (s.setSentences n sentences).2.cited = (citationsOf sentences).map Literal.trimmed := by
  induction sentences generalizing n with
  | nil => exact ⟨.nil, rfl⟩
  | cons sentence rest ih =>
    have hcited : citationsOf (sentence :: rest) = sentence.citations ++ citationsOf rest := rfl
    rw [hcited] at h ⊢
    have hcites : ∀ l ∈ sentence.citations, s.Knows spec l := fun l hl =>
      h l (List.mem_append_left _ hl)
    obtain ⟨hs, hc⟩ := shows_setRuns n hcites
    have hcount : n + (s.setRuns n sentence.runs).notes.length = n + sentence.notes.length := by
      rw [notes_setRuns, length_endnotes]
      rfl
    obtain ⟨ihs, ihc⟩ := ih (n + sentence.notes.length)
      fun l hl => h l (List.mem_append_right _ hl)
    unfold setSentences SetRuns.append
    dsimp only
    rw [hcount, hc, ihc, List.map_append]
    exact ⟨.cons hs ihs, rfl⟩

/-! ## Images -/

/-- A setting of an image that can be read is read. -/
theorem readField_of_check {α : Type} {r : Reader α} {field : Option Literal} {name : String}
    (h : checkValue field name r = .ok ()) :
    readField (Literal.parse r) field = .ok (readSetting r field) := by
  cases field with
  | none => rfl
  | some l =>
    obtain ⟨-, hread⟩ := of_seq_ok h
    obtain ⟨value, hvalue⟩ := of_checkField hread l rfl
    show (l.parse r).map some = .ok (r.read? l.value)
    unfold Literal.parse at hvalue ⊢
    cases hr : r.read? l.value with
    | none =>
      rw [hr] at hvalue
      cases hvalue
    | some value => rfl

/-- An image that passed its check is placed. -/
theorem shows_placeImage {i : Image} (h : i.check = .ok ()) :
    ∃ placed, s.placeImage i = some placed ∧ s.ShowsImage i placed := by
  unfold Image.check at h
  cases hid : i.id with
  | none =>
    rw [hid] at h
    cases h
  | some id =>
    rw [hid] at h
    dsimp only at h
    obtain ⟨-, h⟩ := of_seq_ok h
    obtain ⟨hwidth, h⟩ := of_seq_ok h
    obtain ⟨hheight, h⟩ := of_seq_ok h
    obtain ⟨hsize, hdisplay⟩ := of_seq_ok h
    unfold placeImage
    rw [hid]
    refine ⟨_, rfl, ?_⟩
    constructor
    · rw [hid]
      rfl
    · exact readField_of_check hsize
    · exact ⟨_, readField_of_check hwidth, rfl⟩
    · exact ⟨_, readField_of_check hheight, rfl⟩
    · exact ⟨_, readField_of_check hdisplay, rfl⟩

/-! ## Elements -/

/-- The body gets no blocks and the parts get none from nothing. -/
theorem Shows.nil (n : Nat) : s.Shows spec n [] {} where
  body := .nil
  parts := fun _ _ _ => .nil
  notes := rfl
  cited := rfl

/-- More elements add to their places behind the elements in front of them. -/
theorem Shows.append {n : Nat} {es fs : List Element} {c d : SetContent}
    (h : s.Shows spec n es c) (h' : s.Shows spec (n + c.notes.length) fs d) :
    s.Shows spec n (es ++ fs) (c.append d) := by
  have hlen : c.notes.length = (es.flatMap Element.notes).length := by
    rw [h.notes, length_endnotes]
    exact congrArg List.length List.flatMap_assoc
  have hcounted := counted_append Element.notes n es fs
  rw [← hlen] at hcounted
  constructor
  · rw [hcounted, List.filter_append]
    exact List.rel_append h.body h'.body
  · intro kind part hpart
    have hblocks : (c.append d).blocksFor part = c.blocksFor part ++ d.blocksFor part :=
      List.filterMap_append
    rw [hcounted, List.filterMap_append, hblocks]
    exact List.rel_append (h.parts kind part hpart) (h'.parts kind part hpart)
  · have hnotes : notesOf ((es ++ fs).flatMap Element.sentences)
        = notesOf (es.flatMap Element.sentences) ++ notesOf (fs.flatMap Element.sentences) := by
      unfold notesOf
      rw [List.flatMap_append, List.flatMap_append]
    have hcount := congrArg List.length h.notes
    rw [length_endnotes] at hcount
    show c.notes ++ d.notes = _
    rw [hnotes, endnotes_append, ← hcount, ← h'.notes, ← h.notes]
  · show c.cited ++ d.cited = _
    rw [h.cited, h'.cited, ← List.map_append]
    unfold citationsOf
    rw [List.flatMap_append, List.flatMap_append]

/-- What a part gets comes from a block of its kind. -/
theorem Shows.exists_block {n : Nat} {es : List Element} {c : SetContent}
    (h : s.Shows spec n es c) {kind : ContentKind} {part : Part} (hpart : kind.part? = some part)
    (hblocks : c.blocksFor part ≠ []) : ∃ b, .content b ∈ es ∧ b.kind = kind := by
  have hlength := (h.parts kind part (mem_partKinds_iff.mpr hpart)).length_eq
  have hne : (counted Element.notes n es).filterMap (blockOf? kind) ≠ [] := by
    intro hnil
    rw [hnil] at hlength
    exact hblocks (List.length_eq_zero_iff.mp hlength.symm)
  obtain ⟨x, hx⟩ := List.exists_mem_of_ne_nil _ hne
  obtain ⟨⟨m, e⟩, hmem, hblock⟩ := List.mem_filterMap.mp hx
  have he : e ∈ es := by
    rw [← map_snd_counted Element.notes n es]
    exact List.mem_map.mpr ⟨_, hmem, rfl⟩
  cases e with
  | content b =>
    unfold blockOf? at hblock
    dsimp only at hblock
    split_ifs at hblock with hkind
    exact ⟨b, he, hkind⟩
  | chapter l => cases hblock
  | header p => cases hblock
  | blank p => cases hblock
  | image i => cases hblock

/-- Content of two kinds does not go into one part. -/
theorem kind_of_part {kind kind' : ContentKind} {part : Part} (h : kind.part? = some part)
    (h' : kind'.part? = some part) : kind = kind' := by
  cases kind <;> cases h <;> cases kind' <;> first | rfl | cases h'

/-- A paragraph of the body is a block of the body. -/
theorem setBlock_of_paragraph (n : Nat) {b : ContentBlock} (h : b.kind = .paragraph) :
    s.setBlock n b =
      { body := [.paragraph (s.sheet.setParagraph (s.setSentences n b.sentences).1)]
        notes := (s.setSentences n b.sentences).2.notes
        cited := (s.setSentences n b.sentences).2.cited
        warnings := (s.setSentences n b.sentences).2.warnings } := by
  unfold setBlock
  rw [h]
  rfl

/-- Other content is a block of its part. -/
theorem setBlock_of_part (n : Nat) {b : ContentBlock} {part : Part}
    (h : b.kind.part? = some part) :
    s.setBlock n b =
      { placed := [(part, .paragraph (s.sheet.setParagraph (s.setSentences n b.sentences).1))]
        notes := (s.setSentences n b.sentences).2.notes
        cited := (s.setSentences n b.sentences).2.cited
        warnings := (s.setSentences n b.sentences).2.warnings } := by
  unfold setBlock
  dsimp only
  rw [h]

/-- A block of sentences stays in the body if it is a paragraph. -/
theorem counted_staysInBody (n : Nat) (b : ContentBlock) :
    (counted Element.notes n [.content b]).filter (fun x => x.2.staysInBody) =
      if b.kind = .paragraph then [(n, .content b)] else [] := by
  by_cases hkind : b.kind = .paragraph
  · rw [if_pos hkind]
    simp [counted, Element.staysInBody, hkind]
  · rw [if_neg hkind]
    simp [counted, Element.staysInBody, hkind]

/-- A block of sentences is one of its own kind and of no other. -/
theorem counted_blockOf (n : Nat) (b : ContentBlock) (kind : ContentKind) :
    (counted Element.notes n [.content b]).filterMap (blockOf? kind) =
      if b.kind = kind then [(n, b)] else [] := by
  by_cases hkind : b.kind = kind
  · rw [if_pos hkind]
    simp [counted, blockOf?, hkind]
  · rw [if_neg hkind]
    simp [counted, blockOf?, hkind]

/-- The paragraph that a block of sentences is set as shows it. -/
theorem showsBlock_setParagraph (n : Nat) {b : ContentBlock}
    (h : ∀ l ∈ citationsOf b.sentences, s.Knows spec l) :
    s.ShowsBlock spec (n, b)
      (.paragraph (s.sheet.setParagraph (s.setSentences n b.sentences).1)) :=
  ⟨_, (shows_setSentences n h).1, rfl⟩

/-- The sentences of one block are those of its element. -/
theorem flatMap_content (b : ContentBlock) :
    [Element.content b].flatMap Element.sentences = b.sentences :=
  List.flatMap_singleton ..

/-- A paragraph of the body goes into the body. -/
theorem shows_bodyBlock (n : Nat) {b : ContentBlock} (hkind : b.kind = .paragraph)
    (h : ∀ l ∈ citationsOf b.sentences, s.Knows spec l) :
    s.Shows spec n [.content b] (s.setBlock n b) := by
  obtain ⟨-, hc⟩ := shows_setSentences n h
  rw [setBlock_of_paragraph n hkind]
  constructor
  · rw [counted_staysInBody, if_pos hkind]
    exact .cons (.paragraph hkind (showsBlock_setParagraph n h)) .nil
  · intro kind part hmem
    have hne : b.kind ≠ kind := by
      intro heq
      rw [mem_partKinds_iff, ← heq, hkind] at hmem
      cases hmem
    rw [counted_blockOf, if_neg hne]
    exact .nil
  · rw [flatMap_content]
    exact s.notes_setSentences n b.sentences
  · rw [flatMap_content]
    exact hc

/-- Other content goes into its part. -/
theorem shows_partBlock (n : Nat) {b : ContentBlock} {p : Part} (hpart : b.kind.part? = some p)
    (h : ∀ l ∈ citationsOf b.sentences, s.Knows spec l) :
    s.Shows spec n [.content b] (s.setBlock n b) := by
  obtain ⟨-, hc⟩ := shows_setSentences n h
  have hkind : b.kind ≠ .paragraph := by
    intro heq
    rw [heq] at hpart
    cases hpart
  rw [setBlock_of_part n hpart]
  constructor
  · rw [counted_staysInBody, if_neg hkind]
    exact .nil
  · intro kind part hmem
    have hk : kind.part? = some part := mem_partKinds_iff.mp hmem
    unfold SetContent.blocksFor
    rw [counted_blockOf]
    by_cases heq : b.kind = kind
    · have hp : p = part := by
        rw [heq, hk] at hpart
        exact (Option.some.inj hpart).symm
      simp only [heq, hp, if_true, List.filterMap_cons, List.filterMap_nil]
      exact .cons (showsBlock_setParagraph n h) .nil
    · have hp : p ≠ part := fun hp => heq (kind_of_part (hp ▸ hpart) hk)
      simp only [heq, hp, if_false, List.filterMap_cons, List.filterMap_nil]
      exact .nil
  · rw [flatMap_content]
    exact s.notes_setSentences n b.sentences
  · rw [flatMap_content]
    exact hc

/-- A block of sentences goes into the body or into its part, as one paragraph. -/
theorem shows_setBlock (n : Nat) {b : ContentBlock}
    (h : ∀ l ∈ citationsOf b.sentences, s.Knows spec l) :
    s.Shows spec n [.content b] (s.setBlock n b) := by
  cases hpart : b.kind.part? with
  | none =>
    have hkind : b.kind = .paragraph := by
      cases hk : b.kind with
      | paragraph => rfl
      | abstract | preface | acknowledgements | appendix =>
        rw [hk] at hpart
        cases hpart
    exact shows_bodyBlock n hkind h
  | some p => exact shows_partBlock n hpart h

/-- An element without sentences adds one block to the body and nothing else. -/
theorem shows_single {n : Nat} {e : Element} {block : Block} {c : SetContent}
    (hsentences : e.sentences = []) (hstays : e.staysInBody = true)
    (hkind : ∀ kind, blockOf? kind (n, e) = none) (hblock : s.ShowsElement spec (n, e) block)
    (hbody : c.body = [block]) (hplaced : c.placed = []) (hnotes : c.notes = [])
    (hcited : c.cited = []) : s.Shows spec n [e] c := by
  have hnone : [e].flatMap Element.sentences = [] := by
    rw [List.flatMap_singleton, hsentences]
  constructor
  · have hfilter : (counted Element.notes n [e]).filter (fun x => x.2.staysInBody) = [(n, e)] := by
      simp [counted, hstays]
    rw [hfilter, hbody]
    exact .cons hblock .nil
  · intro kind part hpart
    have hblocks : (counted Element.notes n [e]).filterMap (blockOf? kind) = [] := by
      simp [counted, hkind]
    unfold SetContent.blocksFor
    rw [hblocks, hplaced]
    exact .nil
  · rw [hnone, hnotes]
    rfl
  · rw [hnone, hcited]
    rfl

/-- Every element is set in its place. -/
theorem shows_setElement (n : Nat) {e : Element} (hcheck : e.check = .ok ())
    (h : ∀ l ∈ citationsOf e.sentences, s.Knows spec l) :
    s.Shows spec n [e] (s.setElement n e) := by
  cases e with
  | chapter l => exact shows_single rfl rfl (fun _ => rfl) (.chapter n l) rfl rfl rfl rfl
  | content b => exact shows_setBlock n h
  | header p => exact shows_single rfl rfl (fun _ => rfl) (.header n p) rfl rfl rfl rfl
  | blank p => exact shows_single rfl rfl (fun _ => rfl) (.blank n p) rfl rfl rfl rfl
  | image i =>
    have himage : i.check = .ok () := hcheck
    obtain ⟨placed, hplaced, hshows⟩ := shows_placeImage (s := s) himage
    refine shows_single rfl rfl (fun _ => rfl) (.image n hshows) ?_ rfl rfl rfl
    show (s.placeImage i).toList.map Block.image = _
    rw [hplaced]
    rfl

/-- Elements are set one behind the other. -/
theorem shows_setElements (n : Nat) {es : List Element} (hcheck : ∀ e ∈ es, e.check = .ok ())
    (h : ∀ l ∈ citationsOf (es.flatMap Element.sentences), s.Knows spec l) :
    s.Shows spec n es (s.setElements n es) := by
  induction es generalizing n with
  | nil => exact .nil n
  | cons e rest ih =>
    have hcited : citationsOf ((e :: rest).flatMap Element.sentences)
        = citationsOf e.sentences ++ citationsOf (rest.flatMap Element.sentences) := by
      unfold citationsOf
      rw [List.flatMap_cons, List.flatMap_append]
    rw [hcited] at h
    have hfirst : s.Shows spec n [e] (s.setElement n e) :=
      shows_setElement n (hcheck e List.mem_cons_self) fun l hl => h l (List.mem_append_left _ hl)
    exact hfirst.append (ih _ (fun x hx => hcheck x (List.mem_cons_of_mem e hx))
      fun l hl => h l (List.mem_append_right _ hl))

end Setting

/-! ## The body of a checked specification -/

/-- The sentences of a body are those of its elements. -/
theorem Body.sentences_eq (b : Body) : b.sentences = b.elements.flatMap Element.sentences := by
  unfold sentences blocks
  induction b.elements with
  | nil => rfl
  | cons e es ih =>
    cases e with
    | content block =>
      rw [List.filterMap_cons_some (show Element.block? (.content block) = some block from rfl),
        List.flatMap_cons, List.flatMap_cons, ih]
      rfl
    | chapter _ => exact ih
    | header _ => exact ih
    | blank _ => exact ih
    | image _ => exact ih

/-- The content of a checked specification shows its body, on the shelf of its works. -/
theorem shows_of_check {spec : Specification} (hcheck : spec.check = .ok ()) {s : Setting}
    {works : List Work} (hworks : Compiler.worksOf spec = .ok works)
    (hshelf : s.shelf = .ofWorks works) :
    s.Shows spec 0 spec.body.elements (s.setBody spec.body) := by
  have hpassed := passed_of_check hcheck
  apply Setting.shows_setElements
  · exact of_forM_ok hpassed.body
  · -- a citation that the check let pass means a source, whose work stands on the shelf
    intro l hl
    rw [← Body.sentences_eq] at hl
    have hl' := of_forM_ok hpassed.citations l hl
    unfold Specification.checkCitation at hl'
    split_ifs at hl' with hknown
    obtain ⟨source, hsource⟩ := (spec.knowsSource_iff l.trimmed).mp hknown
    obtain ⟨w, hwork, hfind⟩ := shelf_find hcheck hworks hsource
    rw [← hshelf] at hfind
    exact ⟨source, w, hsource, hwork, hfind⟩

namespace Compiler

variable {c : Compiler} {spec : Specification} {p : Preparation}

/-- The works that were prepared are those of the specification. -/
theorem worksOf_of_prepare (h : c.prepare spec = .ok p) : worksOf spec = .ok p.works := by
  unfold prepare at h
  obtain ⟨type, -, h⟩ := of_bind_ok h
  obtain ⟨sheet, -, h⟩ := of_bind_ok h
  obtain ⟨works, hworks, h⟩ := of_bind_ok h
  obtain ⟨date, -, h⟩ := of_bind_ok h
  cases h
  cases hread : worksOf spec with
  | error e =>
    rw [hread] at hworks
    cases hworks
  | ok works' =>
    rw [hread] at hworks
    cases hworks
    rfl

/-- The content of a specification that was checked and prepared shows its body. -/
theorem shows_contentOf (hcheck : spec.check = .ok ()) (hprepare : c.prepare spec = .ok p) :
    ∃ s : Setting, s.Shows spec 0 spec.body.elements (contentOf spec p) :=
  ⟨_, shows_of_check hcheck (worksOf_of_prepare hprepare) rfl⟩

end Compiler

/-- An essay with an element of every kind: notes in two blocks of different kinds, and a citation
with a page. -/
def annotatedEssay : Specification :=
  let text (line column : Nat) (value : String) : Literal := ⟨value, ⟨line, column⟩⟩
  { title := ⟨[.plain (text 1 7 "On Ravens")], some ⟨1, 1⟩⟩
    authors := ⟨[.named (text 2 8 "Jane Doe")], some ⟨2, 1⟩⟩
    body :=
      ⟨[.header ⟨3, 1⟩, .chapter (text 4 9 "Flight"),
        .content ⟨.abstract, [⟨[.text (text 5 10 "Ravens fly"), .note (text 5 24 "mostly")],
          ⟨5, 10⟩⟩], ⟨5, 1⟩⟩,
        .blank ⟨6, 1⟩,
        .content ⟨.paragraph, [⟨[.citation (text 7 16 " r ") (some (text 7 21 "12")),
          .note (text 7 31 "twice")], ⟨7, 11⟩⟩], ⟨7, 1⟩⟩,
        .image { id := some (text 8 7 "raven.png"), size := some (text 8 19 "50%")
                 position := ⟨8, 1⟩ }]⟩
    bibliography := some
      ⟨[{ kind := .book, position := ⟨10, 5⟩
          id := some (text 11 12 "r"), title := some (text 12 15 "Ravens")
          publisher := some (text 13 19 "Murray"), year := some (text 14 14 "1815") }],
        some ⟨9, 1⟩⟩ }

end Manuscript
