import Manuscript.Proofs.Compilation.Setting
import Manuscript.Proofs.Typeset.Emphasis

/-!
# Blocks of sentences and their paragraphs

Every block of sentences is set as one paragraph, which goes into the body or into a part of the
document. `Setting.paragraphs` has the blocks in the order of declaration, each with its paragraph;
the set content has the same paragraphs, sorted by where they go.

* `flatten_setSentences`: the spans of a block are those of its runs, each with the number of notes
  in front of it.
* `fst_paragraphs`: no block is left out.
* `sorts_setElements`: the paragraphs of the set content are those of the blocks.
-/

namespace Manuscript

/-- The notes of some runs, run by run. -/
theorem flatMap_notes (runs : List Run) : runs.flatMap Run.notes = runs.filterMap Run.note? := by
  induction runs with
  | nil => rfl
  | cons r rest ih =>
    rw [List.flatMap_cons, ih]
    cases r <;> rfl

/-- An element other than a block of sentences has no sentences. -/
theorem Element.of_ne_content {e : Element} (h : ∀ b, e = .content b → False) :
    e.block? = none ∧ e.sentences = [] := by
  cases e with
  | content b => exact absurd rfl (h b)
  | _ => exact ⟨rfl, rfl⟩

/-- The paragraph that a block of the document is. -/
def Block.paragraph? : Block → Option Paragraph
  | paragraph p => some p
  | _ => none

namespace Setting

/-- The blocks of sentences among some elements, each with the paragraph that it is set as; `count`
notes were set before them. -/
def paragraphs (s : Setting) (count : Nat) : List Element → List (ContentBlock × Paragraph)
  | [] => []
  | .content b :: rest =>
    let (sentences, pieces) := s.setSentences count b.sentences
    (b, s.sheet.setParagraph sentences) :: s.paragraphs (count + pieces.notes.length) rest
  | _ :: rest => s.paragraphs count rest

end Setting

/-- The paragraphs of set content are those of some blocks: in the body stand those of the blocks
that belong to no part, and every part gets those of its own blocks. -/
structure SetContent.Sorts (c : SetContent) (set : List (ContentBlock × Paragraph)) : Prop where
  body : c.body.filterMap Block.paragraph?
    = (set.filter fun x => x.1.kind.part?.isNone).map Prod.snd
  parts : ∀ part, c.blocksFor part
    = (set.filter fun x => x.1.kind.part? == some part).map fun x => .paragraph x.2

namespace SetContent

variable {c d : SetContent} {set others : List (ContentBlock × Paragraph)}

theorem blocksFor_append (part : Part) :
    (c.append d).blocksFor part = c.blocksFor part ++ d.blocksFor part :=
  List.filterMap_append

theorem Sorts.append (h : c.Sorts set) (h' : d.Sorts others) :
    (c.append d).Sorts (set ++ others) := by
  constructor
  · have hbody : (c.append d).body = c.body ++ d.body := rfl
    rw [hbody, List.filterMap_append, h.body, h'.body, List.filter_append, List.map_append]
  · intro part
    rw [blocksFor_append, h.parts, h'.parts, List.filter_append, List.map_append]

/-- An element that is no block of sentences adds no paragraph. -/
theorem Sorts.of_no_paragraph (hbody : c.body.filterMap Block.paragraph? = [])
    (hplaced : c.placed = []) : c.Sorts [] := by
  constructor
  · exact hbody
  · intro part
    unfold blocksFor
    rw [hplaced]
    rfl

end SetContent

namespace Setting

variable (s : Setting)

/-! ## The spans of a block -/

/-- The spans of a sentence are those of its runs, each behind the notes in front of it. -/
theorem spans_setRuns (n : Nat) (runs : List Run) :
    (s.setRuns n runs).spans
      = (counted Run.notes n runs).flatMap fun x => (s.setRun x.1 x.2).spans := by
  induction runs generalizing n with
  | nil => rfl
  | cons r rest ih =>
    have hcount : (s.setRun n r).notes.length = r.notes.length := by
      rw [notes_setRun, length_endnotes]
    show (s.setRun n r).spans ++ (s.setRuns (n + (s.setRun n r).notes.length) rest).spans = _
    rw [hcount, ih]
    rfl

/-- So are the spans of all sentences of a block. -/
theorem flatten_setSentences (n : Nat) (sentences : List Sentence) :
    (s.setSentences n sentences).1.flatten
      = (counted Run.notes n (runsOf sentences)).flatMap fun x => (s.setRun x.1 x.2).spans := by
  induction sentences generalizing n with
  | nil => rfl
  | cons sentence rest ih =>
    have hcount : (s.setRuns n sentence.runs).notes.length
        = (sentence.runs.flatMap Run.notes).length := by
      rw [notes_setRuns, length_endnotes, flatMap_notes]
    have hruns : runsOf (sentence :: rest) = sentence.runs ++ runsOf rest := rfl
    show (s.setRuns n sentence.runs).spans
      ++ (s.setSentences (n + (s.setRuns n sentence.runs).notes.length) rest).1.flatten = _
    rw [hruns, counted_append, List.flatMap_append, spans_setRuns, ih, hcount]

/-! ## Paragraphs -/

/-- A block of sentences is set as its paragraph. -/
theorem sorts_setBlock (n : Nat) (b : ContentBlock) :
    (s.setBlock n b).Sorts [(b, s.sheet.setParagraph (s.setSentences n b.sentences).1)] := by
  cases hpart : b.kind.part? with
  | none =>
    have hkind : b.kind = .paragraph := by
      cases hk : b.kind <;> rw [hk] at hpart <;> first | rfl | cases hpart
    rw [setBlock_of_paragraph n hkind]
    constructor
    · simp [hpart, Block.paragraph?]
    · intro part
      simp [hpart, SetContent.blocksFor]
  | some p =>
    rw [setBlock_of_part n hpart]
    constructor
    · simp [hpart]
    · intro part
      by_cases hp : p = part <;> simp [hpart, SetContent.blocksFor, hp]

/-- The paragraphs of set elements are those of their blocks. -/
theorem sorts_setElements (n : Nat) (es : List Element) :
    (s.setElements n es).Sorts (s.paragraphs n es) := by
  induction es generalizing n with
  | nil => exact .of_no_paragraph rfl rfl
  | cons e rest ih =>
    cases e with
    | content b =>
      -- both go on behind the same notes
      have hnotes : (s.setElement n (.content b)).notes.length
          = (s.setSentences n b.sentences).2.notes.length := by
        cases hpart : b.kind.part? <;> simp [setElement, setBlock, hpart]
      have hcons : s.paragraphs n (.content b :: rest)
          = [(b, s.sheet.setParagraph (s.setSentences n b.sentences).1)]
            ++ s.paragraphs (n + (s.setElement n (.content b)).notes.length) rest := by
        rw [hnotes]
        rfl
      rw [hcons]
      exact (s.sorts_setBlock n b).append (ih _)
    | chapter l => exact (SetContent.Sorts.of_no_paragraph rfl rfl).append (ih n)
    | header p => exact (SetContent.Sorts.of_no_paragraph rfl rfl).append (ih n)
    | blank p => exact (SetContent.Sorts.of_no_paragraph rfl rfl).append (ih n)
    | image i =>
      have himage : (s.setElement n (.image i)).body.filterMap Block.paragraph? = [] := by
        cases hplaced : s.placeImage i <;> simp [setElement, hplaced, Block.paragraph?]
      exact (SetContent.Sorts.of_no_paragraph himage rfl).append (ih n)

/-- Every block of sentences has its paragraph, in the order of declaration. -/
theorem fst_paragraphs (n : Nat) (es : List Element) :
    (s.paragraphs n es).map Prod.fst = es.filterMap Element.block? := by
  fun_induction paragraphs s n es with
  | case1 => rfl
  | case2 n b rest sentences pieces hset ih =>
    rw [List.map_cons, ih]
    rfl
  | case3 n e rest hne ih => rw [ih, List.filterMap_cons_none (Element.of_ne_content hne).1]

end Setting

end Manuscript
