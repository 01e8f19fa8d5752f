import Mathlib.Tactic.SplitIfs
import Manuscript.Token
import Manuscript.Proofs.Specification.Literals

/-!
# Specifications up to positions

Two specifications say the same if they differ in positions only. `unplaced` puts one position in
place of all of them, and none where there need not be one.

* `unplaced_ofFields`: records of the same fields are the same up to positions.
* `unplaced_declare`: the same declarations make the same specification up to positions.
-/

namespace Manuscript

/-- A token without its position. -/
def Token.unplaced (t : Token) : Token := { t with position := .origin }

/-- A literal without its position. -/
def Literal.unplaced (l : Literal) : Literal := ⟨l.value, .origin⟩

/-! ## Records of fields -/

namespace Fields

/-- Fields without the positions of their literals. -/
def unplaced (fields : Fields) : Fields := fields.map fun f => (f.1, f.2.unplaced)

theorem get_unplaced (fields : Fields) (k : Keyword) :
    fields.unplaced.get k = (fields.get k).map Literal.unplaced := by
  induction fields with
  | nil => rfl
  | cons f fields ih =>
    obtain ⟨j, l⟩ := f
    have hcons : unplaced ((j, l) :: fields) = (j, l.unplaced) :: unplaced fields := rfl
    rw [hcons, get_cons, get_cons, ih]
    split_ifs
    · rfl
    · rfl

end Fields

/-- A type of records with a form that has no positions, in which only the texts of the fields
matter. -/
class PlacedRecord (α : Type) extends FieldRecord α where
  unplaced : α → α
  unplaced_eq : ∀ a b, (∀ k ∈ keywords,
    (get a k).map Literal.unplaced = (get b k).map Literal.unplaced) → unplaced a = unplaced b

/-- What stands under a keyword of a record is its declared field. -/
theorem get_declared {α : Type} [Fielded α] (a : α) {k : Keyword} (hk : k ∈ Fielded.keywords α) :
    (Fielded.declared a).get k = Fielded.get a k := by
  unfold Fielded.declared
  rw [Fields.get_collect, if_pos hk]

/-- Under each of its keywords, a record has the same as fields that are the same as its own. -/
theorem map_get_eq {α : Type} [Fielded α] {fields : Fields} {a : α}
    (h : fields.unplaced = (Fielded.declared a).unplaced) {k : Keyword}
    (hk : k ∈ Fielded.keywords α) :
    (fields.get k).map Literal.unplaced = (Fielded.get a k).map Literal.unplaced := by
  rw [← get_declared a hk, ← Fields.get_unplaced, ← Fields.get_unplaced, h]

/-- The record that is made from the fields of another one is the same up to positions. -/
theorem unplaced_ofFields {α : Type} [PlacedRecord α] {fields : Fields} {a : α}
    (h : fields.unplaced = (Fielded.declared a).unplaced) (p : Position) :
    PlacedRecord.unplaced (FieldRecord.ofFields fields p : α) = PlacedRecord.unplaced a := by
  refine PlacedRecord.unplaced_eq _ _ fun k hk => ?_
  rw [FieldRecord.get_ofFields fields p k hk]
  exact map_get_eq h hk

/-- A person without positions. -/
def Person.unplaced (a : Person) : Person :=
  { name := a.name.map Literal.unplaced, firstname := a.firstname.map Literal.unplaced
    lastname := a.lastname.map Literal.unplaced, role := a.role.map Literal.unplaced
    institution := a.institution.map Literal.unplaced, position := .origin }

instance : PlacedRecord Person where
  unplaced := Person.unplaced
  unplaced_eq a b h := by
    simp [Fielded.keywords, Fielded.get, Person.keywords, Person.get] at h
    simp [Person.unplaced, h]

/-- A publication without positions. -/
def Publication.unplaced (a : Publication) : Publication :=
  { title := a.title.map Literal.unplaced, venue := a.venue.map Literal.unplaced
    date := a.date.map Literal.unplaced, edition := a.edition.map Literal.unplaced
    institution := a.institution.map Literal.unplaced, chair := a.chair.map Literal.unplaced
    semester := a.semester.map Literal.unplaced, position := .origin }

instance : PlacedRecord Publication where
  unplaced := Publication.unplaced
  unplaced_eq a b h := by
    simp [Fielded.keywords, Fielded.get, Publication.keywords, Publication.get] at h
    simp [Publication.unplaced, h]

/-- Font settings without positions. -/
def FontBlock.unplaced (a : FontBlock) : FontBlock :=
  { name := a.name.map Literal.unplaced, size := a.size.map Literal.unplaced
    colour := a.colour.map Literal.unplaced, position := .origin }

instance : PlacedRecord FontBlock where
  unplaced := FontBlock.unplaced
  unplaced_eq a b h := by
    simp [Fielded.keywords, Fielded.get, FontBlock.keywords, FontBlock.get] at h
    simp [FontBlock.unplaced, h]

/-- Page settings without positions. -/
def LayoutBlock.unplaced (a : LayoutBlock) : LayoutBlock :=
  { width := a.width.map Literal.unplaced, height := a.height.map Literal.unplaced
    margin := a.margin.map Literal.unplaced, spacing := a.spacing.map Literal.unplaced
    position := .origin }

instance : PlacedRecord LayoutBlock where
  unplaced := LayoutBlock.unplaced
  unplaced_eq a b h := by
    simp [Fielded.keywords, Fielded.get, LayoutBlock.keywords, LayoutBlock.get] at h
    simp [LayoutBlock.unplaced, h]

/-- Paragraph settings without positions. -/
def ParagraphBlock.unplaced (a : ParagraphBlock) : ParagraphBlock :=
  { indentation := a.indentation.map Literal.unplaced, position := .origin }

instance : PlacedRecord ParagraphBlock where
  unplaced := ParagraphBlock.unplaced
  unplaced_eq a b h := by
    simp [Fielded.keywords, Fielded.get, ParagraphBlock.keywords, ParagraphBlock.get] at h
    simp [ParagraphBlock.unplaced, h]

/-- Sentence settings without positions. -/
def SentenceBlock.unplaced (a : SentenceBlock) : SentenceBlock :=
  { prefixText := a.prefixText.map Literal.unplaced, whitespace := a.whitespace.map Literal.unplaced
    bold := a.bold.map Literal.unplaced, italic := a.italic.map Literal.unplaced
    position := .origin }

instance : PlacedRecord SentenceBlock where
  unplaced := SentenceBlock.unplaced
  unplaced_eq a b h := by
    simp [Fielded.keywords, Fielded.get, SentenceBlock.keywords, SentenceBlock.get] at h
    simp [SentenceBlock.unplaced, h]

/-- Endnotes settings without positions. -/
def EndnotesBlock.unplaced (a : EndnotesBlock) : EndnotesBlock :=
  { allow := a.allow.map Literal.unplaced, before := a.before.map Literal.unplaced
    position := .origin }

instance : PlacedRecord EndnotesBlock where
  unplaced := EndnotesBlock.unplaced
  unplaced_eq a b h := by
    simp [Fielded.keywords, Fielded.get, EndnotesBlock.keywords, EndnotesBlock.get] at h
    simp [EndnotesBlock.unplaced, h]

/-- An image without positions. -/
def Image.unplaced (a : Image) : Image :=
  { id := a.id.map Literal.unplaced, width := a.width.map Literal.unplaced
    height := a.height.map Literal.unplaced, size := a.size.map Literal.unplaced
    display := a.display.map Literal.unplaced, position := .origin }

instance : PlacedRecord Image where
  unplaced := Image.unplaced
  unplaced_eq a b h := by
    simp [Fielded.keywords, Fielded.get, Image.keywords, Image.get] at h
    simp [Image.unplaced, h]

/-- Numeration settings without positions. -/
def NumerationBlock.unplaced (a : NumerationBlock) : NumerationBlock :=
  { type := a.type.map Literal.unplaced, display := a.display.map Literal.unplaced
    margin := a.margin.map Literal.unplaced, skip := a.skip.map Literal.unplaced
    position := .origin }

/-- The numeration settings that are made from the fields and pages of others are the same up to
positions. -/
theorem NumerationBlock.unplaced_ofFields {fields : Fields} {skip : List Literal}
    {b : NumerationBlock} (h : fields.unplaced = (Fielded.declared b).unplaced)
    (hskip : skip.map Literal.unplaced = b.skip.map Literal.unplaced) (p : Position) :
    (ofFields fields skip p).unplaced = b.unplaced := by
  have hk (k : Keyword) (hk : k ∈ keywords) :
      (fields.get k).map Literal.unplaced = (b.get k).map Literal.unplaced := map_get_eq h hk
  simp [keywords, NumerationBlock.get] at hk
  simp [NumerationBlock.unplaced, ofFields, hk, hskip]

/-- A source without positions. -/
def Source.unplaced (a : Source) : Source :=
  { kind := a.kind, authors := a.authors.map Literal.unplaced
    id := a.id.map Literal.unplaced, title := a.title.map Literal.unplaced
    publisher := a.publisher.map Literal.unplaced, year := a.year.map Literal.unplaced
    edition := a.edition.map Literal.unplaced, container := a.container.map Literal.unplaced
    journal := a.journal.map Literal.unplaced, volume := a.volume.map Literal.unplaced
    issue := a.issue.map Literal.unplaced, pages := a.pages.map Literal.unplaced
    album := a.album.map Literal.unplaced, label := a.label.map Literal.unplaced
    platform := a.platform.map Literal.unplaced, website := a.website.map Literal.unplaced
    url := a.url.map Literal.unplaced, accessed := a.accessed.map Literal.unplaced
    position := .origin }

/-- The source that is made from the fields and authors of another one of its kind is the same up to
positions. -/
theorem Source.unplaced_ofFields {fields : Fields} {authors : List Literal} {s : Source}
    (h : fields.unplaced = (Fielded.declared s).unplaced)
    (hauthors : authors.map Literal.unplaced = s.authors.map Literal.unplaced) (p : Position) :
    (ofFields s.kind authors fields p).unplaced = s.unplaced := by
  have hk (k : Keyword) (hk : k ∈ keywords) :
      (fields.get k).map Literal.unplaced = (s.get k).map Literal.unplaced := map_get_eq h hk
  simp [keywords, Source.get] at hk
  simp [Source.unplaced, ofFields, hk, hauthors]

/-! ## Other nodes -/

/-- A fragment of a title without its position. -/
def TitleFragment.unplaced : TitleFragment → TitleFragment
  | .plain text => .plain text.unplaced
  | .work title => .work title.unplaced

/-- A title without positions. -/
def Title.unplaced (t : Title) : Title := ⟨t.fragments.map TitleFragment.unplaced, none⟩

/-- People without positions. -/
def People.unplaced (people : People) : People := ⟨people.members.map Person.unplaced, none⟩

/-- An order of parts without positions. -/
def PartList.unplaced (list : PartList) : PartList := ⟨list.parts.map Literal.unplaced, .origin⟩

/-- A style section without positions. -/
def StyleBlock.unplaced (s : StyleBlock) : StyleBlock :=
  { base := s.base.map Literal.unplaced, font := s.font.map FontBlock.unplaced
    layout := s.layout.map LayoutBlock.unplaced
    paragraph := s.paragraph.map ParagraphBlock.unplaced
    sentence := s.sentence.map SentenceBlock.unplaced
    numeration := s.numeration.map NumerationBlock.unplaced
    parts := s.parts.map PartList.unplaced, citation := s.citation.map Literal.unplaced
    endnotes := s.endnotes.map EndnotesBlock.unplaced, position := .origin }

/-- A run without its positions. -/
def Run.unplaced : Run → Run
  | .text l => .text l.unplaced
  | .emphasise l => .emphasise l.unplaced
  | .bold l => .bold l.unplaced
  | .work l => .work l.unplaced
  | .quote l => .quote l.unplaced
  | .note l => .note l.unplaced
  | .citation source page => .citation source.unplaced (page.map Literal.unplaced)

/-- A sentence without positions. -/
def Sentence.unplaced (s : Sentence) : Sentence := ⟨s.runs.map Run.unplaced, .origin⟩

/-- A block of sentences without positions. -/
def ContentBlock.unplaced (b : ContentBlock) : ContentBlock :=
  ⟨b.kind, b.sentences.map Sentence.unplaced, .origin⟩

/-- An element without positions. -/
def Element.unplaced : Element → Element
  | .chapter heading => .chapter heading.unplaced
  | .content block => .content block.unplaced
  | .header _ => .header .origin
  | .blank _ => .blank .origin
  | .image i => .image i.unplaced

/-- The content without positions. -/
def Body.unplaced (b : Body) : Body := ⟨b.elements.map Element.unplaced⟩

/-- A bibliography without positions. -/
def Bibliography.unplaced (b : Bibliography) : Bibliography :=
  ⟨b.sources.map Source.unplaced, none⟩

/-! ## The whole specification -/

/-- A specification without positions. -/
def Specification.unplaced (spec : Specification) : Specification :=
  { version := spec.version.map Literal.unplaced
    documentType := spec.documentType.map Literal.unplaced
    title := spec.title.unplaced, authors := spec.authors.unplaced
    assessors := spec.assessors.unplaced
    publication := spec.publication.map Publication.unplaced
    style := spec.style.map StyleBlock.unplaced, body := spec.body.unplaced
    bibliography := spec.bibliography.map Bibliography.unplaced }

/-- A declaration without positions. -/
def Declaration.unplaced : Declaration → Declaration
  | .version text => .version text.unplaced
  | .documentType text => .documentType text.unplaced
  | .title fragments _ => .title (fragments.map TitleFragment.unplaced) .origin
  | .authors members _ => .authors (members.map Person.unplaced) .origin
  | .assessors members _ => .assessors (members.map Person.unplaced) .origin
  | .publication p => .publication p.unplaced
  | .style s => .style s.unplaced
  | .element e => .element e.unplaced
  | .bibliography sources _ => .bibliography (sources.map Source.unplaced) .origin

namespace Specification

/-- A specification that does not say where its sections are. -/
def unsited (spec : Specification) : Specification :=
  { spec with
    title := ⟨spec.title.fragments, none⟩, authors := ⟨spec.authors.members, none⟩
    assessors := ⟨spec.assessors.members, none⟩
    bibliography := spec.bibliography.map fun b => ⟨b.sources, none⟩ }

/-- What a declaration does to the texts of a specification depends on its texts alone. -/
theorem unplaced_declare (spec : Specification) (d : Declaration) :
    (spec.declare d).unplaced = (spec.unplaced.declare d.unplaced).unsited := by
  -- a bibliography without positions does not say where it is
  have hb : spec.bibliography.map Bibliography.unplaced
      = (spec.bibliography.map Bibliography.unplaced).map fun b => ⟨b.sources, none⟩ := by
    cases spec.bibliography with
    | none => rfl
    | some b => rfl
  cases d with
  | authors members p =>
    simp [declare, unplaced, unsited, Declaration.unplaced, People.join, People.unplaced,
      Title.unplaced, ← hb]
  | assessors members p =>
    simp [declare, unplaced, unsited, Declaration.unplaced, People.join, People.unplaced,
      Title.unplaced, ← hb]
  | element e =>
    simp [declare, unplaced, unsited, Declaration.unplaced, People.unplaced, Title.unplaced,
      Body.unplaced, ← hb]
  | bibliography sources p =>
    simp [declare, unplaced, unsited, Declaration.unplaced, People.unplaced, Title.unplaced,
      Bibliography.unplaced]
  | _ =>
    simp [declare, unplaced, unsited, Declaration.unplaced, People.unplaced, Title.unplaced, ← hb]

/-- The same of a list of declarations. -/
theorem unplaced_foldl (ds : List Declaration) (spec : Specification) :
    (ds.foldl declare spec).unplaced
      = (ds.map Declaration.unplaced).foldl (fun s d => (s.declare d).unsited) spec.unplaced := by
  induction ds generalizing spec with
  | nil => rfl
  | cons d ds ih => rw [List.foldl_cons, ih, List.map_cons, List.foldl_cons, unplaced_declare]

/-- The texts of a list of declarations depend on their texts alone. -/
theorem unplaced_ofDeclarations {ds ds' : List Declaration}
    (h : ds.map Declaration.unplaced = ds'.map Declaration.unplaced) :
    (ofDeclarations ds).unplaced = (ofDeclarations ds').unplaced := by
  unfold ofDeclarations
  rw [unplaced_foldl, unplaced_foldl, h]

end Specification

end Manuscript
