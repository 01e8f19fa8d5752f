import Manuscript.Text.Words

/-!
# Sample sources

Sources that show the language, under the names by which they can be asked for.
-/

namespace Manuscript.Sample

/-- A source made of lines. -/
def lines (ls : List String) : String := String.join (ls.map fun l => l ++ "\n")

/-- A title, an author and one paragraph. -/
def minimal : String :=
  lines
    ["title \"On Ravens\"",
      "author \"Jane Doe\"",
      "paragraph \"Ravens are clever.\""]

/-- An MLA paper that cites one source of every kind. -/
def paper : String :=
  lines
    ["# An MLA9 paper without a title page, citing one source of every kind",
      "version \"1.0\"",
      "type \"Paper\"",
      "title \"Birds of Ill Omen in\", work \"The Raven\"",
      "author \"Jane Doe\"",
      "assessor",
      "    name \"Prof. Ada Smith\"",
      "    role \"Instructor\"",
      "publication",
      "    title \"English 204\"",
      "    date \"03/06/2023\"",
      "style \"MLA9\"",
      "paragraph",
      "    \"poe's raven repeats a single word\" citation \"poe\" page \"12\"",
      "    \"the bird never explains itself\" note \"Compare the parrot in Austen's letters.\"",
      "    \"readers have long debated the ending\" citation \"style\"",
      "chapter \"Context\"",
      "paragraph",
      "    \"the poem appeared in\" work \"The American Review\"",
      "    \"austen wrote of\" quote \"a truth universally acknowledged\" citation \"austen\"",
      "    \"the game\" work \"Tetris\" \"is mentioned for contrast\" citation \"tetris\"",
      "    \"so is a song\" citation \"yesterday\"",
      "bibliography",
      "    poem",
      "        id \"poe\"",
      "        author \"Edgar Allan Poe\"",
      "        title \"The Raven\"",
      "        container \"The American Review\"",
      "        year \"1845\"",
      "        pages \"143-145\"",
      "    book",
      "        id \"austen\"",
      "        author \"Jane Austen\"",
      "        title \"Pride and Prejudice\"",
      "        publisher \"T. Egerton\"",
      "        edition \"3\"",
      "        year \"1813\"",
      "    webpage",
      "        id \"style\"",
      "        title \"Style Center\"",
      "        website \"MLA\"",
      "        year \"2023\"",
      "        url \"style.mla.org\"",
      "        accessed \"03/06/2023\"",
      "    videogame",
      "        id \"tetris\"",
      "        author \"Nintendo\"",
      "        title \"Tetris\"",
      "        platform \"Game Boy\"",
      "        publisher \"Nintendo\"",
      "        year \"1989\"",
      "    music",
      "        id \"yesterday\"",
      "        author \"Beatles\"",
      "        title \"Yesterday\"",
      "        album \"Help!\"",
      "        label \"Parlophone\"",
      "        year \"1965\""]

/-- A seminar paper in the house style with a full style section. -/
def seminar : String :=
  lines
    ["# A Pipp seminar paper with a custom style block",
      "version \"1.0\"",
      "type \"Paper\"",
      "title \"Indentation as Syntax\"",
      "author",
      "    firstname \"Jane\"",
      "    lastname \"Doe\"",
      "    institution \"TU Darmstadt\"",
      "author \"John Roe\"",
      "assessor",
      "    name \"Prof. Dr. Ada Smith\"",
      "    role \"Supervisor\"",
      "assessor",
      "    name \"Dr. Alan Turing\"",
      "    role \"Second Examiner\"",
      "publication",
      "    title \"Seminar on Compilers\"",
      "    institution \"TU Darmstadt\"",
      "    chair \"Software Technology\"",
      "    semester \"WS 2023\"",
      "    date \"15/01/2024\"",
      "style",
      "    of \"Pipp\"",
      "    font",
      "        name \"Helvetica\"",
      "        size \"12\"",
      "        colour \"#202020\"",
      "    layout",
      "        margin \"25mm\"",
      "        spacing \"1.5\"",
      "    numeration",
      "        type \"Arabic\"",
      "        display \"Bottom\"",
      "        skip \"1\", \"3-4\"",
      "    structure \"titlepage\", \"abstract\", \"tableofcontents\", \"endnotes\", "
        ++ "\"bibliography\", \"academicintegrity\"",
      "    endnotes",
      "        allow \"If Necessary\"",
      "        before \"bibliography\"",
      "abstract",
      "    \"this paper studies\" emphasise \"off-side\" \"rules\"",
      "chapter \"Introduction\"",
      "paragraph",
      "    \"Python made indentation popular\" note \"Landin described the rule in 1966.\"",
      "    bold \"Layout\" \"carries meaning\" citation \"landin\" page \"157\"",
      "bibliography",
      "    periodical",
      "        id \"landin\"",
      "        author \"Peter J. Landin\"",
      "        title \"The Next 700 Programming Languages\"",
      "        journal \"Communications of the ACM\"",
      "        volume \"9\"",
      "        issue \"3\"",
      "        year \"1966\"",
      "        pages \"157-166\""]

/-- An MLA book with front matter and an appendix. -/
def book : String :=
  lines
    ["# An MLA9 book with front matter, chapters and an appendix",
      "type \"Book\"",
      "title \"A Field Guide to Corvids\"",
      "author \"Jane Doe\", \"John Roe\"",
      "publication",
      "    venue \"Darmstadt University Press\"",
      "    edition \"2\"",
      "    date \"None\"",
      "style \"MLA9\"",
      "preface",
      "    \"this book grew out of a seminar\"",
      "acknowledgements",
      "    \"we thank the birds\"",
      "chapter \"Crows\"",
      "paragraph",
      "    \"crows recognize faces\"",
      "chapter \"Ravens\"",
      "paragraph",
      "    \"ravens plan ahead\"",
      "appendix",
      "    \"measurements are given in centimetres\""]

/-- Three sections that do not follow the grammar. -/
def brokenSections : String :=
  lines
    ["# Three broken sections; every one of them is reported",
      "title",
      "author \"Jane Doe\" \"extra\"",
      "type \"Paper\"",
      "style \"MLA9\" \"x\""]

/-- Endnotes in front of a part that must stand before them. -/
def misplacedEndnotes : String :=
  lines
    ["# Endnotes placed in front of a section MLA9 requires before them",
      "title \"Notes First\"",
      "author \"Jane Doe\"",
      "style",
      "    of \"MLA9\"",
      "    structure \"endnotes\", \"preface\"",
      "preface \"Thanks to everyone.\"",
      "paragraph \"A claim\" note \"A note.\""]

/-- A header, images and a blank page in the body. -/
def layout : String :=
  lines
    ["# Body instructions that place a header block, images and a blank page",
      "title \"Field Notes on Corvids\"",
      "author \"Jane Doe\"",
      "publication",
      "    institution \"TU Darmstadt\"",
      "    chair \"Ornithology\"",
      "    semester \"WS 2023\"",
      "    date \"None\"",
      "header",
      "paragraph \"Crows gather at dusk.\"",
      "image \"crow.png\", \"40%\"",
      "blank",
      "image",
      "    id \"raven.png\"",
      "    width \"80mm\"",
      "    height \"2in\"",
      "    display \"Right\""]

/-- The samples, by name. -/
def all : List (String × String) :=
  [("000-minimal.pipp", minimal),
    ("010-mla9-paper.pipp", paper),
    ("020-pipp-seminar.pipp", seminar),
    ("030-mla9-book.pipp", book),
    ("040-parse-errors.pipp", brokenSections),
    ("050-structure-order.pipp", misplacedEndnotes),
    ("060-layout.pipp", layout)]

/-- The names of the samples. -/
def names : List String := all.map Prod.fst

/-- The source of a sample. -/
def find? (name : String) : Option String := all.lookup name

/-- What is said about a name that no sample has. -/
def unknown (name : String) : String :=
  "sample '" ++ name ++ "' not found. Available samples: " ++ Text.joinWith ", " names

end Manuscript.Sample
