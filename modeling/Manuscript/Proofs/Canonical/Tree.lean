import Manuscript.Token.Lexer

/-!
# Printed lines

The canonical form of a source is a list of lines, each indented by its depth. The lines come from
trees: below a line stand the lines of the block that it opens.

* `Line.chars` is how a line is printed and `tokensFrom` which tokens it is read as.
* `Tree.tokens_eq`: the tokens of a tree are those of its line and, one level deeper, of its block.
* `tokensFrom_linesOf`: trees beside each other have the tokens of one after the other.
-/

namespace Manuscript.Canonical

/-! ## Lexemes -/

/-- What a line is made of. -/
inductive Lexeme where
  | word (keyword : Keyword)
  | text (value : String)
  | comma

/-- How a character is written inside a text. -/
def escaped (c : Char) : List Char :=
  if c = '"' then ['\\', '"']
  else if c = '\\' then ['\\', '\\']
  else if c = '\n' then ['\\', 'n']
  else if c = '\t' then ['\\', 't']
  else [c]

namespace Lexeme

/-- How a lexeme is printed. -/
def chars : Lexeme → List Char
  | word k => k.spelling.toList
  | text value => '"' :: (value.toList.flatMap escaped ++ ['"'])
  | comma => [',']

/-- How a lexeme is printed behind another one: a blank stands between them, but not in front of a
comma. -/
def charsBehind : Lexeme → List Char
  | comma => comma.chars
  | x => ' ' :: x.chars

/-- The token that a lexeme is read as on a line of a depth, without its position. -/
def token (depth : Nat) : Lexeme → Token
  | word k => ⟨.keyword, k.spelling, .origin, depth⟩
  | text value => ⟨.text, value, .origin, depth⟩
  | comma => ⟨.separator, ",", .origin, depth⟩

/-- The lexeme can be printed: it is no text with a carriage return. -/
def Clean : Lexeme → Prop
  | text value => '\r' ∉ value.toList
  | _ => True

end Lexeme

/-! ## Lines -/

/-- A line that has a lexeme. -/
structure Line where
  depth : Nat
  first : Lexeme
  rest : List Lexeme

/-- The token at the end of a line. -/
def lineEndAt (depth : Nat) : Token := ⟨.lineEnd, "", .origin, depth⟩

/-- The token in front of a line that is deeper than the one before. -/
def indentTo (depth : Nat) : Token := ⟨.indent, toString depth, .origin, depth⟩

namespace Line

/-- How a line is printed. -/
def chars (l : Line) : List Char :=
  List.replicate (Lexer.spacesPerIndent * l.depth) ' '
    ++ (l.first.chars ++ (l.rest.flatMap Lexeme.charsBehind ++ ['\n']))

/-- The tokens of a line. -/
def tokens (l : Line) : List Token :=
  l.first.token l.depth :: (l.rest.map (Lexeme.token l.depth) ++ [lineEndAt l.depth])

/-- Every lexeme of the line can be printed. -/
def Clean (l : Line) : Prop := l.first.Clean ∧ ∀ x ∈ l.rest, x.Clean

end Line

/-- The tokens of some lines behind a line of a depth. -/
def tokensFrom : Nat → List Line → List Token
  | _, [] => []
  | previous, l :: ls =>
    (if previous < l.depth then [indentTo l.depth] else []) ++ (l.tokens ++ tokensFrom l.depth ls)

/-- The depth of the last of some lines behind a line of a depth. -/
def lastDepth : Nat → List Line → Nat
  | previous, [] => previous
  | _, l :: ls => lastDepth l.depth ls

theorem tokensFrom_append (p : Nat) (ls ms : List Line) :
    tokensFrom p (ls ++ ms) = tokensFrom p ls ++ tokensFrom (lastDepth p ls) ms := by
  induction ls generalizing p with
  | nil => rfl
  | cons l ls ih =>
    rw [List.cons_append, tokensFrom, tokensFrom, lastDepth, ih]
    simp only [List.append_assoc]

/-- If no line is less deep than `d`, the last is not. -/
theorem le_lastDepth {d p : Nat} {ls : List Line} (hp : d ≤ p) (h : ∀ l ∈ ls, d ≤ l.depth) :
    d ≤ lastDepth p ls := by
  induction ls generalizing p with
  | nil => exact hp
  | cons l ls ih =>
    unfold lastDepth
    exact ih (h l List.mem_cons_self) fun m hm => h m (List.mem_cons_of_mem l hm)

/-! ## Trees -/

/-- A line without its depth, and the lines of the block below it. -/
inductive Tree where
  | line (first : Lexeme) (rest : List Lexeme) (below : List Tree)

mutual
/-- The lines of a tree at a depth. -/
def Tree.lines (depth : Nat) : Tree → List Line
  | .line first rest below => ⟨depth, first, rest⟩ :: linesOf (depth + 1) below

/-- The lines of trees beside each other. -/
def linesOf (depth : Nat) : List Tree → List Line
  | [] => []
  | t :: ts => t.lines depth ++ linesOf depth ts
end

mutual
/-- A tree has no line that is less deep than the tree. -/
theorem Tree.le_depth (d : Nat) (t : Tree) : ∀ l ∈ t.lines d, d ≤ l.depth := by
  obtain ⟨first, rest, below⟩ := t
  intro l hl
  rw [Tree.lines, List.mem_cons] at hl
  rcases hl with rfl | hl
  · exact Nat.le_refl d
  · have hbelow : d + 1 ≤ l.depth := linesOf_le_depth (d + 1) below l hl
    omega

/-- Nor have trees beside each other. -/
theorem linesOf_le_depth (d : Nat) (ts : List Tree) : ∀ l ∈ linesOf d ts, d ≤ l.depth := by
  cases ts with
  | nil => simp [linesOf]
  | cons t ts =>
    intro l hl
    rw [linesOf, List.mem_append] at hl
    rcases hl with hl | hl
    · exact Tree.le_depth d t l hl
    · exact linesOf_le_depth d ts l hl
end

/-- The tokens of a tree at a depth, behind a line that is not less deep. -/
def Tree.tokens (d : Nat) (t : Tree) : List Token := tokensFrom d (t.lines d)

/-- The tokens of a block at a depth, behind the line that opens it. -/
def blockTokens (d : Nat) (ts : List Tree) : List Token :=
  if ts.isEmpty then [] else indentTo d :: ts.flatMap (Tree.tokens d)

/-- Behind a line that is not less deep, a tree begins without an increase of indentation. -/
theorem tokensFrom_lines {d p : Nat} (hp : d ≤ p) (t : Tree) :
    tokensFrom p (t.lines d) = t.tokens d := by
  obtain ⟨first, rest, below⟩ := t
  unfold Tree.tokens
  rw [Tree.lines, tokensFrom, tokensFrom, if_neg (by show ¬ p < d; omega),
    if_neg (by show ¬ d < d; omega)]

/-- Trees beside each other have the tokens of one after the other. -/
theorem tokensFrom_linesOf {d p : Nat} (hp : d ≤ p) (ts : List Tree) :
    tokensFrom p (linesOf d ts) = ts.flatMap (Tree.tokens d) := by
  induction ts generalizing p with
  | nil => rfl
  | cons t ts ih =>
    rw [linesOf, tokensFrom_append, tokensFrom_lines hp, List.flatMap_cons,
      ih (le_lastDepth hp (t.le_depth d))]

/-- The trees below a line begin with an increase of indentation. -/
theorem tokensFrom_below (d : Nat) (ts : List Tree) :
    tokensFrom d (linesOf (d + 1) ts) = blockTokens (d + 1) ts := by
  cases ts with
  | nil => rfl
  | cons t ts =>
    have ht : tokensFrom d (t.lines (d + 1)) = indentTo (d + 1) :: t.tokens (d + 1) := by
      obtain ⟨first, rest, below⟩ := t
      unfold Tree.tokens
      rw [Tree.lines, tokensFrom, tokensFrom, if_pos (by show d < d + 1; omega),
        if_neg (by show ¬ d + 1 < d + 1; omega)]
      rfl
    have hlast : d + 1 ≤ lastDepth d (t.lines (d + 1)) := by
      obtain ⟨first, rest, below⟩ := t
      rw [Tree.lines, lastDepth]
      -- no line of the tree is less deep than it, so that the depth does not grow behind it
      refine le_lastDepth (Nat.le_refl (d + 1)) fun l hl => ?_
      have hbelow : d + 2 ≤ l.depth := linesOf_le_depth (d + 2) below l hl
      omega
    rw [linesOf, tokensFrom_append, ht, tokensFrom_linesOf hlast]
    rfl

/-- The first lexeme of a tree. -/
def Tree.first : Tree → Lexeme
  | .line first _ _ => first

/-- The tokens of a tree behind those of its first lexeme. -/
def Tree.behind (d : Nat) : Tree → List Token
  | .line _ rest below =>
    rest.map (Lexeme.token d) ++ (lineEndAt d :: blockTokens (d + 1) below)

/-- The tokens of a tree are those of its line and of its block. -/
theorem Tree.tokens_eq (d : Nat) (t : Tree) : t.tokens d = t.first.token d :: t.behind d := by
  obtain ⟨first, rest, below⟩ := t
  unfold Tree.tokens
  rw [Tree.lines, tokensFrom, if_neg (by show ¬ d < d; omega), tokensFrom_below]
  simp [Line.tokens, Tree.first, Tree.behind]

end Manuscript.Canonical
