import Manuscript.Character.Blank

/-!
# Words and trimming

Cutting a text into words and taking characters off its ends. The functions work on lists of
characters; `trim` and `wordsOf` are the same for a `String`.
-/

namespace Manuscript.Text

open Manuscript.Character (isBlank)

/-! ## Trimming -/

/-- Take every character of a class off the end. -/
def trimRight (p : Char → Bool) (cs : List Char) : List Char := (cs.reverse.dropWhile p).reverse

/-- Take every character of a class off both ends. -/
def trimBoth (p : Char → Bool) (cs : List Char) : List Char := trimRight p (cs.dropWhile p)

/-- The text without the white space at its ends. -/
def trim (s : String) : String := String.ofList (trimBoth isBlank s.toList)

/-- The text holds nothing but white space. -/
def isBlankText (s : String) : Bool := s.toList.all isBlank

/-! ## Words -/

/-- Put a finished word in front of the words that follow it; an empty word is none. -/
def closeWord (word : List Char) (rest : List (List Char)) : List (List Char) :=
  if word.isEmpty then rest else word :: rest

/-- The words of a text that continues the word read so far. -/
def wordsFrom (word : List Char) : List Char → List (List Char)
  | [] => closeWord word []
  | c :: cs => if isBlank c then closeWord word (wordsFrom [] cs) else wordsFrom (word ++ [c]) cs

/-- The maximal runs of characters that are not white space. -/
def words (cs : List Char) : List (List Char) := wordsFrom [] cs

/-- The words of a text, as texts. -/
def wordsOf (s : String) : List String := (words s.toList).map String.ofList

/-! ## Joining -/

/-- The texts in order, with a separator between neighbours. -/
def joinWith (separator : String) : List String → String
  | [] => ""
  | [s] => s
  | s :: t :: rest => s ++ separator ++ joinWith separator (t :: rest)

end Manuscript.Text
