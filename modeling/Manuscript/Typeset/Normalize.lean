import Manuscript.Character.Blank
import Manuscript.Character.Case
import Manuscript.Character.Letter
import Manuscript.Style.Choice
import Manuscript.Text.Words

/-!
# Text rules

How the text of a run is set: what becomes of its white space, how punctuation is spaced, and where
letters are capitalized. The rules work on lists of characters and are told by the style guide which
characters are punctuation.

* `normalizeWhitespace` applies a white space policy.
* `tighten` drops white space in front of punctuation.
* `spaceAfter` puts a space behind punctuation, except in words that look like web addresses.
* `capitalizeSentences` and `capitalizeFirst` put capitals where sentences start.
* `normalize` is all of these that a style guide asks for.
-/

namespace Manuscript.Typeset

open Manuscript.Character

/-! ## White space -/

/-- Put one space in the place of every run of characters of a class. -/
def collapse (p : Char → Bool) : List Char → List Char
  | [] => []
  | c :: cs =>
    if p c then if cs.head?.any p then collapse p cs else ' ' :: collapse p cs
    else c :: collapse p cs

/-- The character is the space. -/
def isSpace (c : Char) : Bool := c == ' '

/-- Apply a white space policy. The outcome neither starts nor ends with a space. -/
def normalizeWhitespace (policy : WhitespacePolicy) (cs : List Char) : List Char :=
  Text.trimBoth isSpace <|
    match policy with
    | .yes => cs
    | .no => collapse isBlank cs
    | .escaped => collapse isSpace cs

/-! ## Spaces around punctuation -/

/-- The white space that may not stand in front of punctuation. Where white space is escaped, tabs
stand on purpose. -/
def isDroppable (policy : WhitespacePolicy) (c : Char) : Bool :=
  c == ' ' || (c == '\t' && policy != .escaped)

/-- Drop the characters of a class in front of punctuation; `pending` are those met last. -/
def tightenFrom (drops isPunctuation : Char → Bool) (pending : List Char) : List Char → List Char
  | [] => pending
  | c :: cs =>
    if drops c then tightenFrom drops isPunctuation (pending ++ [c]) cs
    else if isPunctuation c then c :: tightenFrom drops isPunctuation [] cs
    else pending ++ c :: tightenFrom drops isPunctuation [] cs

/-- Drop the white space in front of punctuation. -/
def tighten (policy : WhitespacePolicy) (isPunctuation : Char → Bool) (cs : List Char) :
    List Char := tightenFrom (isDroppable policy) isPunctuation [] cs

/-- The pattern stands somewhere in the text. -/
def occursIn (pattern : List Char) : List Char → Bool
  | [] => pattern.isEmpty
  | c :: cs => pattern.isPrefixOf (c :: cs) || occursIn pattern cs

/-- The word has the look of a web address. -/
def isAddress (word : List Char) : Bool :=
  occursIn [':', '/', '/'] word || ['w', 'w', 'w', '.'].isPrefixOf (word.flatMap lower)

/-- The words of a text and the white space between them, in order. -/
def stretches (cs : List Char) : List (List Char) := cs.splitBy fun c d => isBlank c == isBlank d

/-- Every character of a text, with a mark on those of words that look like web addresses. -/
def markAddresses (cs : List Char) : List (Char × Bool) :=
  (stretches cs).flatMap fun stretch => stretch.map fun c => (c, isAddress stretch)

/-- Marks that close a quotation or a bracket. -/
def closingMarks : List Char := ['"', '\'', ')', ']', '”', '’']

/-- Marks that open a quotation or a bracket. -/
def openingMarks : List Char := ['(', '[', '“', '‘']

/-- A space belongs between a punctuation mark and the character behind it. None does between two
digits, nor in an abbreviation whose letter stands between two full stops. -/
def needsSpaceAfter (isPunctuation : Char → Bool) (previous : Option Char) (mark next : Char)
    (afterNext : Option Char) : Bool :=
  let betweenDigits := previous.any isAsciiDigit && isAsciiDigit next
  let abbreviation := mark == '.' && isAlphabetic next && afterNext == some '.'
  !isBlank next && !isPunctuation next && !closingMarks.contains next && !betweenDigits
    && !abbreviation

/-- Put spaces behind the punctuation marks of a marked text; `previous` is the character before. -/
def spaceAfterFrom (isPunctuation : Char → Bool) (previous : Option Char) :
    List (Char × Bool) → List Char
  | [] => []
  | (c, inAddress) :: rest =>
    let space := match rest with
      | [] => false
      | (next, _) :: later =>
        isPunctuation c && !inAddress
          && needsSpaceAfter isPunctuation previous c next (later.head?.map Prod.fst)
    if space then c :: ' ' :: spaceAfterFrom isPunctuation (some c) rest
    else c :: spaceAfterFrom isPunctuation (some c) rest

/-- Put a space behind every punctuation mark that needs one. -/
def spaceAfter (isPunctuation : Char → Bool) (cs : List Char) : List Char :=
  spaceAfterFrom isPunctuation none (markAddresses cs)

/-! ## Capitals -/

/-- The mark ends a sentence. -/
def isStop (c : Char) : Bool := c == '.' || c == '!' || c == '?'

/-- What the text before a character says about the start of a sentence. -/
inductive Lead where
  /-- No sentence starts here. -/
  | none
  /-- A stop stands directly before; `abbreviation` says that it ends a dotted abbreviation. -/
  | stop (abbreviation : Bool)
  /-- White space stands between a stop and this character. -/
  | gap (abbreviation : Bool)
deriving DecidableEq

/-- The lead of the character behind `c`, given the two characters before `c` and its own lead. -/
def Lead.next (beforeLast last : Option Char) (lead : Lead) (c : Char) : Lead :=
  if isStop c then .stop (c == '.' && last.any isAlphabetic && beforeLast == some '.')
  else if isBlank c then
    match lead with
    | .stop abbreviation | .gap abbreviation => .gap abbreviation
    | .none => .none
  else .none

/-- Capitalize the sentences of the rest of a text. -/
def capitalizeFrom (beforeLast last : Option Char) (lead : Lead) : List Char → List Char
  | [] => []
  | c :: cs =>
    let set := if lead = .gap false ∧ isSmallLetter c then upper c else [c]
    set ++ capitalizeFrom last (some c) (lead.next beforeLast last c) cs

/-- Capitalize every small letter that follows a stop and white space, unless the stop ends a dotted
abbreviation. -/
def capitalizeSentences (cs : List Char) : List Char := capitalizeFrom none none .none cs

/-- Capitalize the first letter or digit, if it is lower case. -/
def capitalizeFirst : List Char → List Char
  | [] => []
  | c :: cs =>
    if isAlphanumeric c then (if isLowercase c then upper c else [c]) ++ cs
    else c :: capitalizeFirst cs

/-! ## All rules -/

/-- Set the text of a run. The rules about the spaces behind punctuation and about capitals belong
to strict guides only. -/
def normalize (policy : WhitespacePolicy) (strict : Bool) (isPunctuation : Char → Bool)
    (cs : List Char) : List Char :=
  let tightened := tighten policy isPunctuation (normalizeWhitespace policy cs)
  if strict then capitalizeSentences (spaceAfter isPunctuation tightened) else tightened

/-- The text ends a sentence. Quotation marks and white space behind its end do not matter. -/
def endsSentence (isTerminal : Char → Bool) (cs : List Char) : Bool :=
  let isQuote (c : Char) : Bool := ['"', '\'', '”', '’'].contains c
  (Text.trimRight isQuote (Text.trimRight isBlank cs)).getLast?.any isTerminal

end Manuscript.Typeset
