import Manuscript.Style.Choice
import Manuscript.Style.Measure

/-!
# Style guides

A style guide is a closed set of rules for the look of a document. Two guides are known: the ninth
edition of the MLA Handbook, and a permissive house style for documents that name no guide. This
module holds what a guide fixes; what it prints is in `Guide.Wording`.
-/

namespace Manuscript

open Manuscript.Number (Binary32)

/-- The known style guides. -/
inductive Guide where
  /-- The MLA Handbook, ninth edition. -/
  | mla9
  /-- The house style. -/
  | house
deriving DecidableEq

namespace Guide

/-- Every guide. -/
def all : List Guide := [mla9, house]

/-- The name of a guide. -/
def name : Guide → String
  | mla9 => "MLA9"
  | house => "Pipp"

/-- What a guide fixes. -/
structure Rules where
  documentType : DocumentType
  font : String
  fontSize : Nat
  fontColour : Colour
  pageFormat : PageFormat
  margin : Length
  /-- The distance between lines, as a multiple of their height. -/
  spacing : Binary32
  indentation : Length
  /-- What stands between two sentences of a paragraph. -/
  sentenceSeparator : String
  /-- Page numbers of the body and of the parts behind it. -/
  numeration : Numeration
  /-- Page numbers of the parts in front of the body. -/
  frontNumeration : Numeration
  numberPlace : NumberPlace
  numberMargin : Length
  bold : Allowance
  italic : Allowance
  whitespace : WhitespacePolicy
  endnotes : Allowance
  /-- Parts that must stand before the endnotes if both are there. -/
  beforeEndnotes : List Part
  /-- Punctuation marks beyond the usual ones. -/
  extraPunctuation : List Char
  /-- Sentences are capitalized and completed, and punctuation is spaced. -/
  strict : Bool
  /-- Alignment of images that declare none. -/
  alignment : Alignment

/-- The rules of a guide. -/
def rules : Guide → Rules
  | mla9 =>
    { documentType := .paper
      font := "Times Roman"
      fontSize := 12
      fontColour := .black
      pageFormat := .letter
      margin := .tenths 10
      spacing := .round false 2 1
      indentation := .tenths 5
      sentenceSeparator := " "
      numeration := .arabic
      frontNumeration := .roman
      numberPlace := .topRight
      numberMargin := .tenths 5
      bold := .no
      italic := .ifNecessary
      whitespace := .no
      endnotes := .ifNecessary
      beforeEndnotes :=
        [.titlePage, .abstract, .preface, .acknowledgements, .tableOfContents, .appendix]
      extraPunctuation := []
      strict := true
      alignment := .centre }
  | house =>
    { documentType := .paper
      font := "Helvetica"
      fontSize := 11
      fontColour := .black
      pageFormat := .a4
      margin := .tenths 10
      spacing := .round false 15 10
      indentation := .tenths 0
      sentenceSeparator := " "
      numeration := .arabic
      frontNumeration := .arabic
      numberPlace := .bottom
      numberMargin := .tenths 5
      bold := .yes
      italic := .yes
      whitespace := .yes
      endnotes := .ifNecessary
      beforeEndnotes := [.titlePage, .tableOfContents]
      extraPunctuation := ['…', '‽']
      strict := false
      alignment := .centre }

/-- The punctuation marks that every guide has. -/
def usualPunctuation : List Char := ['.', '?', '!', ',', ';', ':']

/-- The character is a punctuation mark. -/
def isPunctuation (g : Guide) (c : Char) : Bool :=
  usualPunctuation.contains c || g.rules.extraPunctuation.contains c

/-- The character is a punctuation mark that ends a sentence. -/
def isTerminal (g : Guide) (c : Char) : Bool :=
  g.isPunctuation c && !([',', ';', ':'].contains c)

/-- The parts that a document may have, in order, if it declares no order of its own. -/
def candidates : Guide → DocumentType → List Part
  | mla9, .paper => [.abstract, .preface, .acknowledgements, .appendix, .endnotes, .bibliography]
  | mla9, .book =>
    [.titlePage, .abstract, .preface, .acknowledgements, .tableOfContents, .appendix, .endnotes,
      .bibliography]
  | house, .paper =>
    [.titlePage, .abstract, .preface, .acknowledgements, .appendix, .endnotes, .bibliography,
      .academicIntegrity]
  | house, .book =>
    [.titlePage, .preface, .acknowledgements, .abstract, .tableOfContents, .appendix, .endnotes,
      .bibliography]

end Guide

end Manuscript
