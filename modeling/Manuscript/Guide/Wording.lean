import Manuscript.Calendar
import Manuscript.Citation.Name
import Manuscript.Guide.Rules

/-!
# What a guide prints

Dates, headings, lists of authors, references in the text and the declaration of integrity, in the
words of each guide.
-/

namespace Manuscript.Guide

/-- A date. -/
def date : Guide → Date → String
  | mla9, d => d.dayFirst
  | house, d => d.monthFirst

/-- The heading of a bibliography with a number of entries. -/
def bibliographyTitle : Guide → Nat → String
  | mla9, 1 => "Work Cited"
  | mla9, _ => "Works Cited"
  | house, _ => "Bibliography"

/-- The heading of the endnotes. -/
def endnotesTitle : Guide → String
  | mla9 => "Notes"
  | house => "Endnotes"

/-- Texts with commas between them and a sign in front of the last. -/
def joinWithLast (sign : String) (texts : List String) : String :=
  match texts.getLast? with
  | none => ""
  | some last =>
    if texts.dropLast.isEmpty then last
    else Text.joinWith ", " texts.dropLast ++ sign ++ last

/-- The authors at the head of a bibliography entry, without a full stop. -/
def authorList : Guide → List PersonalName → String
  | mla9, [] => ""
  | mla9, [only] => only.inverted
  | mla9, [first, second] => first.inverted ++ ", and " ++ second.full
  | mla9, first :: _ => first.inverted ++ ", et al."
  | house, names => joinWithLast " & " (names.map PersonalName.full)

/-- The authors in a reference, or the title where there are none; `sign` joins two authors. -/
def referent (sign titled : String) : List PersonalName → String
  | [] => titled
  | [only] => only.surname
  | [first, second] => first.surname ++ sign ++ second.surname
  | first :: _ => first.surname ++ " et al."

/-- The reference behind cited material. -/
def reference (g : Guide) (names : List PersonalName) (title : String) (page : Option String) :
    String :=
  match g with
  | mla9 =>
    let source := referent " and " ("\"" ++ title ++ "\"") names
    "(" ++ source ++ page.elim "" (" " ++ ·) ++ ")"
  | house =>
    let source := referent " & " title names
    "[" ++ source ++ page.elim "" (", p. " ++ ·) ++ "]"

/-- The first sentence of the declaration of academic integrity. -/
def integrityStatement (g : Guide) (authors : String) (type : DocumentType) : String :=
  match g with
  | mla9 =>
    "I, " ++ authors ++ ", certify that this " ++ type.name
      ++ " is my own work and that every source is documented."
  | house =>
    "I hereby declare that this " ++ type.name ++ " was written by " ++ authors
      ++ " and that all sources used are acknowledged."

end Manuscript.Guide
