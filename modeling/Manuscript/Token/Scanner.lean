import Manuscript.Token.Lexer

/-!
# Scanners

A scanner is a lexer together with the tokens that it has completed and that nobody has taken yet.
It can be fed in pieces, and its tokens can be taken at any time.
-/

namespace Manuscript

/-- A lexer and the tokens that wait to be taken, oldest first. -/
structure Scanner where
  lexer : Lexer := {}
  ready : List Token := []
deriving DecidableEq

namespace Scanner

/-- The scanner after a step of its lexer, and the error of the step. -/
def afterStep (s : Scanner) (step : Lexer.Step) : Scanner × Option LexicalError :=
  (⟨step.lexer, s.ready ++ step.tokens⟩, step.error)

/-- Read one character. -/
def feed (s : Scanner) (c : Char) : Scanner × Option LexicalError := s.afterStep (s.lexer.step c)

/-- Read characters up to and including the first that cannot stand where it does. -/
def feedAll (s : Scanner) : List Char → Scanner × Option LexicalError
  | [] => (s, none)
  | c :: rest =>
    match s.feed c with
    | (s, some e) => (s, some e)
    | (s, none) => feedAll s rest

/-- Read the end of the source. -/
def finish (s : Scanner) : Scanner × Option LexicalError := s.afterStep s.lexer.finish

/-- Take the oldest waiting token. -/
def next (s : Scanner) : Option Token × Scanner :=
  match s.ready with
  | [] => (none, s)
  | t :: rest => (some t, { s with ready := rest })

/-- The scanner after all its waiting tokens were taken. -/
def drained (s : Scanner) : Scanner := { s with ready := [] }

end Scanner

end Manuscript
