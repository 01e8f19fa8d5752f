import Manuscript.Grammar.SyntaxError
import Manuscript.Token.Lexer
import Manuscript.Validation.Fault

/-!
# Failures

Everything that ends a compilation without a document.
-/

namespace Manuscript

/-- Why there is no document. -/
inductive Failure where
  | unsupportedVersion (version : String) (supported : List String) (position : Option Position)
  | lexical (error : LexicalError)
  /-- The syntax errors of all sections, in the order they were found. -/
  | grammar (errors : List SyntaxError)
  | invalid (fault : Fault)
  /-- The first part must stand before the second. -/
  | partOrder (part anchor : Part)
  | unknownGuide (name : String) (known : List String) (position : Option Position)
  /-- The source cannot be read from its file. -/
  | unreadable (path reason : String)
deriving DecidableEq

namespace Failure

/-- Where the failure was found, if a position can be named. -/
def position : Failure → Option Position
  | unsupportedVersion _ _ p | unknownGuide _ _ p => p
  | lexical e => some e.position
  | grammar errors => errors.head?.map SyntaxError.position
  | invalid fault => fault.position
  | partOrder _ _ | unreadable _ _ => none

/-- The failure in words. -/
def message : Failure → String
  | unsupportedVersion version supported p =>
      "specification version \"" ++ version ++ "\" is not supported (supported: "
        ++ Text.joinWith ", " supported ++ ")" ++ Position.suffix p
  | lexical e => "lexical error: " ++ e.message
  | grammar errors => Text.joinWith "\n" (errors.map SyntaxError.display)
  | invalid fault => fault.display
  | partOrder part anchor =>
      "structure error: the " ++ part.name ++ " section must come before the " ++ anchor.name
        ++ " section"
  | unknownGuide name known p =>
      "unknown style guide \"" ++ name ++ "\" (known styles: " ++ Text.joinWith ", " known ++ ")"
        ++ Position.suffix p
  | unreadable path reason => "failed to read " ++ path ++ ": " ++ reason

end Failure

end Manuscript
