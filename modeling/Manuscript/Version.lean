import Manuscript.Failure

/-!
# Language versions

A specification may declare the version of the language that it is written in. Other versions than
the supported ones are refused before anything else is looked at.
-/

namespace Manuscript

/-- The versions of the language that are understood. -/
def supportedVersions : List String := ["1.0"]

/-- The version of the compiler that is written into documents. -/
def compilerVersion : String := "1.0"

/-- The declared version is a supported one; white space around it does not count. -/
def checkVersion (version : String) (position : Option Position) : Except Failure Unit :=
  if supportedVersions.contains (Text.trim version) then .ok ()
  else .error (.unsupportedVersion (Text.trim version) supportedVersions position)

end Manuscript
