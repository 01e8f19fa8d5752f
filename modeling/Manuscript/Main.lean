import Manuscript.Command
import Manuscript.Compilation.Compile
import Manuscript.Document.Encode
import Manuscript.Specification.Listing
import Std.Time.Zoned

/-!
# The program

Reads files, prints what a command asks for and says on the error stream what went wrong.
-/

namespace Manuscript.Program

/-- The settings file that is read from the working directory if it exists. -/
def settingsFile : String := "pipp.toml"

/-- The exit code of a command line that cannot be understood. -/
def usageCode : UInt32 := 2

/-- Print a message on the error stream and fail. -/
def stopWith (message : String) : IO UInt32 := do
  IO.eprintln message
  return 1

/-- A file of settings, or nothing if it cannot be read. -/
def readSettings (path : String) (required : Bool) : IO Settings.SettingsFile := do
  let content ← try pure (some (← IO.FS.readFile path)) catch _ => pure none
  return ⟨content, required⟩

/-- Hand the text of a file on. -/
def withSource (path : String) (use : String → IO UInt32) : IO UInt32 := do
  match ← (IO.FS.readFile path).toBaseIO with
  | .ok source => use source
  | .error e => stopWith ("Error reading file: " ++ toString e)

/-- The day of the system's clock. -/
def today : IO Date := do
  let d ← Std.Time.PlainDate.now
  return ⟨d.year, d.month.val.toNat, d.day.val.toNat⟩

/-- Compile a file and print its document, with warnings on the error stream. -/
def compileFile (path : String) (options : Settings.Options) : IO UInt32 := do
  let compiler : Compiler := { defaultStyle := options.defaultStyle, today := ← today }
  let (outcome, warnings) ← match ← (IO.FS.readFile path).toBaseIO with
    | .ok source => pure (compiler.compile source)
    | .error e => pure (.error (.unreadable path (toString e)), [])
  match outcome with
  | .error e => stopWith ("Compilation failed: " ++ e.message)
  | .ok document =>
    for w in Warning.atLeast options.minimumSeverity warnings do
      IO.eprintln ("warning " ++ w.display)
    IO.println (document.toText options.pretty)
    return 0

/-- Do what a command asks for. -/
def run : Command → IO UInt32
  | .help => do
    IO.println Command.usage
    return 0
  | .version => do
    IO.println "pipp 0.1.0"
    return 0
  | .guides => do
    IO.println "Registered style guides:\n"
    for name in GuideTable.full.names do
      IO.println ("  " ++ name)
    return 0
  | .tokens path => withSource path fun source => do
    match tokenize source with
    | .error e => stopWith ("Scan failed: " ++ e.message)
    | .ok tokens =>
      for t in tokens do
        IO.println t.display
      return 0
  | .tree path => withSource path fun source => do
    match parse source with
    | .error e => stopWith ("Parse failed: " ++ e.message)
    | .ok spec =>
      IO.println spec.listing
      return 0
  | .compile path config overrides => do
    let own ← readSettings settingsFile false
    let further ← config.toList.mapM (readSettings · true)
    match Settings.load (own :: further) overrides with
    | .error e => stopWith ("Error loading configuration: " ++ e.message)
    | .ok options => compileFile path options

end Manuscript.Program

open Manuscript in
/-- Do what the command line asks for. -/
def main (arguments : List String) : IO UInt32 := do
  match Command.ofArguments arguments with
  | .ok command => Program.run command
  | .error e =>
    IO.eprintln ("error: " ++ e.message ++ "\n\n" ++ Command.usage)
    return Program.usageCode
