import Manuscript.Settings.Layer
import Manuscript.Toml.Read
import Manuscript.Warning

/-!
# Options

What can be set about a compilation: the guide of documents that name none, the least severity of
warnings that are shown, and the layout of the document file. Options come from the defaults, then
from a settings file, then from the command line.
-/

namespace Manuscript.Settings

open Manuscript.Toml (Value Numeral)

/-- What can be set about a compilation. -/
structure Options where
  /-- The guide of documents that name none. -/
  defaultStyle : String
  /-- The least severity of the warnings that are shown. -/
  minimumSeverity : Severity
  /-- The document file is indented. -/
  pretty : Bool
deriving DecidableEq

/-! ## Layers -/

/-- The options without any settings. -/
def defaults : Options := ⟨"pipp", .low, true⟩

/-- What the command line says about the options. -/
structure Overrides where
  style : Option String := none
  severity : Option String := none
  compact : Bool := false

/-- The settings that stand for options. -/
def Options.toValue (o : Options) : Value :=
  .table
    [("compiler", .table [("default_style", .text o.defaultStyle)]),
      ("diagnostics", .table [("minimum_severity", .text o.minimumSeverity.spelling)]),
      ("output", .table [("pretty", .flag o.pretty)])]

/-- Lay a value over one field of a section, if there is one. -/
def putField (group field : String) (v : Option Value) (base : Value) : Value :=
  match v with
  | some v => Path.put ⟨group, [.key field]⟩ v base
  | none => base

/-- Lay the words of the command line over settings. -/
def Overrides.over (o : Overrides) (base : Value) : Value :=
  putField "output" "pretty" (if o.compact then some (.flag false) else none)
    (putField "diagnostics" "minimum_severity" (o.severity.map .text)
      (putField "compiler" "default_style" (o.style.map .text) base))

/-! ## Reading options -/

/-- The text that a single value is. -/
def text? : Value → Option String
  | .text s => some s
  | .number (.whole n) => some (toString n)
  | .number (.real x) => some x.plain
  | .number .notANumber => some "NaN"
  | .flag b => some (if b then "true" else "false")
  | .moment m => some m.text
  | .list _ => none
  | .table _ => none

/-- The texts that stand for yes and for no. -/
def flagWords : List (String × Bool) :=
  [("1", true), ("true", true), ("on", true), ("yes", true), ("0", false), ("false", false),
    ("off", false), ("no", false)]

/-- The flag that a value stands for. Of numbers, zero stands for no. -/
def flag? : Value → Option Bool
  | .flag b => some b
  | .number (.whole n) => some (n != 0)
  | .number (.real x) => some !x.isZero
  | .number .notANumber => some true
  | .text s => flagWords.lookup (Text.lowercase s)
  | .moment _ => none
  | .list _ => none
  | .table _ => none

/-- The severity with a name, in any case. -/
def severityNamed? (s : String) : Option Severity :=
  [Severity.low, .high, .critical].find? fun severity =>
    severity.spelling == Text.lowercase s

/-- The severity that a value stands for: its name, or a table with its name as the only key. -/
def severity? : Value → Option Severity
  | .text s => severityNamed? s
  | .table [(key, _)] => severityNamed? key
  | _ => none

/-- The only field of a section: the value of a key in a table, or the first value of a list. -/
def field? (key : String) : Value → Option Value
  | .table entries => entries.lookup key
  | .list values => values.head?
  | _ => none

/-- The options that settings stand for. -/
def Options.ofValue? (settings : Value) : Option Options := do
  let section? (key : String) := (entriesOf settings).lookup key
  return {
    defaultStyle := ← text? (← field? "default_style" (← section? "compiler"))
    minimumSeverity := ← severity? (← field? "minimum_severity" (← section? "diagnostics"))
    pretty := ← flag? (← field? "pretty" (← section? "output")) }

/-! ## Loading -/

/-- Why options cannot be told. -/
inductive SettingsError where
  /-- There is no such file. -/
  | missing
  /-- The file is no settings file. -/
  | malformed
  /-- A setting has a value that it cannot have. -/
  | unsuitable
deriving DecidableEq

/-- The error in words. -/
def SettingsError.message : SettingsError → String
  | missing => "configuration file not found"
  | malformed => "the configuration file is not well formed"
  | unsuitable => "a setting has a value of the wrong type"

/-- A place where settings may be read from. -/
structure SettingsFile where
  /-- The text of the file, if it exists. -/
  content : Option String
  /-- The file has to exist. -/
  required : Bool

/-- Lay a file over settings. A byte order mark in front of the file is no part of its text. -/
def SettingsFile.over (base : Value) (file : SettingsFile) : Except SettingsError Value :=
  match file.content with
  | none => if file.required then .error .missing else .ok base
  | some content =>
    match Toml.read? (Toml.withoutMark content.toList) with
    | some layer => .ok (overlay base layer)
    | none => .error .malformed

/-- The options that files and the command line leave, each laid over the ones before. -/
def load (files : List SettingsFile) (overrides : Overrides) : Except SettingsError Options := do
  let settings ← files.foldlM SettingsFile.over defaults.toValue
  match Options.ofValue? (overrides.over settings) with
  | some options => .ok options
  | none => .error .unsuitable

end Manuscript.Settings
