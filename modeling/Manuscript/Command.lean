import Manuscript.Settings.Options

/-!
# The command line

What the words of a command line ask for: to compile a specification, to show its tree or its
tokens, or to list the style guides.
-/

namespace Manuscript

open Manuscript.Settings (Overrides)

/-- What a command line asks for. -/
inductive Command where
  /-- Print the document of a specification. -/
  | compile (path : String) (config : Option String) (overrides : Overrides)
  /-- Print the tree of a specification. -/
  | tree (path : String)
  /-- Print the tokens of a specification. -/
  | tokens (path : String)
  /-- Print the names of the style guides. -/
  | guides
  /-- Explain the command line. -/
  | help
  /-- Print the version of the program. -/
  | version

/-- Why a command line asks for nothing. -/
inductive UsageError where
  | noCommand
  | unknownCommand (word : String)
  | unknownOption (word : String)
  | unexpectedWord (word : String)
  | repeatedOption (option : String)
  | missingValue (option : String)
  | missingPath
deriving DecidableEq

/-- The error in words. -/
def UsageError.message : UsageError → String
  | noCommand => "a command is required"
  | unknownCommand word => "unrecognized command '" ++ word ++ "'"
  | unknownOption word => "unexpected option '" ++ word ++ "'"
  | unexpectedWord word => "unexpected argument '" ++ word ++ "'"
  | repeatedOption option => "the option '--" ++ option ++ "' cannot be used more than once"
  | missingValue option => "a value is required for '--" ++ option ++ "'"
  | missingPath => "the path of a specification is required"

namespace Command

/-- How the command line is used. -/
def usage : String := String.join
  ["A compiler for pipp document specifications\n\n",
    "Usage: pipp [OPTIONS] <COMMAND>\n\n",
    "Commands:\n",
    "  compile <path>  Compile a specification into a document model\n",
    "  ast <path>      Print the parsed configuration tree\n",
    "  tokens <path>   Print the token stream\n",
    "  list-styles     List the registered style guides\n",
    "  help            Print this message\n\n",
    "Options:\n",
    "  -c, --config <config>      Configuration file layered over the built-in defaults\n",
    "  -s, --style <style>        Style guide for documents that declare none (compile)\n",
    "      --severity <severity>  Lowest warning severity to report (compile)\n",
    "      --compact              Print the document model on a single line (compile)\n",
    "  -h, --help                 Print help\n",
    "  -V, --version              Print version"]

/-! ## Words and options -/

/-- The options of a command line. -/
inductive Switch where
  | config
  | style
  | severity
  | compact
  | help
  | version
deriving DecidableEq

/-- The long name of an option. -/
def Switch.name : Switch → String
  | config => "config"
  | style => "style"
  | severity => "severity"
  | compact => "compact"
  | help => "help"
  | version => "version"

/-- The option is followed by a value. -/
def Switch.takesValue : Switch → Bool
  | config | style | severity => true
  | compact | help | version => false

/-- The options by their long names. -/
def longSwitch? (name : String) : Option Switch :=
  [Switch.config, .style, .severity, .compact, .help, .version].find? (·.name == name)

/-- The options by their letters. -/
def shortSwitch? (letter : Char) : Option Switch :=
  [('c', Switch.config), ('s', .style), ('h', .help), ('V', .version)].lookup letter

/-- The option that a word names, and the value that is a part of the word; nothing if the word
names no option. -/
def switch? (word : String) : Option (Except UsageError (Switch × Option String)) :=
  match word.toList with
  | '-' :: '-' :: rest =>
    let (name, value) := rest.span (· != '=')
    some <| match longSwitch? (String.ofList name), value with
      | none, _ => .error (.unknownOption word)
      | some s, [] => .ok (s, none)
      | some s, _ :: cs => .ok (s, some (String.ofList cs))
  | ['-'] => none
  | '-' :: letter :: rest =>
    some <| match shortSwitch? letter, rest with
      | none, _ => .error (.unknownOption word)
      | some s, [] => .ok (s, none)
      | some s, '=' :: cs => .ok (s, some (String.ofList cs))
      | some s, cs => .ok (s, some (String.ofList cs))
  | _ => none

/-- A command line, sorted into options with their values and other words. -/
structure Sorted where
  switches : List (Switch × String) := []
  words : List String := []

/-- Add an option that is given once. -/
def Sorted.add (l : Sorted) (s : Switch) (value : String) : Except UsageError Sorted :=
  if (l.switches.lookup s).isSome then .error (.repeatedOption s.name)
  else .ok { l with switches := l.switches ++ [(s, value)] }

/-- Sort a command line. An option with a value takes the next word unless the value is a part of
its own; behind two hyphens there are no options. -/
def sort (l : Sorted) : List String → Except UsageError Sorted
  | [] => .ok l
  | "--" :: rest => .ok { l with words := l.words ++ rest }
  | word :: rest =>
    match switch? word with
    | none => sort { l with words := l.words ++ [word] } rest
    | some (.error e) => .error e
    | some (.ok (s, given)) =>
      match s.takesValue, given, rest with
      | true, some value, rest => do sort (← l.add s value) rest
      | true, none, value :: rest =>
        if (switch? value).isSome then .error (.missingValue s.name)
        else do sort (← l.add s value) rest
      | true, none, [] => .error (.missingValue s.name)
      | false, none, rest => do sort (← l.add s "") rest
      | false, some _, _ => .error (.unknownOption word)

/-! ## Commands -/

/-- The command has no other options than these. -/
def Sorted.onlyWith (l : Sorted) (allowed : List Switch) (command : Command) :
    Except UsageError Command :=
  match l.switches.find? fun (s, _) => !allowed.contains s with
  | some (s, _) => .error (.unknownOption ("--" ++ s.name))
  | none => .ok command

/-- The only word behind a command. -/
def path : List String → Except UsageError String
  | [] => .error .missingPath
  | [path] => .ok path
  | _ :: word :: _ => .error (.unexpectedWord word)

/-- What a sorted command line asks for. -/
def ofSorted (l : Sorted) : Except UsageError Command :=
  if (l.switches.lookup .help).isSome then .ok .help
  else if (l.switches.lookup .version).isSome then .ok .version
  else
    match l.words with
    | [] => .error .noCommand
    | "help" :: _ => .ok .help
    | "compile" :: words => do
      let overrides : Overrides :=
        ⟨l.switches.lookup .style, l.switches.lookup .severity,
          (l.switches.lookup .compact).isSome⟩
      return .compile (← path words) (l.switches.lookup .config) overrides
    | "ast" :: words => do l.onlyWith [.config] (.tree (← path words))
    | "tokens" :: words => do l.onlyWith [.config] (.tokens (← path words))
    | ["list-styles"] => l.onlyWith [.config] .guides
    | "list-styles" :: word :: _ => .error (.unexpectedWord word)
    | word :: _ => .error (.unknownCommand word)

/-- What a command line asks for. -/
def ofArguments (arguments : List String) : Except UsageError Command :=
  (sort {} arguments).bind ofSorted

end Command

end Manuscript
