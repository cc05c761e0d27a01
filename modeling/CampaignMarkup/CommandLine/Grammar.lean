/-! # Grammar of the command line

Which commands there are and which arguments each takes. Global options may stand before or
behind the command.
-/
namespace CampaignMarkup

/-- What an option's value may be. -/
inductive ValueKind where
  | text
  /-- A text that is not empty. -/
  | path
  | oneOf (choices : List String)
  /-- Texts between commas. -/
  | texts
deriving DecidableEq, Repr, Inhabited

inductive OptionKind where
  /-- Given at most once, without a value. -/
  | flag
  /-- Given any number of times, without a value. -/
  | counter
  | value (kind : ValueKind) (repeatable : Bool)
  | help
  | version
deriving DecidableEq, Repr, Inhabited

structure OptionRule where
  name : String
  short : Option Char := none
  kind : OptionKind
  about : String
deriving DecidableEq, Repr, Inhabited

def OptionRule.takesValue (o : OptionRule) : Bool :=
  match o.kind with
  | .value .. => true
  | _ => false

/-- The paths a command works on. -/
structure PathsRule where
  name : String
  /-- Whether there may be more than one. -/
  many : Bool
  about : String
deriving DecidableEq, Repr, Inhabited

structure CommandRule where
  name : String
  about : String
  paths : Option PathsRule := none
  options : List OptionRule := []
deriving DecidableEq, Repr, Inhabited

namespace CommandLine

def programName : String := "wml"

def programVersion : String := "0.1.0"

def globalOptions : List OptionRule := [
  { name := "config", short := some 'c', kind := .value .path false
    about := "Configuration file layered over the built-in defaults" },
  { name := "data-dir", kind := .value .text false, about := "Game data directory" },
  { name := "user-data-dir", kind := .value .text false
    about := "User data directory (target of `~` paths)" },
  { name := "include", short := some 'I', kind := .value .path true
    about := "Path to preprocess before the inputs (repeatable)" },
  { name := "verbose", short := some 'v', kind := .counter
    about := "Log more (-v debug, -vv trace)" },
  { name := "quiet", short := some 'q', kind := .flag, about := "Only log errors" }]

def helpOption : OptionRule :=
  { name := "help", short := some 'h', kind := .help, about := "Print help" }

def versionOption : OptionRule :=
  { name := "version", short := some 'V', kind := .version, about := "Print version" }

def outputOption : OptionRule :=
  { name := "output", short := some 'o', kind := .value .path false
    about := "Write to this file instead of stdout" }

def inputPaths : PathsRule :=
  { name := "paths", many := true, about := "Files or directories to process, in order" }

/-- The program itself: what may stand before a command. -/
def program : CommandRule where
  name := programName
  about := "A tool for preprocessing and inspecting WML trees"
  options := globalOptions ++ [helpOption, versionOption]

/-- A command with its own options before the global ones. -/
def command (name about : String) (paths : PathsRule) (options : List OptionRule) : CommandRule :=
  ⟨name, about, some paths, options ++ globalOptions ++ [helpOption]⟩

def commands : List CommandRule := [
  command "preprocess" "Preprocess files and print the flat output" inputPaths [outputOption],
  command "tokens" "Dump the token stream of a file"
    { name := "path", many := false, about := "File to lex" }
    [{ name := "format", short := some 'f', kind := .value (.oneOf ["simple", "json"]) false
       about := "Output format" }],
  command "defines" "List the macros defined by the given files" inputPaths [],
  command "export" "Export records of one tag as CSV" inputPaths [
    { name := "tag", short := some 't', kind := .value .text false
      about := "Record tag to export (default from configuration)" },
    { name := "columns", kind := .value .texts false
      about := "Comma separated attribute names (default from configuration)" },
    outputOption],
  command "sanitize" "Insert a space after `#` on comment lines, in place"
    { name := "path", many := false, about := "File or directory to sanitize" } []]

/-- The command that explains the others. -/
def helpCommand : String := "help"

end CommandLine

end CampaignMarkup
