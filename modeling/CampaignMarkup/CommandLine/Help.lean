import CampaignMarkup.CommandLine.Reader

/-! # Help

What the program says about itself and about a command line it cannot run.
-/
namespace CampaignMarkup

namespace CommandLine

def indent (n : Nat) : String :=
  String.ofList (List.replicate n ' ')

/-- Rows of two columns, the second beginning at one place. -/
def columns (rows : List (String × String)) : String :=
  let width := (rows.map fun (left, _) => left.length).foldl max 0
  String.join (rows.map fun (left, right) =>
    "  " ++ left ++ indent (width - left.length + 2) ++ right ++ "\n")

def optionUsage (o : OptionRule) : String :=
  let short := match o.short with
    | some c => String.ofList ['-', c] ++ ", "
    | none => indent 4
  let value := match o.kind with
    | .value .. => " <" ++ o.name ++ ">"
    | .counter => "..."
    | _ => ""
  short ++ "--" ++ o.name ++ value

def optionHelp (o : OptionRule) : String :=
  match o.kind with
  | .value (.oneOf choices) _ =>
    o.about ++ " [default: " ++ choices.headD "" ++ "] [possible values: "
      ++ String.intercalate ", " choices ++ "]"
  | _ => o.about

def pathsUsage (p : PathsRule) : String :=
  "<" ++ p.name ++ ">" ++ if p.many then "..." else ""

def optionsHelp (rule : CommandRule) : String :=
  "Options:\n" ++ columns (rule.options.map fun o => (optionUsage o, optionHelp o))

def commandHelp (rule : CommandRule) : String :=
  let paths := rule.paths.toList
  rule.about ++ "\n\nUsage: " ++ programName ++ " " ++ rule.name ++ " [OPTIONS]"
    ++ String.join (paths.map fun p => " " ++ pathsUsage p)
    ++ "\n\nArguments:\n" ++ columns (paths.map fun p => (pathsUsage p, p.about))
    ++ "\n" ++ optionsHelp rule

def programHelp : String :=
  let rows := commands.map (fun c => (c.name, c.about))
    ++ [(helpCommand, "Print this message or the help of the given subcommand(s)")]
  program.about ++ "\n\nUsage: " ++ programName ++ " [OPTIONS] <COMMAND>\n\nCommands:\n"
    ++ columns rows ++ "\n" ++ optionsHelp program

def help : Option CommandRule → String
  | none => programHelp
  | some rule => commandHelp rule

def versionText : String :=
  programName ++ " " ++ programVersion ++ "\n"

end CommandLine

def UsageError.message : UsageError → String
  | .unknownArgument argument => "unexpected argument '" ++ argument ++ "' found"
  | .missingValue option => "a value is required for '--" ++ option ++ "' but none was supplied"
  | .unexpectedValue option => "unexpected value for '--" ++ option ++ "'"
  | .invalidValue name value => "invalid value '" ++ value ++ "' for '" ++ name ++ "'"
  | .repeated option => "the argument '--" ++ option ++ "' cannot be used multiple times"
  | .conflict option other =>
    "the argument '--" ++ option ++ "' cannot be used with '--" ++ other ++ "'"
  | .missingPaths name => "the following required arguments were not provided: <" ++ name ++ ">"
  | .missingCommand => "a subcommand is required but one was not provided"
  | .unknownCommand name => "unrecognized subcommand '" ++ name ++ "'"

end CampaignMarkup
