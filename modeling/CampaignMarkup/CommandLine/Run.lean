import CampaignMarkup.CommandLine.Help
import CampaignMarkup.CommandLine.Invocation
import CampaignMarkup.Comment.Spacing
import CampaignMarkup.Record.Table
import CampaignMarkup.Settings.Files
import CampaignMarkup.Text.Escaped
import CampaignMarkup.Token.Concatenation

/-! # Running commands

A command line is run on a file tree and leaves a file tree, with a text for the standard output
and an exit code. Whatever preprocesses reads the paths of the settings first, in the same
session.
-/
namespace CampaignMarkup

inductive CommandError where
  | settings (error : SettingsError)
  | options (error : VersionError)
  | preprocessing (failure : Failure)
  | unreadable (path : Path) (error : FileError)
  | unwritable (path : Path) (error : FileError)
  | table (error : UnequalWidth)
  | access (error : Comment.AccessError)
deriving DecidableEq, Repr, Inhabited

/-- The error and what caused it, outermost first. -/
def CommandError.chain : CommandError → List String
  | .settings error => [error.message]
  | .options error => ["invalid preprocessor configuration", error.message]
  | .preprocessing failure => failure.message :: failure.cause?.toList
  | .unreadable path error => ["failed to read " ++ path.text, error.message]
  | .unwritable path error => ["failed to write " ++ path.text, error.message]
  | .table error => ["failed to encode CSV", error.message]
  | .access error => [error.message, error.obstacle.message]

def CommandError.message (e : CommandError) : String :=
  "Error: " ++ String.intercalate ": " e.chain ++ "\n"

/-- The tree after a command, and what it prints. -/
abbrev CommandResult := FileTree × Except CommandError String

namespace Command

/-- Prints a text, or writes it to a file. -/
def emit (tree : FileTree) (output : Option Path) (text : String) : CommandResult :=
  match output with
  | none => (tree, .ok text)
  | some path =>
    match tree.write path text with
    | .ok tree => (tree, .ok "")
    | .error error => (tree, .error (.unwritable path error))

/-- Preprocesses the included paths and then the given ones. The text is that of the given
ones. -/
def preprocessAll (env : Environment) (includes paths : List Path) :
    Except CommandError (Session × String) :=
  let before := subparseAll env includes {}
  match before.result with
  | .error failure => .error (.preprocessing failure)
  | .ok _ =>
    let report := subparseAll env paths before.session
    match report.result with
    | .error failure => .error (.preprocessing failure)
    | .ok text => .ok (report.session, text)

def tokenLine (t : Token) : String :=
  t.kind.label ++ " " ++ Text.escaped t.content ++ "\n"

def tokenJson (t : Token) : JsonValue :=
  .object [
    ("kind", .string t.kind.label),
    ("content", .string t.content),
    ("span", .object [("start", .nat t.span.start), ("end", .nat t.span.stop)])]

def showTokens (format : TokenFormat) (tokens : List Token) : String :=
  match format with
  | .simple => String.join (tokens.map tokenLine)
  | .json => (JsonValue.array (tokens.map tokenJson)).pretty 0

def definitionLine (d : Definition) : String :=
  d.signature ++ "\t" ++ d.site.display ++ "\n"

/-- Gives the result of a computation that leaves the tree alone to `next`. -/
def after {α : Type} (tree : FileTree) (result : Except CommandError α)
    (next : α → CommandResult) : CommandResult :=
  match result with
  | .ok a => next a
  | .error error => (tree, .error error)

def run (tree : FileTree) (settings : Settings) (options : Options) : Command → CommandResult
  | .preprocess paths output =>
    after tree (preprocessAll ⟨tree, settings.resolver, options⟩ settings.includes paths)
      fun (_, text) => emit tree output text
  | .tokens path format =>
    match tree.read path with
    | .ok source => (tree, .ok (showTokens format (lex source)))
    | .error error => (tree, .error (.unreadable path error))
  | .defines paths =>
    after tree (preprocessAll ⟨tree, settings.resolver, options⟩ settings.includes paths)
      fun (session, _) => (tree, .ok (String.join (session.macros.rows.map definitionLine)))
  | .records paths tag columns output =>
    let options := { options with extractRecords := true }
    after tree (preprocessAll ⟨tree, settings.resolver, options⟩ settings.includes paths)
      fun (session, _) =>
        let table := RecordTable.project session.records (tag.getD settings.tag)
          (columns.getD settings.columns)
        match table.csv with
        | .ok text => emit tree output text
        | .error error => (tree, .error (.table error))
  | .sanitize path =>
    let (tree, changed) := Comment.spaceTree tree path options.includeExtensions
    match changed with
    | .ok paths => (tree, .ok (String.join (paths.map fun p => "Changed: " ++ p.text ++ "\n")))
    | .error error => (tree, .error (.access error))

end Command

namespace Invocation

/-- The settings file that is read if none is named. -/
def defaultConfig : Path := ⟨"wml.toml"⟩

/-- The settings of an invocation. -/
def settings (i : Invocation) (tree : FileTree) : Except SettingsError Settings := do
  let file : SettingsFile := match i.config with
    | some path => ⟨path, true⟩
    | none => ⟨defaultConfig, false⟩
  let overrides := (i.dataDir.map fun d => ("paths.data_dir", SettingValue.string d)).toList
    ++ (i.userDataDir.map fun d => ("paths.user_data_dir", SettingValue.string d)).toList
  let settings ← Settings.load tree [file] overrides
  return { settings with includes := settings.includes ++ i.includes }

def run (i : Invocation) (tree : FileTree) : CommandResult :=
  match i.settings tree with
  | .error error => (tree, .error (.settings error))
  | .ok settings =>
    match settings.options with
    | .error error => (tree, .error (.options error))
    | .ok options => i.command.run tree settings options

end Invocation

/-- What a finished program leaves. -/
structure ProgramResult where
  code : Nat := 0
  stdout : String := ""
  stderr : String := ""
  tree : FileTree
deriving DecidableEq, Repr, Inhabited

/-- Runs a command line. An error of the command has the code 1, one of the command line 2. -/
def runProgram (tree : FileTree) (arguments : List String) : ProgramResult :=
  match Invocation.read arguments with
  | .error (.help rule) => { stdout := CommandLine.help rule, tree }
  | .error .version => { stdout := CommandLine.versionText, tree }
  | .error (.usage error) => { code := 2, stderr := "error: " ++ error.message ++ "\n", tree }
  | .ok invocation =>
    match invocation.run tree with
    | (tree, .ok stdout) => { stdout, tree }
    | (tree, .error error) => { code := 1, stderr := error.message, tree }

end CampaignMarkup
