import CampaignMarkup.Editor.Workspace
import CampaignMarkup.Settings.Layer

/-! # Settings

What the tools are configured with, and the defaults that every file is laid over.
-/
namespace CampaignMarkup

structure Settings where
  dataDir : Path
  userDataDir : Path
  /-- Preprocessed, in order, before any input. -/
  includes : List Path
  maxDepth : Nat
  undefinedMacro : UndefinedMacroPolicy
  /-- The version as text; it is read when the options are asked for. -/
  referenceVersion : String
  includeExtensions : List String
  extractRecords : Bool
  /-- The tag of exported records. -/
  tag : String
  columns : List String
  logLevel : String
deriving DecidableEq, Repr, Inhabited

def UndefinedMacroPolicy.name : UndefinedMacroPolicy → String
  | .error => "error"
  | .passthrough => "passthrough"

namespace Settings

def defaults : SettingValue :=
  .table [
    ("paths", .table [
      ("data_dir", .string "."),
      ("user_data_dir", .string "."),
      ("include", .array [])]),
    ("preprocessor", .table [
      ("max_depth", .integer 100),
      ("undefined_macro", .string "error"),
      ("reference_version", .string "1.18.0"),
      ("include_extensions", .array [.string "cfg"]),
      ("extract_records", .boolean true)]),
    ("export", .table [
      ("tag", .string "unit_type"),
      ("columns", .array (["id", "name", "race", "hitpoints", "movement", "level", "cost"].map
        SettingValue.string))]),
    ("logging", .table [("level", .string "warn")])]

def policy? : SettingValue → Option UndefinedMacroPolicy :=
  SettingValue.asChoice? ([.error, .passthrough].map fun p => (p.name, p))

/-- The settings of a root table, if every one of them has a value of its type. -/
def ofValue? (root : SettingValue) : Option Settings := do
  let [paths, preprocessor, exports, logging] ←
    root.asFields? ["paths", "preprocessor", "export", "logging"] | none
  let dataDir :: userDataDir :: includes :: _ ←
    paths.asFields? ["data_dir", "user_data_dir", "include"] | none
  let maxDepth :: undefinedMacro :: referenceVersion :: includeExtensions :: extractRecords :: _ ←
    preprocessor.asFields? ["max_depth", "undefined_macro", "reference_version",
      "include_extensions", "extract_records"] | none
  let tag :: columns :: _ ← exports.asFields? ["tag", "columns"] | none
  let level :: _ ← logging.asFields? ["level"] | none
  return {
    dataDir := ⟨← dataDir.asText?⟩
    userDataDir := ⟨← userDataDir.asText?⟩
    includes := (← includes.asTexts?).map Path.mk
    maxDepth := ← maxDepth.asNatural?
    undefinedMacro := ← policy? undefinedMacro
    referenceVersion := ← referenceVersion.asText?
    includeExtensions := ← includeExtensions.asTexts?
    extractRecords := ← extractRecords.asBool?
    tag := ← tag.asText?
    columns := ← columns.asTexts?
    logLevel := ← level.asText? }

def resolver (s : Settings) : Resolver :=
  ⟨s.dataDir, s.userDataDir⟩

def options (s : Settings) : Except VersionError Options := do
  return {
    maxDepth := s.maxDepth
    undefinedMacro := s.undefinedMacro
    referenceVersion := ← Version.read s.referenceVersion
    includeExtensions := s.includeExtensions
    extractRecords := s.extractRecords }

/-- The workspace of an editor's server, which never looks at records. -/
def workspace (s : Settings) : Except VersionError Workspace := do
  let options ← s.options
  return {
    includePaths := s.includes
    resolver := s.resolver
    options := { options with extractRecords := false } }

end Settings

end CampaignMarkup
