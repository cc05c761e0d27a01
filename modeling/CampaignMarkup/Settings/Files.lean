import CampaignMarkup.Settings.Basic
import CampaignMarkup.Toml.Reader

/-! # Loading settings

Files are laid over the defaults in order, and overrides over them all.
-/
namespace CampaignMarkup

inductive SettingsError where
  | missingFile (path : Path)
  | malformedFile (path : Path)
  | invalidKey (key : String)
  | invalidValue
deriving DecidableEq, Repr, Inhabited

def SettingsError.message : SettingsError → String
  | .missingFile path => "configuration file \"" ++ path.text ++ "\" not found"
  | .malformedFile path => "configuration file \"" ++ path.text ++ "\" is not valid TOML"
  | .invalidKey key => "invalid configuration key \"" ++ key ++ "\""
  | .invalidValue => "configuration value of a wrong type"

/-- A settings file. One that is not required may be missing, or hold bytes that are no text. -/
structure SettingsFile where
  path : Path
  required : Bool
deriving DecidableEq, Repr, Inhabited

namespace SettingsFile

/-- Where the file is: at its path, or with `.toml` behind its name. -/
def locate? (tree : FileTree) (path : Path) : Option Path :=
  let full := (Path.ofComponents (.root :: tree.workdir.map .name)).join path
  if tree.isFile full then some full
  else (full.appendToName? ".toml").filter (tree.isFile ·)

def contents? (tree : FileTree) (path : Path) : Option String :=
  (locate? tree path).bind fun found => (tree.read found).toOption

def load (tree : FileTree) (file : SettingsFile) :
    Except SettingsError (List (String × SettingValue)) :=
  match contents? tree file.path with
  | none => if file.required then .error (.missingFile file.path) else .ok []
  | some text =>
    match Toml.read text with
    | some members => .ok members
    | none => .error (.malformedFile file.path)

end SettingsFile

/-- A value given for a key apart from any file. -/
def applyOverride (below : SettingValue) (entry : String × SettingValue) :
    Except SettingsError SettingValue :=
  match SettingKey.read? entry.1 with
  | some key => .ok (entry.2.putAt key below)
  | none => .error (.invalidKey entry.1)

def Settings.load (tree : FileTree) (files : List SettingsFile)
    (overrides : List (String × SettingValue)) : Except SettingsError Settings := do
  let layers ← files.mapM (SettingsFile.load tree)
  let merged := layers.foldl (fun below file => SettingValue.layer file below) Settings.defaults
  match Settings.ofValue? (← overrides.foldlM applyOverride merged) with
  | some settings => return settings
  | none => .error .invalidValue

end CampaignMarkup
