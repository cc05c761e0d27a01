import CampaignMarkup.Preprocess.Run
import CampaignMarkup.Text.Json

/-! # Workspaces

What an editor's server reads its macros from: the paths to include, the input, the directories
that paths refer to, and the options of the run. A client may change them when it connects.
-/
namespace CampaignMarkup

structure Workspace where
  inputPath : Option Path := none
  includePaths : List Path := []
  resolver : Resolver := {}
  options : Options := {}
deriving DecidableEq, Repr, Inhabited

/-- What a client asks for when it connects. What it leaves out stays as it is. -/
structure ClientOptions where
  inputPath : Option Path := none
  dataDir : Option Path := none
  userDataDir : Option Path := none
  includePaths : Option (List Path) := none
deriving DecidableEq, Repr, Inhabited

namespace ClientOptions

/-- A path or nothing; anything else is malformed. -/
def readPath? : JsonValue → Option (Option Path)
  | .null => some none
  | .string s => some (some ⟨s⟩)
  | _ => none

def readItem? : JsonValue → Option Path
  | .string s => some ⟨s⟩
  | _ => none

def readPaths? : JsonValue → Option (Option (List Path))
  | .null => some none
  | .array items => (items.mapM readItem?).map some
  | _ => none

def ofMembers? (inputPath dataDir userDataDir includePaths : JsonValue) :
    Option ClientOptions := do
  return ⟨← readPath? inputPath, ← readPath? dataDir, ← readPath? userDataDir,
    ← readPaths? includePaths⟩

/-- The options as an object with any of the four members, or as an array of all four. -/
def ofJson? : JsonValue → Option ClientOptions
  | .object members =>
    let member (key : String) := (members.lookup key).getD .null
    ofMembers? (member "inputPath") (member "dataDir") (member "userDataDir")
      (member "includePaths")
  | .array [inputPath, dataDir, userDataDir, includePaths] =>
    ofMembers? inputPath dataDir userDataDir includePaths
  | _ => none

/-- Malformed options are ignored as a whole. -/
def ofJson (value : Option JsonValue) : ClientOptions :=
  (value.bind ofJson?).getD {}

end ClientOptions

namespace Workspace

def apply (w : Workspace) (o : ClientOptions) : Workspace where
  inputPath := o.inputPath <|> w.inputPath
  includePaths := o.includePaths.getD w.includePaths
  resolver := ⟨o.dataDir.getD w.resolver.dataDir, o.userDataDir.getD w.resolver.userDataDir⟩
  options := w.options

/-- The paths to preprocess, in order. -/
def paths (w : Workspace) : List Path :=
  w.includePaths ++ w.inputPath.toList

/-- Whether there is anything to parse. -/
def isConfigured (w : Workspace) : Bool :=
  !w.paths.isEmpty

def parse (w : Workspace) (tree : FileTree) : Report :=
  subparseAll ⟨tree, w.resolver, w.options⟩ w.paths {}

end Workspace

end CampaignMarkup
