import CampaignMarkup.CommandLine.Run

/-! # The program

Reads what a command line can refer to from the disk, runs it, and writes the files that it
changed. Everything below the working directory is read, and what the arguments and the settings
name elsewhere.
-/
namespace CampaignMarkup

namespace Disk

/-- How deep directories are followed. -/
def depthLimit : Nat := 64

def contentsOf (bytes : ByteArray) : Contents :=
  match String.fromUTF8? bytes with
  | some s => .text s
  | none => .binary bytes.toList

/-- A file, or a directory with what is below it. -/
def entries : Nat → Location → IO.FS.DirEntry → IO (List (Location × Entry))
  | 0, _, _ => return []
  | depth + 1, location, entry => do
    if ← entry.path.isDir then
      let mut found := [(location, Entry.directory)]
      for child in ← entry.path.readDir do
        found := (← entries depth (location ++ [child.fileName]) child) ++ found
      return found
    else if ← entry.path.pathExists then
      return [(location, .file (contentsOf (← IO.FS.readBinFile entry.path)))]
    else return []

/-- Adds what lies at a location, unless the tree has it. -/
def load (tree : FileTree) (location : Location) : IO FileTree := do
  if (tree.entry? location).isSome then return tree
  let path := String.join (location.map ("/" ++ ·))
  let found ← entries depthLimit location { root := "/", fileName := path }
  let tree := tree.makeDirectories ⟨String.join (location.dropLast.map ("/" ++ ·))⟩
  return { tree with entries := found ++ tree.entries }

/-- Adds what lies at a path. -/
def loadPath (tree : FileTree) (p : Path) : IO FileTree :=
  load tree ((p.identity tree.workdir).components.drop 1 |>.map Path.Component.text)

/-- Writes the files in which a tree differs from an earlier one. -/
def save (before tree : FileTree) : IO Unit :=
  for (location, entry) in tree.entries do
    match entry with
    | .file (.text s) =>
      if before.entry? location ≠ some entry then
        IO.FS.writeFile (String.join (location.map ("/" ++ ·))) s
    | _ => pure ()

end Disk

def Command.paths : Command → List Path
  | .preprocess paths _ | .defines paths | .records paths _ _ _ => paths
  | .tokens path _ | .sanitize path => [path]

/-- The files that an invocation can refer to, apart from the working directory. -/
def Invocation.namedPaths (i : Invocation) (tree : FileTree) : List Path :=
  match i.settings tree with
  | .ok settings => settings.dataDir :: settings.userDataDir :: settings.includes ++ i.command.paths
  | .error _ => []

/-- Runs a command line on the disk. -/
def runOnDisk (arguments : List String) : IO UInt32 := do
  let workdir := (Path.mk (← IO.currentDir).toString).components.drop 1 |>.map Path.Component.text
  let above := (FileTree.empty workdir).entries.filter (·.1 ≠ workdir)
  let mut tree ← Disk.load ⟨workdir, above⟩ workdir
  if let .ok invocation := Invocation.read arguments then
    for path in invocation.config.toList do
      tree ← Disk.loadPath tree path
    for path in invocation.namedPaths tree do
      tree ← Disk.loadPath tree path
  let result := runProgram tree arguments
  Disk.save tree result.tree
  IO.print result.stdout
  IO.eprint result.stderr
  return UInt32.ofNat result.code

end CampaignMarkup

def main (arguments : List String) : IO UInt32 :=
  CampaignMarkup.runOnDisk arguments
