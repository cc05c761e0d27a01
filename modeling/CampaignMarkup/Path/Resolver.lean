import CampaignMarkup.Path.Normal
import CampaignMarkup.FileTree

/-! # Resolving markup paths

Markup names files in three ways: `./x` from the file being read, `~x` from the user data
directory, and `x` from the data directory. Bare names of images, music and sounds are looked
for in the bucket of every registered binary path first, and stand for the core bucket if they
are in none. Resolving says where a path points; whether something is there is another question.
-/
namespace CampaignMarkup

inductive AssetBucket where
  | images
  | music
  | sounds
deriving DecidableEq, Repr, Inhabited

namespace AssetBucket

def directory : AssetBucket → String
  | .images => "images"
  | .music => "music"
  | .sounds => "sounds"

/-- The bucket of a file, by its extension in any case. -/
def ofPath? (p : Path) : Option AssetBucket :=
  p.extension?.bind fun extension =>
    match extension.toLower with
    | "png" | "jpg" | "webp" => some .images
    | "ogg" => some .music
    | "wav" => some .sounds
    | _ => none

end AssetBucket

structure Resolver where
  dataDir : Path := ⟨"."⟩
  userDataDir : Path := ⟨"."⟩
deriving DecidableEq, Repr, Inhabited

namespace Resolver

/-- The places a bare asset may be at: for each binary path first on the user's side, then on
the side of the game's data. -/
def candidates (r : Resolver) (binaryPaths : List Path) (bucketed : Path) : List Path :=
  binaryPaths.flatMap fun binary =>
    [r.userDataDir, r.dataDir].map fun side =>
      (((side.join ⟨".."⟩).join binary).join bucketed).normalize

/-- Where a path in the markup points. `current` is the file or directory being read. -/
def resolve (r : Resolver) (tree : FileTree) (binaryPaths : List Path) (current : Path)
    (path : String) : Path :=
  if Text.startsWith "." path then
    let base := if tree.isDirectory current then current else current.parent?.getD current
    (base.join ⟨path⟩).normalize
  else
    match Text.dropStart? "~" path with
    | some rest => (r.userDataDir.join ⟨(Text.dropStart? "/" rest).getD rest⟩).normalize
    | none =>
      match AssetBucket.ofPath? ⟨path⟩ with
      | none => (r.dataDir.join ⟨path⟩).normalize
      | some bucket =>
        let bucketed := (Path.mk bucket.directory).join ⟨path⟩
        match (r.candidates binaryPaths bucketed).find? tree.has with
        | some found => found
        | none => ((r.dataDir.join ⟨"core"⟩).join bucketed).normalize

end Resolver

end CampaignMarkup
