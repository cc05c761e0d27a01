import CampaignMarkup.Path.Normal
import CampaignMarkup.Uri.Basic

/-! # URIs of files

The URI of a path and the path of a URI.
-/
namespace CampaignMarkup.Uri

/-- The URI of the file with these names from the root down. -/
def ofNames (names : List String) : Uri where
  scheme := "file"
  authority := some {}
  path :=
    if names.isEmpty then "/"
    else String.ofList (names.flatMap fun n => '/' :: encode isReservedInSegment n.toList)

/-- The URI of a path; the empty path has none. -/
def ofPath? (workdir : Location) (p : Path) : Option Uri :=
  (p.absolute? workdir).map fun absolute =>
    ofNames ((absolute.components.drop 1).map Path.Component.text)

/-- Whether a URI addresses this machine. -/
def isLocal (u : Uri) : Bool :=
  u.authority.all fun authority => authority.host = "" || authority.host = "localhost"

/-- The letter of a drive at the end of a path names a directory. -/
def closeDrive (cs : List Char) : List Char :=
  match cs.reverse with
  | sign :: letter :: _ :: _ =>
    if (sign = ':' || sign = '|') && letter.isAlpha then cs ++ ['/'] else cs
  | _ => cs

/-- The path on this machine. -/
def path? (u : Uri) : Option Path :=
  if u.isLocal && Text.startsWith "/" u.path then
    (decode? u.path.toList).map fun cs => ⟨String.ofList (closeDrive cs)⟩
  else none

end CampaignMarkup.Uri
