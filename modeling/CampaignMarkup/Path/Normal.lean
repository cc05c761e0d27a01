import CampaignMarkup.Path.Basic

/-! # Normal form of paths

Folding is lexical: `.` goes, `..` takes the name before it away, stays at the front of a
relative path and vanishes at the root. The file tree is never asked.
-/
namespace CampaignMarkup.Path

/-- One component onto a folded path, which is held last component first. -/
def fold (folded : List Component) : Component → List Component
  | .current => folded
  | .parent =>
    match folded with
    | .name _ :: rest => rest
    | .root :: rest => .root :: rest
    | other => .parent :: other
  | component => component :: folded

def foldAll (components : List Component) : List Component :=
  (components.foldl fold []).reverse

def normalize (p : Path) : Path :=
  ofComponents (foldAll p.components)

/-- The path from the root of the tree, with `..` left alone; the empty path has none. -/
def absolute? (workdir : Location) (p : Path) : Option Path :=
  if p.text = "" then none
  else if p.isAbsolute then some (ofComponents p.components)
  else
    some (ofComponents
      (.root :: workdir.map .name ++ p.components.filter (· ≠ .current)))

/-- What two spellings of one file share: the normal form of the path from the root. -/
def identity (workdir : Location) (p : Path) : Path :=
  normalize ((absolute? workdir p).getD p)

end CampaignMarkup.Path
