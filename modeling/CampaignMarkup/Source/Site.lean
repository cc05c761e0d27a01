import CampaignMarkup.Text.Number
import CampaignMarkup.Uri.File

/-! # Sites

A line of a source: a file and a line counted from 0. Text that came from no file is shown as
`<input>`, and shown lines are counted from 1.
-/
namespace CampaignMarkup

structure Site where
  file : Option Path := none
  line : Nat := 0
deriving DecidableEq, Repr, Inhabited

namespace Site

/-- The line as it is shown, a number of 64 bits: the highest line of all comes out as 0. -/
def shownLine (s : Site) : Nat :=
  (s.line + 1) % Chars.naturals64

def display (s : Site) : String :=
  match s.file with
  | some file => file.text ++ ":" ++ toString s.shownLine
  | none => "<input>:" ++ toString s.shownLine

/-- The URI of the file, for a site that has one. -/
def uri? (workdir : Location) (s : Site) : Option Uri :=
  s.file.bind (Uri.ofPath? workdir)

end Site

end CampaignMarkup
