import CampaignMarkup.Directive.Conditional
import CampaignMarkup.Macros.Table
import CampaignMarkup.Record.Basic

/-! # Sessions

What the texts of one run share, and what a later run with the same session starts from.
-/
namespace CampaignMarkup

structure Session where
  macros : MacroTable := {}
  binaryPaths : List Path := []
  records : List Record := []
  textdomain : Option String := none
  conditionals : Conditionals := {}
  /-- The files being read, innermost first, by their identity. -/
  includes : List Path := []
deriving Inhabited

namespace Session

/-- Registers a binary path unless another spelling of it is known. -/
def addBinaryPath (s : Session) (p : Path) : Session :=
  if s.binaryPaths.any (·.same p) then s else { s with binaryPaths := s.binaryPaths ++ [p] }

/-- The innermost file being read. -/
def currentFile? (s : Session) : Option Path :=
  s.includes.head?

/-- Whether a file of this identity is being read. -/
def isReading (s : Session) (identity : Path) : Bool :=
  s.includes.any (·.same identity)

end Session

end CampaignMarkup
