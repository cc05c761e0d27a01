import CampaignMarkup.Text.Blank

/-! # Positions

A byte offset as a line and a column, both counted from 0. Lines end at a line feed, a
carriage return, the two together, or one of the Unicode line separators.
-/
namespace CampaignMarkup

structure Position where
  line : Nat
  column : Nat
deriving DecidableEq, Repr, Inhabited

def Position.display (p : Position) : String :=
  toString p.line ++ ":" ++ toString p.column

/-- The byte offsets at which the lines of one text start. -/
structure LineMap where
  starts : List Nat
deriving DecidableEq, Repr, Inhabited

namespace LineMap

/-- Starts of the lines after the first, where the text begins at byte `offset`. -/
def startsFrom (offset : Nat) : List Char → List Nat
  | [] => []
  | '\r' :: '\n' :: cs => (offset + 2) :: startsFrom (offset + 2) cs
  | c :: cs =>
    let after := offset + c.utf8Size
    if Text.isLineBreak c then after :: startsFrom after cs else startsFrom after cs

def ofText (source : String) : LineMap :=
  ⟨0 :: startsFrom 0 source.toList⟩

/-- The last line that starts at or before the offset. -/
def lineOf (m : LineMap) (offset : Nat) : Nat :=
  (m.starts.takeWhile (· ≤ offset)).length - 1

/-- The line of an offset and the bytes between the line's start and the offset. -/
def position (m : LineMap) (offset : Nat) : Position :=
  let line := m.lineOf offset
  ⟨line, offset - m.starts.getD line 0⟩

def lineCount (m : LineMap) : Nat :=
  m.starts.length

end LineMap

end CampaignMarkup
