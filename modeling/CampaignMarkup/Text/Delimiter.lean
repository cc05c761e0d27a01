/-! # Delimited stretches

Quotes and angle brackets hide what stands between them. One automaton reads a text
character by character and knows whether it stands inside `"…"`, inside `<<…>>` or outside
both: a doubled quote closes and reopens, so it needs no state of its own, and a raw
stretch ends at the first `>>`.
-/
namespace CampaignMarkup

/-- Where a reader stands. `angle` is outside, just after a `<`; `rawClosing` is inside a raw
stretch, just after a `>`. -/
inductive Delimiter where
  | plain
  | angle
  | quoted
  | raw
  | rawClosing
deriving DecidableEq, Repr, Inhabited

namespace Delimiter

def step (d : Delimiter) (c : Char) : Delimiter :=
  match d with
  | .raw => if c = '>' then .rawClosing else .raw
  | .rawClosing => if c = '>' then .plain else .raw
  | .quoted => if c = '"' then .plain else .quoted
  | .plain => if c = '"' then .quoted else if c = '<' then .angle else .plain
  | .angle => if c = '"' then .quoted else if c = '<' then .raw else .plain

/-- Outside quotes and raw stretches. -/
def isOutside : Delimiter → Bool
  | .plain | .angle => true
  | .quoted | .raw | .rawClosing => false

/-- Every quote and raw stretch of the text is closed. -/
def closed (cs : List Char) : Bool :=
  (cs.foldl step .plain).isOutside

end Delimiter

end CampaignMarkup
