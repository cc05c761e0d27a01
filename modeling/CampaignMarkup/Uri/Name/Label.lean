import CampaignMarkup.Text.Composed
import CampaignMarkup.Uri.Name.Character
import CampaignMarkup.Uri.Name.Direction
import CampaignMarkup.Uri.Name.Joining
import CampaignMarkup.Uri.Punycode

/-! # Names of hosts

A name is a sequence of labels between dots. Its characters are folded and composed first; a label
that is not in ASCII then is written as a code behind `xn--`, and one that is such a code has to be
the code of a label that could have been written without it.
-/
namespace CampaignMarkup.Uri.Name

structure Label where
  text : List Char
  ascii : List Char
deriving DecidableEq, Repr, Inhabited

def codeMark : List Char := "xn--".toList

def isAscii (cs : List Char) : Bool :=
  cs.all (·.toNat < 0x80)

/-- The most characters of a label that is written as a code. -/
def longestText : Nat := 1000

/-- The most characters of a code. -/
def longestCode : Nat := 2000

/-- Whether the characters of a label may stand where they do. -/
def isWellPlaced (text : List Char) : Bool :=
  !text.head?.any Text.isMark && joinersFit [] text

/-- Whether folding and composing leave a label as it is. -/
def isSettled (text : List Char) : Bool :=
  text.all isKept && Text.composed text = text

namespace Label

/-- The label of a code, without its mark. -/
def ofCode? (code : List Char) : Option Label := do
  if code.isEmpty || code.getLast? = some '-' || !isAscii code || longestCode < code.length then
    none
  else
    let text ← Punycode.decode? code
    if isSettled text && isWellPlaced text && (Chars.dropStart? codeMark text).isNone then
      return ⟨text, codeMark ++ code⟩
    else none

/-- A label that is folded and composed. -/
def ofText? (text : List Char) : Option Label :=
  match Chars.dropStart? codeMark text with
  | some code => ofCode? code
  | none =>
    if isAscii text then some ⟨text, text⟩
    else if isWellPlaced text && text.length ≤ longestText then
      some ⟨text, codeMark ++ Punycode.encode text⟩
    else none

end Label

def labels? (name : List Char) : Option (List Label) := do
  let folded := (← name.mapM fold?).flatten
  (Chars.splitOn '.' (Text.composed folded)).mapM Label.ofText?

/-- A name in ASCII, if it is one. The direction of its labels matters once one of them holds a
character of a script from right to left. -/
def ascii? (name : List Char) : Option (List Char) := do
  let labels ← labels? name
  if labels.any (·.text.any isFromRight) && !labels.all (isOfOneDirection ·.text) then none
  else return ['.'].intercalate (labels.map Label.ascii)

end CampaignMarkup.Uri.Name
