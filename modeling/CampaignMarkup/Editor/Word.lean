import CampaignMarkup.Source.Position
import CampaignMarkup.Text.Alphanumeric
import CampaignMarkup.Text.Split

/-! # The word under a cursor

Words are runs of letters, digits and a few signs, which covers macro names and paths such as
`~add-ons/Pack`. Columns count characters, and lines are those that line feeds separate. A cursor
just behind a word still selects it.
-/
namespace CampaignMarkup

structure Word where
  text : String
  line : Nat
  /-- The first character. -/
  start : Nat
  /-- One behind the last character. -/
  stop : Nat
deriving DecidableEq, Repr, Inhabited

namespace Word

def isWordChar (c : Char) : Bool :=
  Text.isAlphanumeric c || ['_', '$', ':', '+', '-', '/', '~'].contains c

/-- The line without its ending. -/
def lineText? (source : String) (line : Nat) : Option (List Char) :=
  (Text.lineAt? source line).map (Chars.dropEnding ['\r'])

/-- The word around the character at `index`: `before` are the characters in front of it, last
first, and `c` and `after` the character itself and what follows. -/
def around (line index : Nat) (before : List Char) (c : Char) (after : List Char) : Word :=
  let left := (before.takeWhile isWordChar).reverse
  let right := after.takeWhile isWordChar
  ⟨String.ofList (left ++ c :: right), line, index - left.length, index + 1 + right.length⟩

/-- The word of a line at a column, or just before it. -/
def inLine? (line : Nat) (cs : List Char) (column : Nat) : Option Word :=
  let index := min column (cs.length - 1)
  match (cs.take index).reverse, cs.drop index with
  | _, [] => none
  | before, c :: after =>
    if isWordChar c then some (around line index before c after)
    else
      match before with
      | b :: earlier =>
        if isWordChar b then some (around line (index - 1) earlier b (c :: after)) else none
      | [] => none

/-- The word under the cursor. -/
def at? (source : String) (p : Position) : Option Word :=
  (lineText? source p.line).bind (inLine? p.line · p.column)

end Word

end CampaignMarkup
