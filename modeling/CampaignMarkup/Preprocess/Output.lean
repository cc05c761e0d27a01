import CampaignMarkup.Path.Basic
import CampaignMarkup.Token.Lexer

/-! # Output

Everything a run writes goes through here, so that `[binary_path]` blocks are seen as soon as
their lines are complete and can guide the paths resolved later in the same run.
-/
namespace CampaignMarkup

/-- Recognises `[binary_path]` blocks line by line. -/
structure BinaryPathTracker where
  inside : Bool := false
  /-- Blocks open inside the block. -/
  nested : Nat := 0
  path : Option String := none
deriving DecidableEq, Repr, Inhabited

namespace BinaryPathTracker

/-- The value of a line that sets the path. -/
def pathValue? (cs : List Char) : Option String :=
  (Chars.splitOnce '=' cs).bind fun (key, value) =>
    if Chars.trim key = "path".toList then
      let value := Chars.trim value
      some (String.ofList (if value.head? = some '"' then Chars.unquote value else value))
    else none

/-- One line; a path comes out where a block with a path ends. -/
def feed (t : BinaryPathTracker) (line : List Char) : BinaryPathTracker × Option Path :=
  let cs := Chars.trim line
  if !t.inside then
    if cs = "[binary_path]".toList then (⟨true, 0, none⟩, none) else (t, none)
  else if (Chars.dropStart? ['[', '/'] cs).isSome then
    if t.nested = 0 then
      (⟨false, 0, none⟩, (t.path.filter (· ≠ "")).map Path.mk)
    else ({ t with nested := t.nested - 1 }, none)
  else if cs.head? = some '[' then ({ t with nested := t.nested + 1 }, none)
  else if t.nested = 0 then
    match pathValue? cs with
    | some path => ({ t with path := some path }, none)
    | none => (t, none)
  else (t, none)

end BinaryPathTracker

structure Output where
  text : String := ""
  /-- The line being written, last character first. -/
  line : List Char := []
  tracker : BinaryPathTracker := {}
  /-- Binary paths that nobody has taken yet. -/
  found : List Path := []
deriving DecidableEq, Repr, Inhabited

namespace Output

def put (o : Output) (c : Char) : Output :=
  if c = '\n' then
    let (tracker, path) := o.tracker.feed o.line.reverse
    { text := o.text.push c, line := [], tracker, found := o.found ++ path.toList }
  else { o with text := o.text.push c, line := c :: o.line }

def write (o : Output) (s : String) : Output :=
  s.toList.foldl put o

/-- Comments are not written, and every line break is written as a line feed. -/
def writeToken (o : Output) (t : Token) : Output :=
  match t.kind with
  | .comment => o
  | .endOfLine => o.write "\n"
  | _ => o.write t.render

end Output

end CampaignMarkup
