import CampaignMarkup.Document.Node
import CampaignMarkup.Source.Position
import CampaignMarkup.Token.Concatenation

/-! # Capturing a definition

The body of a definition is the source text between the header line and the matching `#enddef`,
with the `#arg` blocks cut out. Definitions may nest: a `#define` at the start of a line opens a
level, and every `#enddef` closes one, also behind text on its line.
-/
namespace CampaignMarkup

namespace Token

/-- The tokens behind a line break, if one comes first. -/
def skipLineBreak : List Token → List Token
  | t :: ts => if t.isLineBreak then ts else t :: ts
  | [] => []

theorem skipLineBreak_length_le (ts : List Token) : (skipLineBreak ts).length ≤ ts.length := by
  cases ts with
  | nil => simp [skipLineBreak]
  | cons t ts =>
    simp only [skipLineBreak]
    split <;> simp

/-- The byte at which the tokens start, or the end of the source behind the last one. -/
def offsetOf (sourceEnd : Nat) : List Token → Nat
  | t :: _ => t.span.start
  | [] => sourceEnd

end Token

/-- A body being captured. -/
structure Capture where
  body : String := ""
  defaults : List (String × String) := []
  /-- The `#arg` block being read, and where its text starts. -/
  openArg : Option (String × Nat) := none
  /-- Where the body text that is not taken yet starts. -/
  cursor : Nat
  /-- Where the current line starts. -/
  lineBegin : Nat
  /-- Nothing but white space has been seen in the current line. -/
  atLineStart : Bool := true
  depth : Nat := 1
deriving DecidableEq, Repr, Inhabited

namespace Capture

/-- A default text loses the line break before its `#endarg`. -/
def argValue (cs : List Char) : String :=
  let endings : List (List Char) := [['\r', '\n'], ['\n'], ['\r'], ['\u2028'], ['\u2029']]
  String.ofList ((endings.findSome? (Chars.dropEnding? · cs)).getD cs)

def begin (offset : Nat) : Capture :=
  { cursor := offset, lineBegin := offset }

/-- Something other than white space stands in the line. -/
def inLine (c : Capture) : Capture :=
  { c with atLineStart := false }

/-- Where the text before a directive ends: indentation belongs to the directive. -/
def cutAt (c : Capture) (t : Token) : Nat :=
  if c.atLineStart then c.lineBegin else t.span.start

/-- Takes the text up to `cut` into the body. -/
def takeBody (source : List Char) (c : Capture) (cut : Nat) : Capture :=
  { c with body := c.body ++ String.ofList (Chars.cut c.cursor cut source) }

/-- Closes the `#arg` block that is open, or takes the rest of the body. -/
def close (source : List Char) (c : Capture) (cut : Nat) : Capture :=
  match c.openArg with
  | some (name, start) =>
    { c with
      defaults := c.defaults ++ [(name, argValue (Chars.cut start cut source))]
      openArg := none }
  | none => c.takeBody source cut

/-- The line after a block's opening or closing line starts at `offset`. -/
def newLine (c : Capture) (offset : Nat) : Capture :=
  { c with lineBegin := offset, atLineStart := true }

/-- Reads up to the `#enddef` of the outermost level and gives the tokens behind its line; there
is nothing to give if it never comes. -/
def read (source : List Char) (lines : LineMap) (c : Capture) :
    List Token → Except StructureError (Option (Capture × List Token))
  | [] => .ok none
  | t :: rest =>
    match t.kind with
    | .endOfLine => read source lines (c.newLine t.span.stop) rest
    | .whitespace => read source lines c rest
    | .comment =>
      match Directive.ofComment? t.content with
      | none => read source lines c.inLine rest
      | some d =>
        let cut := c.cutAt t
        let after := Token.skipLineBreak rest
        let offset := Token.offsetOf (Chars.byteSize source) after
        have := Token.skipLineBreak_length_le rest
        match d.kind, c.openArg with
        | .define, _ =>
          if c.atLineStart then read source lines { c.inLine with depth := c.depth + 1 } rest
          else read source lines c.inLine rest
        | .enddef, _ =>
          if c.depth ≤ 1 then .ok (some (c.close source cut, after))
          else read source lines { c.inLine with depth := c.depth - 1 } rest
        | .arg, none =>
          if c.atLineStart && c.depth == 1 then
            match d.args.head? with
            | none => .error (.missingArgName (lines.lineOf t.span.start))
            | some name =>
              read source lines
                { (c.takeBody source cut).newLine offset with openArg := some (name, offset) }
                after
          else read source lines c.inLine rest
        | .endarg, some _ =>
          if c.depth == 1 then
            read source lines { (c.close source cut).newLine offset with cursor := offset } after
          else read source lines c.inLine rest
        | _, _ => read source lines c.inLine rest
    | _ => read source lines c.inLine rest
termination_by ts => ts.length

end Capture

end CampaignMarkup
