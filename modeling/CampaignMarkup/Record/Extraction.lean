import CampaignMarkup.Record.Basic
import CampaignMarkup.Text.Delimiter

/-! # Extracting records

Flat markup is read line by line. `[tag]` and `[+tag]` open a block, `[/tag]` closes blocks up to
the one it names, and `key=value` gives the innermost block an attribute, whose value goes on in
the next line while a quote or a raw stretch is open. A closing tag without a block is ignored,
blocks still open at the end are closed there, and attributes outside all blocks are dropped.
-/
namespace CampaignMarkup

/-- What a line is by itself. -/
inductive MarkupLine where
  | opening (tag : String)
  | closing (tag : String)
  | assignment (key : String) (value : List Char)
  | other
deriving DecidableEq, Repr, Inhabited

namespace MarkupLine

def isNameChar (c : Char) : Bool :=
  c.isAlphanum || c == '_'

/-- One or more name characters. -/
def name? (cs : List Char) : Option String :=
  if cs.isEmpty || !cs.all isNameChar then none else some (String.ofList cs)

/-- The text of a line between brackets that enclose all of it. -/
def bracketed? (cs : List Char) : Option (List Char) :=
  (Chars.dropStart? ['['] cs).bind (Chars.dropEnding? [']'])

/-- The tag that a line opens. -/
def opening? (cs : List Char) : Option String :=
  (bracketed? cs).bind fun inner => name? ((Chars.dropStart? ['+'] inner).getD inner)

/-- The tag that a line closes. -/
def closing? (cs : List Char) : Option String :=
  (bracketed? cs).bind fun inner => (Chars.dropStart? ['/'] inner).bind name?

/-- Key and value of a line that sets an attribute. -/
def assignment? (cs : List Char) : Option (String × List Char) :=
  (Chars.splitOnce '=' cs).bind fun (key, value) =>
    (name? (Chars.trim key)).map fun key => (key, Chars.trimStart value)

def read (line : List Char) : MarkupLine :=
  let cs := Chars.trim line
  match opening? cs with
  | some tag => .opening tag
  | none =>
    match closing? cs with
    | some tag => .closing tag
    | none =>
      match assignment? cs with
      | some (key, value) => .assignment key value
      | none => .other

end MarkupLine

structure Extraction where
  /-- Open blocks, innermost first. -/
  stack : List Record := []
  /-- Closed blocks outside all others, the last one first. -/
  roots : List Record := []
  /-- An attribute whose value goes on in the next line. -/
  pending : Option (String × List Char) := none
deriving Repr, Inhabited

namespace Extraction

/-- Gives the innermost block an attribute. -/
def set (e : Extraction) (key : String) (value : AttributeValue) : Extraction :=
  match e.stack with
  | [] => e
  | node :: outer => { e with stack := node.setAttribute key value :: outer }

/-- An attribute with as much of its value as has been read. -/
def assign (e : Extraction) (key : String) (value : List Char) : Extraction :=
  if Delimiter.closed value then e.set key (AttributeValue.read (String.ofList value))
  else { e with pending := some (key, value) }

/-- Closes blocks from the innermost out, through the first one with the tag. -/
def closeThrough (tag : String) (stack roots : List Record) : List Record × List Record :=
  match stack with
  | [] => ([], roots)
  | [node] => ([], node :: roots)
  | node :: parent :: outer =>
    if node.tag = tag then (parent.addChild node :: outer, roots)
    else closeThrough tag (parent.addChild node :: outer) roots
termination_by stack.length

def close (e : Extraction) (tag : String) : Extraction :=
  if e.stack.any (·.tag = tag) then
    let (stack, roots) := closeThrough tag e.stack e.roots
    { e with stack, roots }
  else e

def line (e : Extraction) (text : List Char) : Extraction :=
  match e.pending with
  | some (key, value) => { e with pending := none }.assign key (value ++ '\n' :: text)
  | none =>
    match MarkupLine.read text with
    | .opening tag => { e with stack := { tag } :: e.stack }
    | .closing tag => e.close tag
    | .assignment key value => e.assign key value
    | .other => e

/-- Closes every block and gives the outermost ones in order. -/
def closeAll (stack roots : List Record) : List Record :=
  match stack with
  | [] => roots.reverse
  | [node] => (node :: roots).reverse
  | node :: parent :: outer => closeAll (parent.addChild node :: outer) roots
termination_by stack.length

/-- The records read; a value that was never finished is a string as far as it goes. -/
def finish (e : Extraction) : List Record :=
  let e :=
    match e.pending with
    | some (key, value) => e.set key (.string (String.ofList value))
    | none => e
  closeAll e.stack e.roots

end Extraction

/-- The outermost records of a text. -/
def extractRecords (text : String) : List Record :=
  ((Chars.lines text.toList).foldl Extraction.line {}).finish

end CampaignMarkup
