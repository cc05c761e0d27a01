import CampaignMarkup.Toml.Document
import CampaignMarkup.Toml.Quoted
import CampaignMarkup.Toml.Setting
import CampaignMarkup.Toml.Word

/-! # Reading settings files

A file is a sequence of lines with keys and values, under headers that name their table.
-/
namespace CampaignMarkup.Toml

def isKeyChar (c : Char) : Bool :=
  c.isAlphanum || c == '_' || c == '-'

def keyPart : Reader String := fun cs =>
  match cs.takeWhile isKeyChar with
  | [] => shortText cs
  | bare => some (String.ofList bare, cs.dropWhile isKeyChar)

def keyParts : Nat → Reader (List String)
  | 0 => fun _ => none
  | limit + 1 => fun cs => do
    let (part, cs) ← keyPart (skipBlanks cs)
    match skipBlanks cs with
    | '.' :: cs =>
      let (parts, cs) ← keyParts limit cs
      return (part :: parts, cs)
    | cs => return ([part], cs)

/-- A key, as the path to a table and a name in it. -/
def key : Reader (List String × String) := fun cs => do
  let (parts, cs) ← keyParts (nestingLimit - 1) cs
  let name ← parts.getLast?
  return ((parts.dropLast, name), cs)

/-- The items of an array, behind its bracket. A comma may follow the last one. -/
def arrayItems (item : Reader Value) (fuel : Nat) : Reader (List Value) := fun cs =>
  match fuel with
  | 0 => none
  | fuel + 1 => do
    match ← skipSpace false cs with
    | ']' :: cs => return ([], cs)
    | cs =>
      let (value, cs) ← item cs
      match ← skipSpace false cs with
      | ',' :: cs =>
        let (values, cs) ← arrayItems item fuel cs
        return (value :: values, cs)
      | ']' :: cs => return ([value], cs)
      | _ => none

/-- A key and its value. -/
def pair (item : Reader Value) : Reader ((List String × String) × Value) :=
  fun cs => do
    let (name, cs) ← key cs
    let cs ← expect '=' cs
    let (value, cs) ← item (skipBlanks cs)
    return ((name, value), cs)

/-- The pairs of a table on one line, added to those before. -/
def inlinePairs (item : Reader Value) (fuel : Nat) (members : Members) :
    Reader Members := fun cs =>
  match fuel with
  | 0 => none
  | fuel + 1 => do
    let (((path, name), value), cs) ← pair item cs
    let members ← assign path name value .header members
    match skipBlanks cs with
    | ',' :: cs => inlinePairs item fuel members cs
    | '}' :: cs => return (members, cs)
    | _ => none

/-- A table on one line, behind its brace. -/
def inlineTable (item : Reader Value) : Reader Value := fun cs =>
  match skipBlanks cs with
  | '}' :: cs => some (.table [], cs)
  | cs =>
    (inlinePairs item (cs.length + 1) [] cs).map fun (members, cs) =>
      (.table (membersToValues members), cs)

/-- A value that nests less than `depth` deep. -/
def value : Nat → Reader Value
  | 0 => fun _ => none
  | depth + 1 => fun cs =>
    match cs with
    | '"' :: _ | '\'' :: _ => (text cs).map fun (s, cs) => (.string s, cs)
    | '[' :: cs =>
      if depth = 0 then none
      else
        (arrayItems (value depth) (cs.length + 1) cs).map fun (items, cs) => (.array items, cs)
    | '{' :: cs => if depth = 0 then none else inlineTable (value depth) cs
    | cs => word cs

def header (d : Document) (repeated : Bool) (cs : List Char) :
    Option (Document × List Char) := do
  let ((path, name), cs) ← key cs
  let cs ← expect ']' cs
  let cs ← if repeated then expect ']' cs else some cs
  return (← d.openHeader repeated path name, ← lineEnd? cs)

/-- One line that is neither blank nor a comment. -/
def statement (d : Document) (cs : List Char) : Option (Document × List Char) :=
  match cs with
  | '[' :: '[' :: cs => header d true cs
  | '[' :: cs => header d false cs
  | cs => do
    let (((path, name), v), cs) ← pair (value nestingLimit) cs
    return (← d.assign path name v, ← lineEnd? cs)

/-- The lines of a file, of which there are no more than `fuel`. -/
def statements (fuel : Nat) (d : Document) (cs : List Char) : Option Document :=
  match fuel with
  | 0 => none
  | fuel + 1 =>
    match skipBlanks cs with
    | [] => some d
    | c :: cs =>
      match lineEnd? (c :: cs) with
      | some cs => statements fuel d cs
      | none => (statement d (c :: cs)).bind fun (d, cs) => statements fuel d cs

/-- The values of a file's root table, if the file is well formed. A byte order mark in front is
not part of the text. -/
def root? (source : String) : Option Value :=
  let cs := (Chars.dropStart? ['\uFEFF'] source.toList).getD source.toList
  (statements (cs.length + 1) {} cs).map fun d => .table (membersToValues d.members)

/-- The settings of a file, if it is well formed and its root stands for a table. -/
def read (source : String) : Option (List (String × SettingValue)) :=
  match (root? source).bind Value.toSetting? with
  | some (.table members) => some members
  | _ => none

end CampaignMarkup.Toml
