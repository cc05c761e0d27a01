/-! # JSON text

JSON values with their members in order, and the two ways in which they are written: without any
blank, and with two blanks for each level. Characters below the blank are escaped and all others
stand for themselves.
-/
namespace CampaignMarkup

inductive JsonValue where
  | null
  | bool (b : Bool)
  /-- A number as it is written. -/
  | number (literal : String)
  | string (s : String)
  | array (items : List JsonValue)
  | object (members : List (String × JsonValue))
deriving Repr, Inhabited

namespace JsonValue

def nat (n : Nat) : JsonValue :=
  .number (toString n)

def int (n : Int) : JsonValue :=
  .number (toString n)

/-- A member for a value that is there, and none for one that is not. -/
def optional (key : String) : Option JsonValue → List (String × JsonValue)
  | some value => [(key, value)]
  | none => []

def hexDigit (n : Nat) : Char :=
  if n < 10 then Char.ofNat (48 + n) else Char.ofNat (87 + n)

def escapeChar (c : Char) : List Char :=
  match c with
  | '"' => ['\\', '"']
  | '\\' => ['\\', '\\']
  | '\n' => ['\\', 'n']
  | '\r' => ['\\', 'r']
  | '\t' => ['\\', 't']
  | '\x08' => ['\\', 'b']
  | '\x0c' => ['\\', 'f']
  | c =>
    if c.toNat < 0x20 then
      ['\\', 'u', '0', '0', hexDigit (c.toNat / 16), hexDigit (c.toNat % 16)]
    else [c]

def quote (s : String) : String :=
  String.ofList ('"' :: s.toList.flatMap escapeChar ++ ['"'])

mutual

/-- The value without blanks. -/
def compact : JsonValue → String
  | .null => "null"
  | .bool b => if b then "true" else "false"
  | .number literal => literal
  | .string s => quote s
  | .array items => "[" ++ compactItems items ++ "]"
  | .object members => "\x7b" ++ compactMembers members ++ "\x7d"

def compactItems : List JsonValue → String
  | [] => ""
  | [v] => v.compact
  | v :: w :: vs => v.compact ++ "," ++ compactItems (w :: vs)

def compactMembers : List (String × JsonValue) → String
  | [] => ""
  | [(k, v)] => quote k ++ ":" ++ v.compact
  | (k, v) :: m :: ms => quote k ++ ":" ++ v.compact ++ "," ++ compactMembers (m :: ms)

end

def indent (level : Nat) : String :=
  "\n" ++ String.ofList (List.replicate (2 * level) ' ')

mutual

/-- The value with a line for each item and member. -/
def pretty (level : Nat) : JsonValue → String
  | .null => "null"
  | .bool b => if b then "true" else "false"
  | .number literal => literal
  | .string s => quote s
  | .array [] => "[]"
  | .array (v :: vs) =>
    "[" ++ indent (level + 1) ++ v.pretty (level + 1) ++ prettyItems (level + 1) vs
      ++ indent level ++ "]"
  | .object [] => "\x7b\x7d"
  | .object ((k, v) :: ms) =>
    "\x7b" ++ indent (level + 1) ++ quote k ++ ": " ++ v.pretty (level + 1)
      ++ prettyMembers (level + 1) ms ++ indent level ++ "\x7d"

def prettyItems (level : Nat) : List JsonValue → String
  | [] => ""
  | v :: vs => "," ++ indent level ++ v.pretty level ++ prettyItems level vs

def prettyMembers (level : Nat) : List (String × JsonValue) → String
  | [] => ""
  | (k, v) :: ms =>
    "," ++ indent level ++ quote k ++ ": " ++ v.pretty level ++ prettyMembers level ms

end

end JsonValue

end CampaignMarkup
