import CampaignMarkup.Text.Number
import CampaignMarkup.Token.Lexer

/-! # Attribute values

Quoted, translatable and raw values are strings. Of the others, `yes`, `true`, `no` and `false`
are booleans, whole numbers of 64 bits are integers, and the rest are strings.
-/
namespace CampaignMarkup

inductive AttributeValue where
  | string (s : String)
  | integer (n : Int)
  | boolean (b : Bool)
deriving DecidableEq, Repr, Inhabited

/-- A value asked for as a type it does not have. -/
structure TypeMismatch where
  expected : String
  found : String
  value : String
deriving DecidableEq, Repr, Inhabited

def TypeMismatch.message (e : TypeMismatch) : String :=
  "expected " ++ e.expected ++ " value but found " ++ e.found ++ " '" ++ e.value ++ "'"

namespace AttributeValue

/-- A translatable string without its mark. -/
def untranslated (raw : List Char) : List Char :=
  match raw with
  | '_' :: rest =>
    let quoted := Chars.trimStart rest
    if quoted.head? = some '"' then quoted else raw
  | _ => raw

def ofPlain (raw : List Char) : AttributeValue :=
  match String.ofList raw with
  | "yes" | "true" => .boolean true
  | "no" | "false" => .boolean false
  | s =>
    match Chars.integer64? raw with
    | some n => .integer n
    | none => .string s

/-- The value that is written as `raw`. -/
def read (raw : String) : AttributeValue :=
  let trimmed := Chars.trim raw.toList
  match untranslated trimmed with
  | '"' :: c :: cs => .string (String.ofList (Chars.unquote ('"' :: c :: cs)))
  | _ =>
    match (Chars.dropStart? ['<', '<'] trimmed).bind (Chars.dropEnding? ['>', '>']) with
    | some inner => .string (String.ofList inner)
    | none => ofPlain trimmed

def typeName : AttributeValue → String
  | .string _ => "string"
  | .integer _ => "integer"
  | .boolean _ => "boolean"

def display : AttributeValue → String
  | .string s => s
  | .integer n => toString n
  | .boolean true => "yes"
  | .boolean false => "no"

def mismatch (v : AttributeValue) (expected : String) : TypeMismatch :=
  ⟨expected, v.typeName, v.display⟩

def asString : AttributeValue → Except TypeMismatch String
  | .string s => .ok s
  | v => .error (v.mismatch "string")

def asInteger : AttributeValue → Except TypeMismatch Int
  | .integer n => .ok n
  | v => .error (v.mismatch "integer")

def asBool : AttributeValue → Except TypeMismatch Bool
  | .boolean b => .ok b
  | v => .error (v.mismatch "boolean")

/-- A string that would be read as something else without quotes. -/
def needsQuotes (s : String) : Bool :=
  let cs := s.toList
  cs.contains '"' || cs.contains '\n' || Chars.trim cs != cs || (Chars.integer64? cs).isSome

/-- The value as markup. -/
def render : AttributeValue → String
  | .string s =>
    if needsQuotes s then String.ofList ('"' :: Chars.doubleQuotes s.toList ++ ['"']) else s
  | v => v.display

end AttributeValue

end CampaignMarkup
