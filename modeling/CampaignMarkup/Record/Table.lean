import CampaignMarkup.Record.Basic

/-! # Tables of records

A fixed list of columns and a row for each record of one tag; an attribute that is missing is an
empty cell. The table is exported as comma-separated values: lines end in CR LF, a field is
quoted only if it holds a comma, a quote or a line break, and a line that would be empty is
written as a pair of quotes.
-/
namespace CampaignMarkup

/-- A row with another number of fields than the header. -/
structure UnequalWidth where
  found : Nat
  expected : Nat
deriving DecidableEq, Repr, Inhabited

def UnequalWidth.message (e : UnequalWidth) : String :=
  "CSV error: found record with " ++ toString e.found
    ++ " fields, but the previous record has " ++ toString e.expected ++ " fields"

structure RecordTable where
  columns : List String
  rows : List (List String)
deriving DecidableEq, Repr, Inhabited

namespace RecordTable

/-- The cells of one record. -/
def cells (columns : List String) (r : Record) : List String :=
  columns.map fun column => ((r.get? column).map AttributeValue.display).getD ""

/-- A row for every record of the tag, at any depth. -/
def project (records : List Record) (tag : String) (columns : List String) : RecordTable :=
  ⟨columns, (Record.findAllIn tag records).map (cells columns)⟩

def needsQuotes (field : List Char) : Bool :=
  field.any fun c => c == ',' || c == '"' || c == '\r' || c == '\n'

def csvField (field : String) : String :=
  if needsQuotes field.toList then
    String.ofList ('"' :: Chars.doubleQuotes field.toList ++ ['"'])
  else field

def csvRow (fields : List String) : String :=
  if fields.all (· = "") && fields.length ≤ 1 then "\"\"\r\n"
  else String.intercalate "," (fields.map csvField) ++ "\r\n"

/-- The header and the rows, which must be as wide as the header. -/
def csv (t : RecordTable) : Except UnequalWidth String :=
  match t.rows.find? (·.length ≠ t.columns.length) with
  | some row => .error ⟨row.length, t.columns.length⟩
  | none => .ok (String.join ((t.columns :: t.rows).map csvRow))

end RecordTable

end CampaignMarkup
