import CampaignMarkup.Text.Split

/-! # Numbers

Reading whole numbers of a fixed width. Only ASCII digits count, and a number that does not
fit its width is not read at all.
-/
namespace CampaignMarkup

namespace Chars

def isDigit (c : Char) : Bool :=
  '0' ≤ c && c ≤ '9'

/-- The value of a run of digits. -/
def digitsValue (cs : List Char) : Nat :=
  cs.foldl (fun n c => 10 * n + (c.toNat - 48)) 0

/-- One or more digits and nothing else. -/
def digits? (cs : List Char) : Option Nat :=
  if cs.isEmpty || !cs.all isDigit then none else some (digitsValue cs)

/-- The value of a hexadecimal digit, in either case. -/
def hexValue? (c : Char) : Option Nat :=
  if '0' ≤ c ∧ c ≤ '9' then some (c.toNat - 48)
  else if 'a' ≤ c ∧ c ≤ 'f' then some (c.toNat - 87)
  else if 'A' ≤ c ∧ c ≤ 'F' then some (c.toNat - 55)
  else none

/-- The number of unsigned numbers of 64 bits. -/
def naturals64 : Nat := 0x10000000000000000

/-- The number of signed numbers of 64 bits that are not negative. -/
def integers64 : Nat := 0x8000000000000000

/-- An unsigned number of 64 bits, with an optional plus sign. -/
def natural64? (cs : List Char) : Option Nat :=
  (digits? ((dropStart? ['+'] cs).getD cs)).filter (· < naturals64)

/-- A signed number of 64 bits, with an optional sign. -/
def integer64? (cs : List Char) : Option Int :=
  match cs with
  | '-' :: rest => ((digits? rest).filter (· ≤ integers64)).map fun n => -(n : Int)
  | _ =>
    ((digits? ((dropStart? ['+'] cs).getD cs)).filter (· < integers64)).map fun n => (n : Int)

end Chars

namespace Text

def natural64? (s : String) : Option Nat :=
  Chars.natural64? s.toList

def integer64? (s : String) : Option Int :=
  Chars.integer64? s.toList

end Text

end CampaignMarkup
