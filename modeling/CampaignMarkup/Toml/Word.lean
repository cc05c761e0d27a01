import CampaignMarkup.Toml.Moment
import CampaignMarkup.Toml.Value

/-! # Unquoted values

Booleans, numbers, dates and times. Digits may be grouped with underscores, and whole numbers have
64 bits.
-/
namespace CampaignMarkup.Toml

/-- Digits without the underscores between them. -/
def ungroup (isDigit : Char → Bool) (cs : List Char) : Option (List Char) :=
  let groups := Chars.splitOn '_' cs
  if groups.all fun group => !group.isEmpty && group.all isDigit then some groups.flatten
  else none

def digitValue (c : Char) : Nat :=
  if c ≤ '9' then c.toNat - 48 else c.toLower.toNat - 87

def natOfDigits (base : Nat) (digits : List Char) : Nat :=
  digits.foldl (fun n d => base * n + digitValue d) 0

/-- Decimal digits that do not begin with a needless zero. -/
def wholeDigits? (cs : List Char) : Option (List Char) := do
  let digits ← ungroup Char.isDigit cs
  if digits.length = 1 ∨ digits.head? ≠ some '0' then some digits else none

def signed : List Char → Bool × List Char
  | '-' :: cs => (true, cs)
  | '+' :: cs => (false, cs)
  | cs => (false, cs)

def integerOf? (n : Int) : Option Value :=
  if -(Chars.integers64 : Int) ≤ n ∧ n < Chars.integers64 then some (.integer n) else none

def based? (base : Nat) (isDigit : Char → Bool) (cs : List Char) : Option Value := do
  let digits ← ungroup isDigit cs
  integerOf? (natOfDigits base digits)

def isHexDigit (c : Char) : Bool :=
  c.isDigit || ('a' ≤ c && c ≤ 'f') || ('A' ≤ c && c ≤ 'F')

def integer? (cs : List Char) : Option Value :=
  match cs with
  | '0' :: 'x' :: cs => based? 16 isHexDigit cs
  | '0' :: 'o' :: cs => based? 8 (fun c => '0' ≤ c && c ≤ '7') cs
  | '0' :: 'b' :: cs => based? 2 (fun c => c == '0' || c == '1') cs
  | cs => do
    let (negative, cs) := signed cs
    let n : Int := natOfDigits 10 (← wholeDigits? cs)
    integerOf? (if negative then -n else n)

/-- The exponent of a float, with its mark; a missing one is 0. -/
def exponent? : List Char → Option Int
  | [] => some 0
  | _ :: cs => do
    let (negative, cs) := signed cs
    let n : Int := natOfDigits 10 (← ungroup Char.isDigit cs)
    return if negative then -n else n

/-- The digits behind the point, with the point. -/
def fraction? : List Char → Option (List Char)
  | [] => some []
  | _ :: cs => ungroup Char.isDigit cs

/-- A number with a point, an exponent or both. Too large a number is an error, unless it is
negative. -/
def float? (cs : List Char) : Option Value := do
  let (negative, cs) := signed cs
  match String.ofList cs with
  | "inf" => return .float (.infinite negative)
  | "nan" => return .float .notNumber
  | _ =>
    let isMark (c : Char) : Bool := c == 'e' || c == 'E'
    let mantissa := cs.takeWhile (!isMark ·)
    let mark := cs.dropWhile (!isMark ·)
    let point := mantissa.dropWhile (· ≠ '.')
    if mark.isEmpty && point.isEmpty then none
    else
      let whole ← wholeDigits? (mantissa.takeWhile (· ≠ '.'))
      let fraction ← fraction? point
      let exponent ← exponent? mark
      let x := Double.ofDecimal negative (natOfDigits 10 (whole ++ fraction))
        (exponent - fraction.length)
      if x = .infinite false then none else return .float x

def moment? (cs : List Char) : Option Value :=
  (Moment.ofWord? cs).map .moment

def boolean? (cs : List Char) : Option Value :=
  match String.ofList cs with
  | "true" => some (.boolean true)
  | "false" => some (.boolean false)
  | _ => none

def isWordChar (c : Char) : Bool :=
  c.isAlphanum || ['_', '+', '-', '.', ':'].contains c

/-- The characters of an unquoted value. A blank between a date and a time belongs to it. -/
def wordChars : Reader (List Char) := fun cs =>
  let word := cs.takeWhile isWordChar
  let rest := cs.dropWhile isWordChar
  match Moment.date word, rest with
  | some (_, []), ' ' :: d :: more =>
    if d.isDigit then
      some (word ++ ' ' :: d :: more.takeWhile isWordChar, more.dropWhile isWordChar)
    else some (word, rest)
  | _, _ => some (word, rest)

def word : Reader Value := fun cs => do
  let (chars, rest) ← wordChars cs
  let value ← boolean? chars <|> moment? chars <|> integer? chars <|> float? chars
  return (value, rest)

end CampaignMarkup.Toml
