import CampaignMarkup.Text.Number
import CampaignMarkup.Toml.Scan

/-! # Dates and times

A date, a time or both, with the distance from universal time where both are given. Each has one
form it is written in: a `T` between date and time, a `Z` for no distance, and parts of a second
to the billionth and without zeros at the end.

A moment may be written plainly, or as a text that a table holds. The text is read less strictly:
a time may have the hour 24, and the distance may be any number of minutes up to a day.
-/
namespace CampaignMarkup.Toml

def expect (c : Char) : List Char → Option (List Char)
  | d :: cs => if c = d then some cs else none
  | [] => none

namespace Moment

/-- Exactly `count` digits, as text and as number. -/
def digits (count : Nat) : Reader (String × Nat) := fun cs =>
  let ds := cs.take count
  if ds.length = count ∧ ds.all Chars.isDigit then
    some ((String.ofList ds, Chars.digitsValue ds), cs.drop count)
  else none

def daysIn (year month : Nat) : Nat :=
  if month = 2 then
    if year % 4 = 0 ∧ (year % 100 ≠ 0 ∨ year % 400 = 0) then 29 else 28
  else if [4, 6, 9, 11].contains month then 30
  else 31

def date : Reader String := fun cs => do
  let ((yearText, year), cs) ← digits 4 cs
  let cs ← expect '-' cs
  let ((monthText, month), cs) ← digits 2 cs
  let cs ← expect '-' cs
  let ((dayText, day), cs) ← digits 2 cs
  if 1 ≤ month ∧ month ≤ 12 ∧ 1 ≤ day ∧ day ≤ daysIn year month then
    some (yearText ++ "-" ++ monthText ++ "-" ++ dayText, cs)
  else none

/-- Two numbers of two digits with a colon between them. -/
def clock : Reader (Nat × Nat) := fun cs => do
  let ((_, hours), cs) ← digits 2 cs
  let cs ← expect ':' cs
  let ((_, minutes), cs) ← digits 2 cs
  return ((hours, minutes), cs)

def twoDigits (n : Nat) : String :=
  if n < 10 then "0" ++ toString n else toString n

def clockText (hours minutes : Nat) : String :=
  twoDigits hours ++ ":" ++ twoDigits minutes

/-- Parts of a second, to the billionth and without zeros at the end. -/
def secondParts : List Char → Option (String × List Char)
  | '.' :: cs =>
    let ds := cs.takeWhile Chars.isDigit
    let kept := ((ds.take 9).reverse.dropWhile (· = '0')).reverse
    if ds.isEmpty then none
    else
      some (if kept.isEmpty then "" else String.ofList ('.' :: kept), cs.dropWhile Chars.isDigit)
  | cs => some ("", cs)

def time (lastHour : Nat) : Reader String := fun cs => do
  let ((hours, minutes), cs) ← clock cs
  let cs ← expect ':' cs
  let ((secondText, seconds), cs) ← digits 2 cs
  let (parts, cs) ← secondParts cs
  if hours ≤ lastHour ∧ minutes ≤ 59 ∧ seconds ≤ 60 then
    some (clockText hours minutes ++ ":" ++ secondText ++ parts, cs)
  else none

/-- Which hours and minutes a distance from universal time may have. -/
def isPlainDistance (hours minutes : Nat) : Bool :=
  hours ≤ 23 && minutes ≤ 59

def isLooseDistance (hours minutes : Nat) : Bool :=
  60 * hours + minutes ≤ 1440

/-- The distance from universal time, which may be missing. No distance has no sign of its own. -/
def distance? (accepts : Nat → Nat → Bool) : List Char → Option String
  | [] => some ""
  | ['Z'] | ['z'] => some "Z"
  | sign :: cs => do
    let ((hours, minutes), rest) ← clock cs
    if ¬ rest.isEmpty ∨ (sign ≠ '+' ∧ sign ≠ '-') ∨ accepts hours minutes = false then none
    else
      let total := 60 * hours + minutes
      return (if sign = '-' ∧ total ≠ 0 then "-" else "+") ++ clockText (total / 60) (total % 60)

/-- A date, a time, or a date with a time. -/
def read? (lastHour : Nat) (accepts : Nat → Nat → Bool) (cs : List Char) : Option String :=
  match date cs with
  | some (day, []) => some day
  | some (day, c :: cs) =>
    if c = 'T' ∨ c = 't' ∨ c = ' ' then do
      let (hour, cs) ← time lastHour cs
      return day ++ "T" ++ hour ++ (← distance? accepts cs)
    else none
  | none =>
    match time lastHour cs with
    | some (hour, []) => some hour
    | _ => none

/-- A moment that is written plainly. -/
def ofWord? (cs : List Char) : Option String :=
  read? 23 isPlainDistance cs

/-- A moment that is the text of a table. -/
def ofText? (text : String) : Option String :=
  read? 24 isLooseDistance text.toList

end Moment

end CampaignMarkup.Toml
