import CampaignMarkup.Text.Number
import CampaignMarkup.Text.Ranges

/-! # Tables of characters

Large tables are written as words of hexadecimal numbers. In a table of ranges, `B5` is one
character and `C0-D6` are all from the first to the last. In a table of runs, `C0-D6=E0` says what
each of these becomes, `100~12E=101` does so for every second one, and `132=69.6A` gives a character
that becomes two.
-/
namespace CampaignMarkup.Text

/-- The words of a table, between blanks and line breaks. -/
def entries (table : String) : List (List Char) :=
  let add (word : List Char) (words : List (List Char)) : List (List Char) :=
    if word.isEmpty then words else word :: words
  let (word, words) := table.toList.foldr (fun c (word, words) =>
    if c = ' ' || c = '\n' then ([], add word words) else (c :: word, words)) ([], [])
  add word words

def codePoint (digits : List Char) : Nat :=
  digits.foldl (fun n d => 16 * n + (Chars.hexValue? d).getD 0) 0

/-- The numbers at both ends of a range. -/
def bounds (separator : Char) (word : List Char) : Nat × Nat :=
  match Chars.splitOnce separator word with
  | some (first, last) => (codePoint first, codePoint last)
  | none => (codePoint word, codePoint word)

def ranges (table : String) : List (Nat × Nat) :=
  (entries table).map (bounds '-')

/-- Characters from `first` to `last`, `step` apart, and what the first of them becomes. Each of the
others becomes characters as far from these as it is from the first. -/
structure Run where
  first : Nat
  last : Nat
  step : Nat
  images : List Nat
deriving DecidableEq, Repr, Inhabited

namespace Run

def contains (run : Run) (c : Char) : Bool :=
  run.first ≤ c.toNat && c.toNat ≤ run.last && (c.toNat - run.first) % run.step == 0

/-- What a character of the run becomes. -/
def image (run : Run) (c : Char) : List Char :=
  run.images.map fun n => Char.ofNat (n + (c.toNat - run.first))

def firstChar (run : Run) : Char :=
  Char.ofNat run.first

def ofWord (word : List Char) : Run :=
  let (sources, images) := (Chars.splitOnce '=' word).getD (word, [])
  let step := if sources.contains '~' then 2 else 1
  let (first, last) := bounds (if step = 2 then '~' else '-') sources
  ⟨first, last, step, (Chars.splitOn '.' images).map codePoint⟩

end Run

def runs (table : String) : List Run :=
  (entries table).map Run.ofWord

end CampaignMarkup.Text
