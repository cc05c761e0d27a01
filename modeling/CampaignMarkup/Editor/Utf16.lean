import CampaignMarkup.Source.Position
import CampaignMarkup.Text.Split

/-! # Columns in UTF-16 units

An editor counts columns in UTF-16 code units, in which a character beyond the basic plane is
two. Everything else in the library counts characters.
-/
namespace CampaignMarkup.Utf16

/-- The number of units of a character. -/
def width (c : Char) : Nat :=
  if c.toNat < 0x10000 then 1 else 2

/-- The number of units of a text. -/
def length : List Char → Nat
  | [] => 0
  | c :: cs => width c + length cs

/-- The column at which at least `units` units have passed, or the end of the line. A count
inside a pair of surrogates gives the column behind the pair. -/
def column : Nat → List Char → Nat
  | 0, _ => 0
  | _, [] => 0
  | units, c :: cs => column (units - width c) cs + 1

/-- The units before a column. -/
def units (column : Nat) (cs : List Char) : Nat :=
  length (cs.take column)

/-- The line without the carriage returns at its end; lines behind the last are empty. -/
def lineText (source : String) (line : Nat) : List Char :=
  (((Text.lineAt? source line).getD []).reverse.dropWhile (· = '\r')).reverse

/-- A position counted in units, counted in characters. -/
def toPosition (source : String) (p : Position) : Position :=
  ⟨p.line, column p.column (lineText source p.line)⟩

/-- A position counted in characters, counted in units. -/
def ofPosition (source : String) (p : Position) : Position :=
  ⟨p.line, units p.column (lineText source p.line)⟩

end CampaignMarkup.Utf16
