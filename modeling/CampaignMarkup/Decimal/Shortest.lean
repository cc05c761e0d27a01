import CampaignMarkup.Decimal.Double

/-! # Shortest decimals

A double is written with the fewest digits that read back as it, and of those with the digits
nearest to it. The notation is positional for every magnitude, and a whole number has no point.
-/
namespace CampaignMarkup.Double

/-- The reals that read as one double, in quarters of its last place. -/
structure Neighbourhood where
  low : Nat
  middle : Nat
  high : Nat
  /-- Whether the ends belong to it. -/
  closed : Bool
deriving DecidableEq, Repr, Inhabited

/-- Below a power of two the gap to the next double is half as wide. -/
def neighbourhood (mantissa : Nat) (exponent : Int) : Neighbourhood :=
  let narrow := mantissa = mantissaFloor ∧ minExponent < exponent
  ⟨4 * mantissa - (if narrow then 1 else 2), 4 * mantissa, 4 * mantissa + 2, mantissa % 2 == 0⟩

/-- Whether `d` steps of a grid lie in the neighbourhood, where a step of the grid is to a quarter
of the last place as `unit.num` to `unit.den`. -/
def Neighbourhood.holds (n : Neighbourhood) (unit : Fraction) (d : Nat) : Bool :=
  let x := d * unit.num
  let low := n.low * unit.den
  let high := n.high * unit.den
  if n.closed then low ≤ x && x ≤ high else low < x && x < high

/-- The step count on the grid that is nearest to the middle, if one lies in the neighbourhood.
Of two equally near it is the upper. -/
def Neighbourhood.nearest? (n : Neighbourhood) (unit : Fraction) : Option Nat :=
  let below := n.middle * unit.den / unit.num
  let above := below + 1
  match n.holds unit below, n.holds unit above with
  | true, true =>
    if n.middle * unit.den - below * unit.num < above * unit.num - n.middle * unit.den then
      some below
    else some above
  | true, false => some below
  | false, true => some above
  | false, false => none

/-- Digits and power of ten of the shortest decimal. -/
def shortest (mantissa : Nat) (exponent : Int) : Nat × Int :=
  let n := neighbourhood mantissa exponent
  let magnitude := ((Fraction.mk mantissa 1).scale 2 exponent).log10
  let quarter := (Fraction.mk 1 1).scale 2 (2 - exponent)
  let attempt (digits : Nat) : Option (Nat × Int) :=
    let power := magnitude - digits
    (n.nearest? (quarter.scale 10 power)).map (·, power)
  ((List.range 17).findSome? attempt).getD (0, 0)

def zeros (n : Nat) : List Char :=
  List.replicate n '0'

/-- `digits` times a power of ten, without an exponent. -/
def positional (digits : Nat) (power : Int) : String :=
  let ds := Nat.toDigits 10 digits
  if 0 ≤ power then String.ofList (ds ++ zeros power.toNat)
  else
    let places := (-power).toNat
    let padded := zeros (places + 1 - ds.length) ++ ds
    let whole := padded.take (padded.length - places)
    let fraction := ((padded.drop (padded.length - places)).reverse.dropWhile (· = '0')).reverse
    String.ofList (if fraction.isEmpty then whole else whole ++ '.' :: fraction)

def text : Double → String
  | .finite negative mantissa exponent =>
    let (digits, power) := if mantissa = 0 then (0, 0) else shortest mantissa exponent
    (if negative then "-" else "") ++ positional digits power
  | .infinite negative => if negative then "-inf" else "inf"
  | .notNumber => "NaN"

end CampaignMarkup.Double
