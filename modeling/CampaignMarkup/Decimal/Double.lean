/-! # Double-precision numbers

A number of the binary format with 53 bits of precision, and the one that is nearest to a given
decimal. Everything is done in exact arithmetic on naturals.
-/
namespace CampaignMarkup

inductive Double where
  /-- The mantissa times that power of two, with a sign. -/
  | finite (negative : Bool) (mantissa : Nat) (exponent : Int)
  | infinite (negative : Bool)
  | notNumber
deriving DecidableEq, Repr, Inhabited

/-- A fraction of naturals. -/
structure Fraction where
  num : Nat
  den : Nat
deriving DecidableEq, Repr, Inhabited

namespace Fraction

/-- The fraction times a power of `base`. -/
def scale (q : Fraction) (base : Nat) (exponent : Int) : Fraction :=
  ⟨q.num * Nat.pow base exponent.toNat, q.den * Nat.pow base (-exponent).toNat⟩

/-- The nearest natural; halfway between two it is the even one. -/
def round (q : Fraction) : Nat :=
  let floor := q.num / q.den
  let twice := 2 * (q.num % q.den)
  if twice < q.den then floor
  else if q.den < twice then floor + 1
  else floor + floor % 2

/-- The largest power of two that is not above the fraction, for one that is not 0. -/
def log2 (q : Fraction) : Int :=
  let guess : Int := (q.num.log2 : Int) - q.den.log2
  let scaled := q.scale 2 (-guess)
  if scaled.den ≤ scaled.num then guess else guess - 1

/-- The number of decimal digits of a natural; 0 has none. -/
def digitCount (n : Nat) : Nat :=
  if n = 0 then 0 else (Nat.toDigits 10 n).length

/-- The largest power of ten that is not above the fraction, for one that is not 0. -/
def log10 (q : Fraction) : Int :=
  if q.den ≤ q.num then (digitCount (q.num / q.den) : Int) - 1
  else -(digitCount ((q.den - 1) / q.num) : Int)

end Fraction

namespace Double

/-- Mantissas are below this. -/
def mantissaLimit : Nat := 0x20000000000000

/-- Mantissas are not below this, unless the exponent is the least. -/
def mantissaFloor : Nat := 0x10000000000000

def minExponent : Int := -1074

def maxExponent : Int := 971

/-- The double nearest to a fraction that is not 0. -/
def ofFraction (negative : Bool) (q : Fraction) : Double :=
  let aligned := q.log2 - 52
  let exponent := if aligned < minExponent then minExponent else aligned
  let mantissa := (q.scale 2 (-exponent)).round
  let (mantissa, exponent) :=
    if mantissa = mantissaLimit then (mantissaFloor, exponent + 1) else (mantissa, exponent)
  if maxExponent < exponent then .infinite negative else .finite negative mantissa exponent

/-- The double nearest to `digits` times a power of ten. Powers far outside the range of doubles
are decided without being computed. -/
def ofDecimal (negative : Bool) (digits : Nat) (exponent : Int) : Double :=
  let magnitude := exponent + Fraction.digitCount digits
  if digits = 0 ∨ magnitude < -400 then .finite negative 0 minExponent
  else if 400 < magnitude then .infinite negative
  else ofFraction negative ((Fraction.mk digits 1).scale 10 exponent)

def isZero : Double → Bool
  | .finite _ mantissa _ => mantissa == 0
  | _ => false

/-- The nearest natural below `limit`, halves going up; numbers outside go to the nearer end. -/
def toNatBelow (limit : Nat) : Double → Nat
  | .finite false mantissa exponent =>
    let q := (Fraction.mk mantissa 1).scale 2 exponent
    min (limit - 1) ((2 * q.num + q.den) / (2 * q.den))
  | .finite true _ _ => 0
  | .infinite negative => if negative then 0 else limit - 1
  | .notNumber => 0

end Double

end CampaignMarkup
