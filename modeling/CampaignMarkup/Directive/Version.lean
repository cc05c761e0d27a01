import CampaignMarkup.Text.Blank
import CampaignMarkup.Text.Number

/-! # Versions

Dotted numbers, compared component by component; missing components count as 0, so `1.18` and
`1.18.0` are equal. A component is read from its leading digits, so `1.19.0+dev` is `1.19.0`.
-/
namespace CampaignMarkup

inductive VersionError where
  | empty
  | invalidComponent (component : String)
  | unknownOperator (operator : String)
deriving DecidableEq, Repr, Inhabited

def VersionError.message : VersionError → String
  | .empty => "empty version"
  | .invalidComponent component => "invalid version component '" ++ component ++ "'"
  | .unknownOperator operator => "unknown comparison operator '" ++ operator ++ "'"

structure Version where
  components : List Nat
deriving DecidableEq, Repr, Inhabited

namespace Version

def readComponent (component : List Char) : Except VersionError Nat :=
  match Chars.natural64? (component.takeWhile Chars.isDigit) with
  | some n => .ok n
  | none => .error (.invalidComponent (String.ofList component))

def read (text : String) : Except VersionError Version :=
  let trimmed := Chars.trim text.toList
  if trimmed.isEmpty then .error .empty
  else ((Chars.splitOn '.' trimmed).mapM readComponent).map Version.mk

def display (v : Version) : String :=
  String.intercalate "." (v.components.map toString)

/-- The order of the first components that differ. -/
def compareComponents : List Nat → List Nat → Ordering
  | [], [] => .eq
  | a :: as, [] => (compare a 0).then (compareComponents as [])
  | [], b :: bs => (compare 0 b).then (compareComponents [] bs)
  | a :: as, b :: bs => (compare a b).then (compareComponents as bs)

def compare (v w : Version) : Ordering :=
  compareComponents v.components w.components

/-- Neither comes before the other; the components may differ in zeros at the end. -/
def same (v w : Version) : Bool :=
  (v.compare w).isEq

end Version

inductive Comparison where
  | eq
  | ne
  | lt
  | le
  | gt
  | ge
deriving DecidableEq, Repr, Inhabited

namespace Comparison

def read (operator : String) : Except VersionError Comparison :=
  match operator with
  | "=" | "==" => .ok .eq
  | "!=" => .ok .ne
  | "<" => .ok .lt
  | "<=" => .ok .le
  | ">" => .ok .gt
  | ">=" => .ok .ge
  | other => .error (.unknownOperator other)

def holds (c : Comparison) (v w : Version) : Bool :=
  match c with
  | .eq => (v.compare w).isEq
  | .ne => (v.compare w).isNe
  | .lt => (v.compare w).isLT
  | .le => (v.compare w).isLE
  | .gt => (v.compare w).isGT
  | .ge => (v.compare w).isGE

end Comparison

end CampaignMarkup
