import CampaignMarkup.Decimal.Shortest
import CampaignMarkup.Text.Number

/-! # Values of settings

What a settings file or an override may hold. A value is read as the type that a setting has, and
the types are lenient: numbers and booleans may stand for texts, and texts for numbers and
booleans.
-/
namespace CampaignMarkup

inductive SettingValue where
  /-- A place that was made on the way to another. -/
  | unset
  | boolean (b : Bool)
  | integer (n : Int)
  | float (x : Double)
  | string (s : String)
  | array (items : List SettingValue)
  | table (members : List (String × SettingValue))
deriving Repr, Inhabited

namespace SettingValue

def isYes (s : String) : Bool :=
  ["true", "on", "yes"].contains s.toLower

def isNo (s : String) : Bool :=
  ["false", "off", "no"].contains s.toLower

def asText? : SettingValue → Option String
  | .string s => some s
  | .boolean b => some (if b then "true" else "false")
  | .integer n => some (toString n)
  | .float x => some x.text
  | _ => none

def asBool? : SettingValue → Option Bool
  | .boolean b => some b
  | .integer n => some (n ≠ 0)
  | .float x => some !x.isZero
  | .string s =>
    if isYes s || s = "1" then some true
    else if isNo s || s = "0" then some false
    else none
  | _ => none

/-- A natural of 64 bits. -/
def asNatural? : SettingValue → Option Nat
  | .integer n => if n < 0 then none else some n.toNat
  | .boolean b => some b.toNat
  | .float x => some (x.toNatBelow Chars.naturals64)
  | .string s => if isYes s then some 1 else if isNo s then some 0 else Text.natural64? s
  | _ => none

def asTexts? : SettingValue → Option (List String)
  | .array items => items.mapM asText?
  | _ => none

/-- The value of one of `choices`, in any case. A table with a single member names it by the
member's key. -/
def asChoice? {α : Type} (choices : List (String × α)) : SettingValue → Option α
  | .string s => choices.lookup s.toLower
  | .table [(key, _)] => choices.lookup key.toLower
  | _ => none

/-- The values of a section's fields: by key, or in order. -/
def asFields? (keys : List String) : SettingValue → Option (List SettingValue)
  | .table members => keys.mapM (members.lookup ·)
  | .array items => if keys.length ≤ items.length then some items else none
  | _ => none

end SettingValue

end CampaignMarkup
