import CampaignMarkup.Assoc
import CampaignMarkup.Settings.Key
import CampaignMarkup.Settings.Value

/-! # Layers of settings

A later layer replaces what an earlier one says, key by key. Keys are compared without case.
-/
namespace CampaignMarkup

namespace SettingValue

def members : SettingValue → List (String × SettingValue)
  | .table members => members
  | _ => []

def items : SettingValue → List SettingValue
  | .array items => items
  | _ => []

mutual

/-- A value laid over the one that is there. Tables are merged, all else is replaced; a table
without members changes nothing. -/
def layOver (below : Option SettingValue) : SettingValue → SettingValue
  | .table [] => below.getD (.table [])
  | .table (m :: ms) => .table (mergeMembers (m :: ms) ((below.map members).getD []))
  | v => v

def mergeMembers : List (String × SettingValue) → List (String × SettingValue) →
    List (String × SettingValue)
  | [], below => below
  | (key, v) :: rest, below =>
    mergeMembers rest
      (Assoc.insert key.toLower (v.layOver (Assoc.get? key.toLower below)) below)

end

/-- The position of an index in a list of `length` items. -/
def position (length : Nat) (index : Int) : Nat :=
  if 0 ≤ index then index.toNat else length - index.natAbs

/-- The list with an item changed; it grows if it is too short. -/
def changeItem (items : List SettingValue) (position : Nat)
    (change : SettingValue → SettingValue) : List SettingValue :=
  let items := items ++ List.replicate (position + 1 - items.length) .unset
  items.modify position change

/-- Puts a value at a place, making the tables and arrays on the way. -/
def put (value : SettingValue) : List KeyStep → SettingValue → SettingValue
  | [], _ => value
  | [.member name], below =>
    .table (Assoc.insert name.toLower (value.layOver (Assoc.get? name.toLower below.members))
      below.members)
  | .member name :: steps, below =>
    .table (Assoc.insert name.toLower
      (put value steps ((Assoc.get? name.toLower below.members).getD .unset)) below.members)
  | .item index :: steps, below =>
    .array (changeItem below.items (position below.items.length index) (put value steps))

/-- Puts a value at the place of a key. -/
def putAt (value : SettingValue) (key : SettingKey) (below : SettingValue) : SettingValue :=
  put value (.member key.root :: key.steps) below

/-- A file's members laid over the settings; their keys may lead further down. -/
def layer (file : List (String × SettingValue)) (below : SettingValue) : SettingValue :=
  file.foldl (fun below (key, value) => value.putAt (SettingKey.ofText key) below) below

end SettingValue

end CampaignMarkup
