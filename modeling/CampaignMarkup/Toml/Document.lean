import CampaignMarkup.Assoc
import CampaignMarkup.Toml.Value

/-! # Documents

The tables of a settings file while it is read. A table may be opened once by a header, a table
that a dotted key made may only be extended by dotted keys, and a value is never reopened.
-/
namespace CampaignMarkup.Toml

/-- How a table came about. -/
inductive TableOrigin where
  | header
  /-- On the way to a table further down. -/
  | implied
  | dottedKey
deriving DecidableEq, Repr, Inhabited

inductive Item where
  | value (v : Value)
  | table (origin : TableOrigin) (members : List (String × Item))
  /-- Tables of one repeated header, in order. -/
  | tables (items : List (List (String × Item)))
deriving Repr, Inhabited

abbrev Members := List (String × Item)

/-- Changes the table at a path, and makes it if it is missing. Only the last of repeated tables
can be reached. -/
def changeAt (dotted : Bool) (change : TableOrigin → Members → Option Members) :
    List String → TableOrigin → Members → Option Members
  | [], origin, members => change origin members
  | key :: path, _, members =>
    match Assoc.get? key members with
    | none =>
      let origin := if dotted then TableOrigin.dottedKey else .implied
      (changeAt dotted change path origin []).map fun inner =>
        Assoc.insert key (.table origin inner) members
    | some (.table origin inner) =>
      if dotted ∧ origin = .header then none
      else
        (changeAt dotted change path origin inner).map fun inner =>
          Assoc.insert key (.table origin inner) members
    | some (.tables items) =>
      (changeAt dotted change path .header (items.getLast?.getD [])).map fun inner =>
        Assoc.insert key (.tables (items.dropLast ++ [inner])) members
    | some (.value _) => none

/-- Gives a key its value, once. -/
def assign (path : List String) (key : String) (value : Value) (origin : TableOrigin)
    (members : Members) : Option Members :=
  changeAt true (fun origin members =>
    if (origin = .dottedKey ↔ path = []) ∨ Assoc.contains key members then none
    else some (Assoc.insert key (.value value) members)) path origin members

/-- Opens a table by its header. It is the last member then, even if it was implied before. -/
def openTable (key : String) (members : Members) : Option Members :=
  match Assoc.get? key members with
  | none => some (members ++ [(key, .table .header [])])
  | some (.table .implied inner) =>
    some (members.filter (·.1 ≠ key) ++ [(key, .table .header inner)])
  | _ => none

def openRepeated (key : String) (members : Members) : Option Members :=
  match Assoc.get? key members with
  | none => some (Assoc.insert key (.tables [[]]) members)
  | some (.tables items) => some (Assoc.insert key (.tables (items ++ [[]])) members)
  | _ => none

mutual

def Item.toValue : Item → Value
  | .value v => v
  | .table _ members => .table (membersToValues members)
  | .tables items => .array (tablesToValues items)

def membersToValues : List (String × Item) → List (String × Value)
  | [] => []
  | (key, item) :: rest => (key, item.toValue) :: membersToValues rest

def tablesToValues : List (List (String × Item)) → List Value
  | [] => []
  | members :: rest => .table (membersToValues members) :: tablesToValues rest

end

structure Document where
  members : Members := []
  /-- The table of the last header. -/
  current : List String := []
deriving Inhabited

namespace Document

def assign (d : Document) (path : List String) (key : String) (value : Value) :
    Option Document :=
  (changeAt false (Toml.assign path key value) d.current .header d.members).map fun members =>
    { d with members }

/-- A header opens the table at the path it ends with `key`. -/
def openHeader (d : Document) (repeated : Bool) (path : List String) (key : String) :
    Option Document :=
  let change := if repeated then openRepeated key else openTable key
  (changeAt false (fun _ => change) path .header d.members).map fun members =>
    ⟨members, path ++ [key]⟩

end Document

end CampaignMarkup.Toml
