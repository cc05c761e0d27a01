import CampaignMarkup.Macros.Definition
import Std.Data.HashMap

/-! # Macro table

Definitions in the order in which they were made, with an index from names to positions. A new
definition of a name stands beside the old ones, and the latest is the one that counts. Removing
a name leaves holes among the slots; once the holes outnumber the rows, the slots are packed.
-/
namespace CampaignMarkup

structure MacroTable where
  slots : Array (Option Definition) := #[]
  index : Std.HashMap String (Array Nat) := {}
  /-- How many slots hold a row. -/
  live : Nat := 0
deriving Inhabited

namespace MacroTable

def empty : MacroTable := {}

/-- Adds a row behind all others. -/
def define (t : MacroTable) (d : Definition) : MacroTable where
  slots := t.slots.push (some d)
  index := t.index.insert d.name ((t.index.getD d.name #[]).push t.slots.size)
  live := t.live + 1

def ofList (ds : List Definition) : MacroTable :=
  ds.foldl define empty

/-- All rows, oldest first. -/
def rows (t : MacroTable) : List Definition :=
  t.slots.toList.filterMap id

def rowAt? (t : MacroTable) (position : Nat) : Option Definition :=
  t.slots.getD position none

/-- The latest definition of a name. -/
def lookup (t : MacroTable) (name : String) : Option Definition :=
  (t.index[name]?).bind fun positions => positions.back?.bind t.rowAt?

/-- Every definition of a name, oldest first. -/
def lookupAll (t : MacroTable) (name : String) : List Definition :=
  (t.index.getD name #[]).toList.filterMap t.rowAt?

def contains (t : MacroTable) (name : String) : Bool :=
  t.index.contains name

def size (t : MacroTable) : Nat :=
  t.live

def isEmpty (t : MacroTable) : Bool :=
  t.live == 0

/-- Fewer holes than this are never packed. -/
def packingFloor : Nat := 64

/-- Takes the rows of a name out and leaves holes in their slots. -/
def vacate (t : MacroTable) (name : String) : MacroTable :=
  let positions := t.index.getD name #[]
  { slots := positions.foldl (fun slots position => slots.setIfInBounds position none) t.slots
    index := t.index.erase name
    live := t.live - positions.size }

/-- Packs the slots if the holes are many and no fewer than the rows. -/
def pack (t : MacroTable) : MacroTable :=
  let holes := t.slots.size - t.live
  if holes < packingFloor || holes < t.live then t else ofList t.rows

/-- The table without any definition of the name. -/
def undef (t : MacroTable) (name : String) : MacroTable :=
  if (t.index.getD name #[]).isEmpty then t else (t.vacate name).pack

/-- How many rows `undef` removes. -/
def count (t : MacroTable) (name : String) : Nat :=
  (t.index.getD name #[]).size

/-- The names in order of their first row. -/
def names (t : MacroTable) : List String :=
  (t.rows.map (·.name)).eraseDups

end MacroTable

end CampaignMarkup
