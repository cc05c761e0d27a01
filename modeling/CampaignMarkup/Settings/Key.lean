import CampaignMarkup.Text.Number

/-! # Keys of settings

`section.name` and `section.list[2]` lead from the root of the settings to a place in them.
-/
namespace CampaignMarkup

inductive KeyStep where
  | member (name : String)
  /-- Negative indices count from the end. -/
  | item (index : Int)
deriving DecidableEq, Repr, Inhabited

/-- A way to a place, which begins at a member of the root. -/
structure SettingKey where
  root : String
  steps : List KeyStep
deriving DecidableEq, Repr, Inhabited

namespace SettingKey

def isNameChar (c : Char) : Bool :=
  c.isAlphanum || c == ' ' || c == '_' || c == '-'

def isBlank (c : Char) : Bool :=
  c == ' ' || c == '\t'

def index? (cs : List Char) : Option Int :=
  let trimmed := ((cs.dropWhile isBlank).reverse.dropWhile isBlank).reverse
  if trimmed.head? = some '+' then none else Chars.integer64? trimmed

/-- The steps behind the section, of which there are no more than `fuel`. -/
def steps? (fuel : Nat) (cs : List Char) : Option (List KeyStep) :=
  match fuel, cs with
  | _, [] => some []
  | 0, _ => none
  | fuel + 1, '.' :: cs =>
    match cs.takeWhile isNameChar with
    | [] => none
    | name => (steps? fuel (cs.dropWhile isNameChar)).map (.member (String.ofList name) :: ·)
  | fuel + 1, '[' :: cs => do
    let (inner, cs) ← Chars.splitOnce ']' cs
    let index ← index? inner
    return .item index :: (← steps? fuel cs)
  | _, _ => none

def read? (text : String) : Option SettingKey :=
  let cs := text.toList
  match cs.takeWhile isNameChar with
  | [] => none
  | name => (steps? cs.length (cs.dropWhile isNameChar)).map (⟨String.ofList name, ·⟩)

/-- A key that is no way to a place names a member of the root by its whole text. -/
def ofText (text : String) : SettingKey :=
  (read? text).getD ⟨text, []⟩

end SettingKey

end CampaignMarkup
