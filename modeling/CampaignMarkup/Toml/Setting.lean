import CampaignMarkup.Toml.Moment
import CampaignMarkup.Toml.Value

/-! # Values of settings files as settings

Dates and times become texts. A table may stand for one of them: if its first key is `momentKey`,
it is the moment that the text under this key tells, whatever else the table has. All other tables
are tables of settings.
-/
namespace CampaignMarkup.Toml

def momentKey : String := "$__toml_private_datetime"

/-- The moment of a table that stands for one. -/
def momentOf? : Value → Option SettingValue
  | .string text => (Moment.ofText? text).map .string
  | _ => none

mutual

def Value.toSetting? : Value → Option SettingValue
  | .boolean b => some (.boolean b)
  | .integer n => some (.integer n)
  | .float x => some (.float x)
  | .string s => some (.string s)
  | .moment text => some (.string text)
  | .array items => (itemsToSettings? items).map .array
  | .table [] => some (.table [])
  | .table ((key, v) :: rest) =>
    if key = momentKey then momentOf? v
    else do
      let first ← v.toSetting?
      return .table ((key, first) :: (← membersToSettings? rest))

def itemsToSettings? : List Value → Option (List SettingValue)
  | [] => some []
  | v :: rest => do return (← v.toSetting?) :: (← itemsToSettings? rest)

def membersToSettings? : List (String × Value) → Option (List (String × SettingValue))
  | [] => some []
  | (key, v) :: rest => do return (key, ← v.toSetting?) :: (← membersToSettings? rest)

end

end CampaignMarkup.Toml
