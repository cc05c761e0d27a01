import CampaignMarkup.Settings.Value

/-! # Values of settings files

What stands in a settings file. Dates and times are kept apart from texts here, and become texts
when the file's values become settings.
-/
namespace CampaignMarkup.Toml

inductive Value where
  | boolean (b : Bool)
  | integer (n : Int)
  | float (x : Double)
  | string (s : String)
  /-- A date or a time, in the form it is written in. -/
  | moment (text : String)
  | array (items : List Value)
  | table (members : List (String × Value))
deriving Repr, Inhabited

end CampaignMarkup.Toml
