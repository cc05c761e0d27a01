/-! # Ranges of characters

A property of characters as a list of inclusive ranges of code points, in ascending order.
-/
namespace CampaignMarkup.Text

/-- Whether the character lies in one of the ranges. -/
def inRanges (ranges : List (Nat × Nat)) (c : Char) : Bool :=
  ranges.any fun (first, last) => first ≤ c.toNat && c.toNat ≤ last

end CampaignMarkup.Text
