import CampaignMarkup.Text.CombiningClass
import CampaignMarkup.Text.Decomposition

/-! # Composed texts

Texts that look the same may be spelled in several ways. The composed form is one for all of them:
every character is taken apart, marks that do not touch each other are put in the order of their
classes, and what can be put together again is.
-/
namespace CampaignMarkup.Text

/-- Puts a character in front of a text, but a mark behind the marks of lower classes. -/
def place (c : Char) : List Char → List Char
  | [] => [c]
  | d :: ds =>
    if combiningClass d ≠ 0 ∧ combiningClass d < combiningClass c then d :: place c ds
    else c :: d :: ds

/-- The text with the marks on each character in the order of their classes. -/
def orderMarks (cs : List Char) : List Char :=
  cs.foldr place []

/-- Whether a mark or letter cannot reach the character that `marks` are put on. -/
def isBlocked (marks : List Char) (c : Char) : Bool :=
  marks.getLast?.any fun d => combiningClass c ≤ combiningClass d

/-- Puts a text together behind a character and those of its marks that stay apart from it. -/
def compose (base : Char) (marks : List Char) : List Char → List Char
  | [] => base :: marks
  | c :: cs =>
    match if isBlocked marks c then none else composite? base c with
    | some whole => compose whole marks cs
    | none =>
      if combiningClass c = 0 then base :: marks ++ compose c [] cs
      else compose base (marks ++ [c]) cs

def composed (cs : List Char) : List Char :=
  let ordered := orderMarks (cs.flatMap parts)
  let isLoose (c : Char) : Bool := combiningClass c ≠ 0
  match ordered.dropWhile isLoose with
  | [] => ordered
  | base :: rest => ordered.takeWhile isLoose ++ compose base [] rest

end CampaignMarkup.Text
