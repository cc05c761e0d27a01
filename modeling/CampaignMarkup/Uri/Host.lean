import CampaignMarkup.Uri.Address
import CampaignMarkup.Uri.Name.Label

/-! # Hosts

The host of a URI is an address or a name. A name is kept in ASCII, in the one form that all its
spellings have. Schemes without rules of their own keep a host as it is spelled.
-/
namespace CampaignMarkup.Uri

/-- Characters that the name of a host may not hold. -/
def isForbiddenInName (c : Char) : Bool :=
  c.toNat ≤ 0x20 || c.toNat = 0x7F || "#%/:<>?@[\\]^|".toList.contains c

/-- Characters that no host may hold. -/
def isForbiddenInHost (c : Char) : Bool :=
  "\x00\t\n\r #/:<>?@[\\]^|".toList.contains c

/-- An address between brackets. -/
def bracketed? (cs : List Char) : Option String :=
  if cs.getLast? = some ']' then
    (Address.groups? cs.dropLast).map fun groups => "[" ++ Address.groupsText groups ++ "]"
  else none

/-- A host under a scheme that knows addresses and names. -/
def host? : List Char → Option String
  | '[' :: cs => bracketed? cs
  | cs => do
    let name ← Name.ascii? (← decode? cs)
    if name.isEmpty || name.any isForbiddenInName then none
    else if Address.isBytes name then (Address.bytes? name).map Address.bytesText
    else return String.ofList name

/-- A host under any other scheme. It may be empty. -/
def plainHost? : List Char → Option String
  | '[' :: cs => bracketed? cs
  | cs =>
    if cs.any isForbiddenInHost then none else some (String.ofList (encode isControl cs))

end CampaignMarkup.Uri
