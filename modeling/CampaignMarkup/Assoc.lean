/-! # Ordered maps

A list of keys and values in which a key stands where it was first put and has the value it was
last given.
-/
namespace CampaignMarkup.Assoc

variable {α β : Type} [DecidableEq α]

def insert (key : α) (value : β) : List (α × β) → List (α × β)
  | [] => [(key, value)]
  | (k, v) :: rest => if k = key then (k, value) :: rest else (k, v) :: insert key value rest

def insertAll (entries : List (α × β)) (map : List (α × β)) : List (α × β) :=
  entries.foldl (fun m (k, v) => insert k v m) map

def get? (key : α) (map : List (α × β)) : Option β :=
  (map.find? (·.1 = key)).map (·.2)

def contains (key : α) (map : List (α × β)) : Bool :=
  map.any (·.1 = key)

end CampaignMarkup.Assoc
