import CampaignMarkup.Assoc
import CampaignMarkup.Record.Value
import CampaignMarkup.Text.Json

/-! # Records

A record is a tagged block with attributes and inner blocks, in the order of the text.
-/
namespace CampaignMarkup

structure Record where
  tag : String
  attributes : List (String × AttributeValue) := []
  children : List Record := []
deriving Repr, Inhabited

namespace Record

def get? (r : Record) (key : String) : Option AttributeValue :=
  Assoc.get? key r.attributes

def setAttribute (r : Record) (key : String) (value : AttributeValue) : Record :=
  { r with attributes := Assoc.insert key value r.attributes }

def addChild (r child : Record) : Record :=
  { r with children := r.children ++ [child] }

/-- The attribute `id`, whatever its type. -/
def id? (r : Record) : Option String :=
  (r.get? "id").map AttributeValue.display

def childrenNamed (r : Record) (tag : String) : List Record :=
  r.children.filter (·.tag = tag)

mutual

/-- The record and everything below it that has the tag, outer before inner. -/
def findAll (tag : String) : Record → List Record
  | ⟨t, attributes, children⟩ =>
    (if t = tag then [⟨t, attributes, children⟩] else []) ++ findAllIn tag children

def findAllIn (tag : String) : List Record → List Record
  | [] => []
  | r :: rs => r.findAll tag ++ findAllIn tag rs

end

mutual

/-- The record as lines of markup, `depth` tabs in. -/
def linesAt (depth : Nat) : Record → List String
  | ⟨tag, attributes, children⟩ =>
    let tabs := String.ofList (List.replicate depth '\t')
    [tabs ++ "[" ++ tag ++ "]\n"]
      ++ attributes.map (fun (key, value) => tabs ++ "\t" ++ key ++ "=" ++ value.render ++ "\n")
      ++ linesOfAll (depth + 1) children
      ++ [tabs ++ "[/" ++ tag ++ "]\n"]

def linesOfAll (depth : Nat) : List Record → List String
  | [] => []
  | r :: rs => r.linesAt depth ++ linesOfAll depth rs

end

/-- The record as markup. -/
def display (r : Record) : String :=
  String.join (r.linesAt 0)

def displayAll (rs : List Record) : String :=
  String.join (linesOfAll 0 rs)

mutual

def toJson : Record → JsonValue
  | ⟨tag, attributes, children⟩ =>
    .object [
      ("tag", .string tag),
      ("attributes", .object (attributes.map fun (key, value) =>
        (key, match value with
          | .string s => .string s
          | .integer n => .int n
          | .boolean b => .bool b))),
      ("children", .array (toJsonAll children))]

def toJsonAll : List Record → List JsonValue
  | [] => []
  | r :: rs => r.toJson :: toJsonAll rs

end

end Record

end CampaignMarkup
