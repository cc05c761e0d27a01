import CampaignMarkup.Assoc
import CampaignMarkup.Source.Site
import CampaignMarkup.Text.Blank
import CampaignMarkup.Text.Split

/-! # Macro definitions

A body text with holes. A hole is a parameter's name in braces; positional parameters are filled
in order, keyword parameters by name or else by their default. The body is read once, so braces
that come in with a value are left for whoever reads the result.
-/
namespace CampaignMarkup

structure Definition where
  name : String
  body : String := ""
  params : List String := []
  /-- Keyword parameters and their default texts, in the order of their declaration. -/
  defaults : List (String × String) := []
  doc : Option String := none
  textdomain : Option String := none
  /-- The line of the `#define`. -/
  site : Site := {}
deriving DecidableEq, Repr, Inhabited

namespace Definition

def arity (d : Definition) : Nat :=
  d.params.length

/-- `NAME[p, q, key=default]`, or the bare name of a macro without parameters. -/
def signature (d : Definition) : String :=
  if d.params.isEmpty && d.defaults.isEmpty then d.name
  else
    let keywords := d.defaults.map fun (key, value) => key ++ "=" ++ Text.trim value
    d.name ++ "[" ++ String.intercalate ", " (d.params ++ keywords) ++ "]"

/-- The definition as markup. -/
def display (d : Definition) : String :=
  "#define " ++ d.name ++ String.join (d.params.map (" " ++ ·)) ++ "\n"
    ++ String.join (d.defaults.map fun (key, value) =>
      "#arg " ++ key ++ "\n" ++ value ++ "\n#endarg\n")
    ++ d.body ++ "#enddef"

/-- The text that fills a hole: the first positional parameter of the name, then the keyword
value, then the default. A positional parameter without a value is no hole. -/
def fill? (d : Definition) (positional : List String) (keywords : List (String × String))
    (name : String) : Option String :=
  match d.params.findIdx? (· = name) with
  | some i => positional[i]?
  | none =>
    match Assoc.get? name d.defaults with
    | some value => some ((Assoc.get? name keywords).getD value)
    | none => none

/-- Fills the holes of a text. A brace that opens no hole is kept, and reading goes on behind it. -/
def fillHoles (fill : List Char → Option (List Char)) : List Char → List Char
  | [] => []
  | c :: cs =>
    if c = '{' then
      match h : Chars.splitOnce '}' cs with
      | some (name, after) =>
        match fill name with
        | some value =>
          have : after.length < cs.length := Chars.splitOnce_length_lt h
          value ++ fillHoles fill after
        | none => c :: fillHoles fill cs
      | none => c :: fillHoles fill cs
    else c :: fillHoles fill cs
termination_by cs => cs.length

/-- The body with its holes filled. -/
def substitute (d : Definition) (positional : List String) (keywords : List (String × String)) :
    String :=
  String.ofList (fillHoles
    (fun name => (d.fill? positional keywords (String.ofList name)).map String.toList)
    d.body.toList)

end Definition

end CampaignMarkup
