import CampaignMarkup.Directive.Basic
import CampaignMarkup.Macros.Call

/-! # Nodes

What a source text consists of, once its lines are told apart: tokens to write, macro calls,
directives, and whole definitions. Nothing is evaluated here.
-/
namespace CampaignMarkup

/-- A `#define` with everything up to its `#enddef`. -/
structure DefineBlock where
  header : Directive
  body : String
  /-- The `#arg` blocks of the body, in order. -/
  argDefaults : List (String × String)
  doc : Option String
  line : Nat
deriving DecidableEq, Repr, Inhabited

inductive Node where
  | token (token : Token)
  | call (call : MacroCall) (raw : String) (line : Nat)
  | directive (directive : Directive) (line : Nat)
  | define (block : DefineBlock)
deriving DecidableEq, Repr, Inhabited

/-- What can be wrong with the structure of a text. Lines are counted from 0. -/
inductive StructureError where
  | unterminatedDefine (name : String) (line : Nat)
  | missingArgName (line : Nat)
deriving DecidableEq, Repr, Inhabited

end CampaignMarkup
