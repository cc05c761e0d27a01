import CampaignMarkup.Directive.Basic
import CampaignMarkup.Source.Site

/-! # Conditionals

The stack of open conditionals. Content counts only while every frame is active, and a frame's
`#else` turns it over once.
-/
namespace CampaignMarkup

/-- What a conditional asks. -/
inductive Question where
  /-- Is a macro of this name defined? -/
  | defined
  /-- Is there something at this path? -/
  | present
  /-- Does a version compare so? -/
  | version
deriving DecidableEq, Repr, Inhabited

/-- A question, and whether the content is for the answer no. -/
structure ConditionalKind where
  question : Question
  negated : Bool
deriving DecidableEq, Repr, Inhabited

namespace ConditionalKind

def ofDirective? : DirectiveKind → Option ConditionalKind
  | .ifdef => some ⟨.defined, false⟩
  | .ifndef => some ⟨.defined, true⟩
  | .ifhave => some ⟨.present, false⟩
  | .ifnhave => some ⟨.present, true⟩
  | .ifver => some ⟨.version, false⟩
  | .ifnver => some ⟨.version, true⟩
  | _ => none

def directive : ConditionalKind → DirectiveKind
  | ⟨.defined, false⟩ => .ifdef
  | ⟨.defined, true⟩ => .ifndef
  | ⟨.present, false⟩ => .ifhave
  | ⟨.present, true⟩ => .ifnhave
  | ⟨.version, false⟩ => .ifver
  | ⟨.version, true⟩ => .ifnver

def display (kind : ConditionalKind) : String :=
  kind.directive.display

end ConditionalKind

structure ConditionalFrame where
  kind : ConditionalKind
  active : Bool
  elseSeen : Bool
  site : Site
deriving DecidableEq, Repr, Inhabited

/-- Open conditionals, innermost first. -/
structure Conditionals where
  frames : List ConditionalFrame := []
deriving DecidableEq, Repr, Inhabited

namespace Conditionals

def isActive (c : Conditionals) : Bool :=
  c.frames.all (·.active)

def depth (c : Conditionals) : Nat :=
  c.frames.length

def push (frame : ConditionalFrame) (c : Conditionals) : Conditionals :=
  ⟨frame :: c.frames⟩

def innermost? (c : Conditionals) : Option ConditionalFrame :=
  c.frames.head?

def pop (c : Conditionals) : Conditionals :=
  ⟨c.frames.tail⟩

/-- Turns the innermost frame over; there is none to turn if it had its `#else` already. -/
def flip? (c : Conditionals) : Option Conditionals :=
  match c.frames with
  | [] => none
  | frame :: rest =>
    if frame.elseSeen then none
    else some ⟨{ frame with active := !frame.active, elseSeen := true } :: rest⟩

/-- Closes the frames above `depth`. -/
def truncate (depth : Nat) (c : Conditionals) : Conditionals :=
  ⟨c.frames.drop (c.frames.length - depth)⟩

/-- The outermost of the frames above `depth`. -/
def openAbove? (depth : Nat) (c : Conditionals) : Option ConditionalFrame :=
  (c.frames.take (c.frames.length - depth)).getLast?

end Conditionals

end CampaignMarkup
