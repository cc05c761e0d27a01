import CampaignMarkup.CommandLine.Reader
import CampaignMarkup.Path.Basic

/-! # Invocations

A command line that can be run: one of the commands with its arguments, and what was said about
settings. A global option behind the command replaces the same option before it.
-/
namespace CampaignMarkup

inductive TokenFormat where
  | simple
  | json
deriving DecidableEq, Repr, Inhabited

inductive Command where
  | preprocess (paths : List Path) (output : Option Path)
  | tokens (path : Path) (format : TokenFormat)
  | defines (paths : List Path)
  /-- Tag and columns that are not given come from the settings. -/
  | records (paths : List Path) (tag : Option String) (columns : Option (List String))
    (output : Option Path)
  | sanitize (path : Path)
deriving DecidableEq, Repr, Inhabited

structure Invocation where
  command : Command
  /-- A settings file that has to be there. -/
  config : Option Path := none
  dataDir : Option String := none
  userDataDir : Option String := none
  /-- Paths to preprocess after those of the settings. -/
  includes : List Path := []
deriving DecidableEq, Repr, Inhabited

namespace Invocation

def commandOf? (name : String) (g : Given) : Option Command :=
  let paths := g.paths.map Path.mk
  let output := (g.values "output").head?.map Path.mk
  match name, paths with
  | "preprocess", _ => some (.preprocess paths output)
  | "tokens", [path] =>
    some (.tokens path (if g.values "format" = ["json"] then .json else .simple))
  | "defines", _ => some (.defines paths)
  | "export", _ =>
    let columns := if g.has "columns" then some (g.values "columns") else none
    some (.records paths (g.values "tag").head? columns output)
  | "sanitize", [path] => some (.sanitize path)
  | _, _ => none

/-- The values of a global option. -/
def globalValues (before behind : Given) (name : String) : List String :=
  if behind.has name then behind.values name else before.values name

def read (arguments : List String) : Except Stop Invocation := do
  let (rule, before, behind) ← CommandLine.read arguments
  match commandOf? rule.name behind with
  | none => .error (.usage (.unknownCommand rule.name))
  | some command =>
    let values := globalValues before behind
    return {
      command
      config := (values "config").head?.map Path.mk
      dataDir := (values "data-dir").head?
      userDataDir := (values "user-data-dir").head?
      includes := (values "include").map Path.mk }

end Invocation

end CampaignMarkup
