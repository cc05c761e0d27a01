import CampaignMarkup.Directive.Basic
import CampaignMarkup.Editor.Word
import CampaignMarkup.Macros.Table
import CampaignMarkup.Preprocess.Failure

/-! # Questions of an editor

What a macro table has to say about a place in a text: help for the macro under the cursor, the
line of its definition, candidates to complete with, and a failed run as a diagnostic.
-/
namespace CampaignMarkup

/-- The definition that the word under the cursor names. -/
def MacroTable.under? (macros : MacroTable) (source : String) (p : Position) :
    Option (Word × Definition) :=
  (Word.at? source p).bind fun word => (macros.lookup word.text).map (word, ·)

/-- The signature in bold, then the documentation and the text domain, as Markdown. -/
def Definition.help (d : Definition) : String :=
  let doc := (d.doc.filter (· ≠ "")).toList
  let domain := (d.textdomain.map fun domain => "textdomain: `" ++ domain ++ "`").toList
  String.intercalate "\n\n" (["**" ++ d.signature ++ "**"] ++ doc ++ domain)

structure Hover where
  word : Word
  contents : String
deriving DecidableEq, Repr, Inhabited

def MacroTable.hover? (macros : MacroTable) (source : String) (p : Position) : Option Hover :=
  (macros.under? source p).map fun (word, definition) => ⟨word, definition.help⟩

/-- Where a macro is defined. -/
structure Target where
  uri : Uri
  line : Nat
deriving DecidableEq, Repr, Inhabited

/-- The definition of the macro under the cursor. A macro from a text without a file has none. -/
def MacroTable.target? (macros : MacroTable) (workdir : Location) (source : String)
    (p : Position) : Option Target :=
  (macros.under? source p).bind fun (_, definition) =>
    (definition.site.uri? workdir).map (⟨·, definition.site.line⟩)

inductive CandidateKind where
  | method
  | keyword
deriving DecidableEq, Repr, Inhabited

/-- The number that stands for the kind in an editor's protocol. -/
def CandidateKind.code : CandidateKind → Nat
  | .method => 2
  | .keyword => 14

structure Candidate where
  label : String
  detail : Option String := none
  documentation : Option String := none
  kind : CandidateKind
  insertText : String
deriving DecidableEq, Repr, Inhabited

/-- What asked for completion. -/
inductive Trigger where
  | directive
  | macros
  /-- The user asked, not a character. -/
  | invoked
deriving DecidableEq, Repr, Inhabited

/-- Characters that open a completion. -/
def Trigger.characters : List String :=
  ["#", "\x7b"]

/-- The trigger of a character; most characters trigger nothing. -/
def Trigger.ofCharacter? : Option String → Option Trigger
  | none => some .invoked
  | some "#" => some .directive
  | some "\x7b" => some .macros
  | some _ => none

def DirectiveKind.help : DirectiveKind → String
  | .define => "Define a macro"
  | .enddef => "End macro definition"
  | .undef => "Remove every definition of a macro"
  | .ifdef => "Do if macro defined"
  | .ifndef => "Do if macro not defined"
  | .ifhave => "Do if file exists"
  | .ifnhave => "Do if file does not exist"
  | .ifver => "Do if wesnoth version matches condition"
  | .ifnver => "Do if wesnoth version does not match condition"
  | .elseBranch => "Switch to the other branch of a conditional"
  | .endif => "End if directives block"
  | .arg => "Start optional argument in macro definition"
  | .endarg => "End optional argument in macro definition"
  | .textdomain => "Define Textdomain"
  | .error => "Stop preprocessing with an error message"
  | .warning => "Print a warning message"
  | .deprecated => "Print a deprecation notice"

def Candidate.ofDirective (kind : DirectiveKind) : Candidate where
  label := kind.keyword
  documentation := some kind.help
  kind := .keyword
  insertText := kind.keyword ++ " "

def Candidate.ofDefinition (d : Definition) : Candidate where
  label := d.signature
  detail := d.site.file.map fun _ => d.site.display
  documentation := d.doc
  kind := .method
  insertText := d.name

/-- The candidates for a trigger: every directive, the latest definition of every macro, or both. -/
def MacroTable.candidates (macros : MacroTable) (trigger : Trigger) : List Candidate :=
  let directives := DirectiveKind.all.map Candidate.ofDirective
  let definitions := (macros.names.filterMap macros.lookup).map Candidate.ofDefinition
  match trigger with
  | .directive => directives
  | .macros => definitions
  | .invoked => directives ++ definitions

/-- A failure at a line of a document, if it belongs to one. -/
structure Diagnostic where
  line : Nat
  message : String
deriving DecidableEq, Repr, Inhabited

/-- The diagnostic points at the line, so the message does not repeat it. -/
def Failure.diagnostic (f : Failure) : Diagnostic :=
  ⟨(f.site?.map Site.line).getD 0, f.detail⟩

/-- The document that a failure belongs to. -/
def Failure.uri? (workdir : Location) (f : Failure) : Option Uri :=
  f.file?.bind (Uri.ofPath? workdir)

end CampaignMarkup
