import CampaignMarkup.Directive.Conditional
import CampaignMarkup.Directive.Version
import CampaignMarkup.FileTree

/-! # Failures

What ends a run. All but a file that cannot be read and a directory that cannot be walked point at a
line, and the message begins with it.
-/
namespace CampaignMarkup

/-- What a directive lacks. -/
inductive Expectation where
  | macroName
  | path
  | domainName
  | parameterName
  | operatorAndVersion
deriving DecidableEq, Repr, Inhabited

def Expectation.words : Expectation → String
  | .macroName => "expects a macro name"
  | .path => "expects a path"
  | .domainName => "expects a domain name"
  | .parameterName => "expects a parameter name"
  | .operatorAndVersion => "expects an operator and a version"

inductive Failure where
  | unterminatedDefine (name : String) (site : Site)
  | strayDirective (directive : DirectiveKind) (site : Site)
  | unterminatedConditional (kind : ConditionalKind) (site : Site)
  | invalidDirective (directive : DirectiveKind) (expected : Expectation) (site : Site)
  | argumentCount (name : String) (expected found : Nat) (site : Site)
  | undefinedMacro (name : String) (site : Site)
  | depthExceeded (name : String) (limit : Nat) (site : Site)
  | includeCycle (path : Path) (site : Site)
  | invalidVersion (error : VersionError) (site : Site)
  | userError (message : String) (site : Site)
  /-- The file there cannot be read, or the directory there cannot be walked. -/
  | unreadable (path : Path) (obstacle : Obstacle)
deriving DecidableEq, Repr, Inhabited

namespace Failure

def site? : Failure → Option Site
  | .unterminatedDefine _ site => some site
  | .strayDirective _ site => some site
  | .unterminatedConditional _ site => some site
  | .invalidDirective _ _ site => some site
  | .argumentCount _ _ _ site => some site
  | .undefinedMacro _ site => some site
  | .depthExceeded _ _ site => some site
  | .includeCycle _ site => some site
  | .invalidVersion _ site => some site
  | .userError _ site => some site
  | .unreadable _ _ => none

/-- The file the failure is about. -/
def file? : Failure → Option Path
  | .unreadable path _ => some path
  | failure => failure.site?.bind (·.file)

/-- What went wrong, without where. -/
def detail : Failure → String
  | .unterminatedDefine name _ => "unterminated #define of macro '" ++ name ++ "'"
  | .strayDirective directive _ => directive.display ++ " without a matching opening directive"
  | .unterminatedConditional kind _ => kind.display ++ " is never closed by #endif"
  | .invalidDirective directive expected _ => directive.display ++ " " ++ expected.words
  | .argumentCount name expected found _ =>
    "Wrong number of arguments supplied to macro '" ++ name ++ "'. Expected "
      ++ toString expected ++ " but got " ++ toString found ++ "."
  | .undefinedMacro name _ => "undefined macro '" ++ name ++ "'"
  | .depthExceeded name limit _ =>
    "expanding '" ++ name ++ "' exceeded the nesting limit of " ++ toString limit
  | .includeCycle path _ => path.text ++ " includes itself"
  | .invalidVersion error _ => error.message
  | .userError message _ => "#error " ++ message
  | .unreadable path obstacle => obstacle.report "read" path

def message (f : Failure) : String :=
  match f.site? with
  | some site => site.display ++ ": " ++ f.detail
  | none => f.detail

/-- The text of the error behind the failure, where there is one. -/
def cause? : Failure → Option String
  | .invalidVersion error _ => some error.message
  | .unreadable _ obstacle => some obstacle.message
  | _ => none

end Failure

/-- Something worth telling that does not end the run. -/
structure Warning where
  site : Site
  text : String
deriving DecidableEq, Repr, Inhabited

def Warning.message (w : Warning) : String :=
  w.site.display ++ ": " ++ w.text

end CampaignMarkup
