import CampaignMarkup.Text.Blank
import CampaignMarkup.Text.Split

/-! # Directives

A directive is a comment whose `#` is followed at once by a known keyword and then by a blank or
the end of the comment. `# define` and `#defined` are plain comments.
-/
namespace CampaignMarkup

inductive DirectiveKind where
  | define
  | enddef
  | undef
  | ifdef
  | ifndef
  | ifhave
  | ifnhave
  | ifver
  | ifnver
  | elseBranch
  | endif
  | arg
  | endarg
  | textdomain
  | error
  | warning
  | deprecated
deriving DecidableEq, Repr, Inhabited

namespace DirectiveKind

/-- Every kind, in the order in which they are offered to a reader. -/
def all : List DirectiveKind :=
  [.define, .enddef, .undef, .ifdef, .ifndef, .ifhave, .ifnhave, .ifver, .ifnver, .elseBranch,
    .endif, .arg, .endarg, .textdomain, .error, .warning, .deprecated]

def keyword : DirectiveKind → String
  | .define => "define"
  | .enddef => "enddef"
  | .undef => "undef"
  | .ifdef => "ifdef"
  | .ifndef => "ifndef"
  | .ifhave => "ifhave"
  | .ifnhave => "ifnhave"
  | .ifver => "ifver"
  | .ifnver => "ifnver"
  | .elseBranch => "else"
  | .endif => "endif"
  | .arg => "arg"
  | .endarg => "endarg"
  | .textdomain => "textdomain"
  | .error => "error"
  | .warning => "warning"
  | .deprecated => "deprecated"

def ofKeyword? (keyword : String) : Option DirectiveKind :=
  all.find? (·.keyword = keyword)

def display (kind : DirectiveKind) : String :=
  "#" ++ kind.keyword

end DirectiveKind

structure Directive where
  kind : DirectiveKind
  args : List String
  /-- Everything behind the keyword, without the blanks around it. -/
  rest : String
deriving DecidableEq, Repr, Inhabited

/-- The directive a comment is, if it is one. The comment comes with its `#`. -/
def Directive.ofComment? (comment : String) : Option Directive :=
  match comment.toList with
  | '#' :: body =>
    let keyword := body.takeWhile (!Text.isBlank ·)
    let rest := Chars.trim (body.dropWhile (!Text.isBlank ·))
    (DirectiveKind.ofKeyword? (String.ofList keyword)).map fun kind =>
      ⟨kind, (Chars.words rest).map String.ofList, String.ofList rest⟩
  | _ => none

end CampaignMarkup
