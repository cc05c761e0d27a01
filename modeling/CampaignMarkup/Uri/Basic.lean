import CampaignMarkup.Uri.Percent

/-! # URIs

A URI is held in the form that reading it gives: letters that do not count are lower case,
characters outside the permitted sets are percent-encoded and dot segments are folded. So two
documents are the same exactly when their URIs are equal.
-/
namespace CampaignMarkup

/-- Whom a URI addresses. -/
structure Authority where
  /-- A user, with a password behind a colon. -/
  userinfo : String := ""
  host : String := ""
  /-- Left out where the scheme implies it. -/
  port : Option Nat := none
deriving DecidableEq, Repr, Inhabited

def Authority.text (a : Authority) : String :=
  (if a.userinfo = "" then "" else a.userinfo ++ "@") ++ a.host
    ++ a.port.elim "" fun port => ":" ++ toString port

structure Uri where
  scheme : String
  authority : Option Authority := none
  /-- A path that has no slash in front is not divided into segments. -/
  path : String
  query : Option String := none
  fragment : Option String := none
deriving DecidableEq, Repr, Inhabited

namespace Uri

/-- What stands between the scheme and the path. An empty first segment is kept apart from an
authority by a dot. -/
def authorityText (u : Uri) : String :=
  match u.authority with
  | some authority => "//" ++ authority.text
  | none => if Text.startsWith "//" u.path then "/." else ""

def text (u : Uri) : String :=
  u.scheme ++ ":" ++ u.authorityText ++ u.path
    ++ u.query.elim "" ("?" ++ ·) ++ u.fragment.elim "" ("#" ++ ·)

end Uri

end CampaignMarkup
