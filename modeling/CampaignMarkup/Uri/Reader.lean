import CampaignMarkup.Uri.Basic
import CampaignMarkup.Uri.Host
import CampaignMarkup.Uri.Segments

/-! # Reading URIs

A URI starts with a scheme, which decides on the rest. Under `file` there is a host only between
two slashes and a third. The schemes of the web always have a host, however many slashes stand in
front of it. Under all other schemes two slashes announce an authority, one slash a path of
segments, and anything else is kept as it is.
-/
namespace CampaignMarkup.Uri

/-- The text without controls and blanks around it. -/
def trimmed (cs : List Char) : List Char :=
  ((cs.dropWhile (· ≤ ' ')).reverse.dropWhile (· ≤ ' ')).reverse

def isSchemeChar (c : Char) : Bool :=
  c.isAlphanum || c = '+' || c = '-' || c = '.'

/-- The scheme in small letters, and what follows its colon. -/
def scheme? (cs : List Char) : Option (String × List Char) := do
  let (before, rest) ← Chars.splitOnce ':' cs
  let name := dropIgnored before
  if name.head?.any Char.isAlpha && name.all isSchemeChar then
    return ((String.ofList name).toLower, rest)
  else none

/-- The port that a scheme implies. -/
def impliedPort? : String → Option Nat
  | "http" | "ws" => some 80
  | "https" | "wss" => some 443
  | "ftp" => some 21
  | _ => none

/-- What stands behind a slash in front of a text, if there is one. -/
def afterSlash? (k : SchemeKind) (cs : List Char) : Option (List Char) :=
  match cs.dropWhile isIgnored with
  | c :: rest => if k.isSlash c then some rest else none
  | [] => none

def afterTwoSlashes? (k : SchemeKind) (cs : List Char) : Option (List Char) :=
  (afterSlash? k cs).bind (afterSlash? k)

def afterSlashes (k : SchemeKind) (cs : List Char) : List Char :=
  cs.dropWhile fun c => isIgnored c || k.isSlash c

def startsTail (c : Char) : Bool :=
  c = '?' || c = '#'

/-- What an authority ends at. -/
def endsAuthority (k : SchemeKind) (c : Char) : Bool :=
  startsTail c || k.isSlash c

/-- The query and the fragment at the end of a URI. -/
def withTail (k : SchemeKind) (u : Uri) (cs : List Char) : Uri :=
  let reserved (c : Char) := isReservedInQuery c || (k ≠ .other && c = '\'')
  let fragment (cs : List Char) := String.ofList (encode isReservedInFragment (dropIgnored cs))
  match cs with
  | '?' :: cs =>
    let (query, rest) := (cs.takeWhile (· ≠ '#'), cs.dropWhile (· ≠ '#'))
    { u with
      query := some (String.ofList (encode reserved (dropIgnored query)))
      fragment := rest.head?.map fun _ => fragment rest.tail }
  | '#' :: cs => { u with fragment := some (fragment cs) }
  | _ => u

/-- The path, query and fragment of a URI, from behind the first slash of the path. -/
def withPath (k : SchemeKind) (u : Uri) (cs : List Char) : Uri :=
  let path := (PathReading.ofText k (cs.takeWhile (!startsTail ·))).path
  withTail k { u with path := String.ofList path } (cs.dropWhile (!startsTail ·))

/-- The text before and after the last `@`. -/
def splitUser (cs : List Char) : List Char × List Char :=
  match Chars.splitOnce '@' cs.reverse with
  | some (after, before) => (before.reverse, after.reverse)
  | none => ([], cs)

/-- A user, and a password that is not empty. -/
def userText (cs : List Char) : String :=
  let coded (cs : List Char) := String.ofList (encode isReservedInUserinfo cs)
  match Chars.splitOnce ':' cs with
  | some (user, []) => coded user
  | some (user, password) => coded user ++ ":" ++ coded password
  | none => coded cs

/-- A host up to its port; colons between brackets are part of it. -/
def cutPort (inBrackets : Bool) : List Char → List Char × List Char
  | [] => ([], [])
  | c :: cs =>
    if c = ':' && !inBrackets then ([], c :: cs)
    else
      let (host, port) := cutPort (c = '[' || (inBrackets && c ≠ ']')) cs
      (c :: host, port)

/-- A port behind a colon, and what follows it. -/
def port? : List Char → Option (Option Nat × List Char)
  | ':' :: cs =>
    let (digits, rest) := (cs.takeWhile Chars.isDigit, cs.dropWhile Chars.isDigit)
    if 0xFFFF < Chars.digitsValue digits || rest.head?.any (· ≠ '\\') then none
    else some (Chars.digits? digits, rest)
  | rest => some (none, rest)

/-- An authority, and what follows its port up to where the path begins. A user needs a host, and
so does a port. -/
def authority? (scheme : String) (k : SchemeKind) (cs : List Char) :
    Option (Authority × List Char) := do
  let (user, address) := splitUser cs
  let (name, rest) := cutPort false address
  let host ← if k = .other then plainHost? name else host? name
  let (port, rest) ← port? rest
  if host = "" && (userText user ≠ "" || name.length < address.length) then none
  else return (⟨userText user, host, port.filter (some · ≠ impliedPort? scheme)⟩, rest)

/-- Reads a URI with an authority, from behind the slashes in front of it. -/
def readHosted? (scheme : String) (k : SchemeKind) (cs : List Char) : Option Uri := do
  let named := dropIgnored (cs.takeWhile (!endsAuthority k ·))
  let (authority, leftover) ← authority? scheme k named
  let rest := leftover ++ cs.dropWhile (!endsAuthority k ·)
  let u : Uri := { scheme, authority := some authority, path := "" }
  match afterSlash? k rest with
  | some path => return withPath k u path
  | none =>
    if k = .other && rest.head?.all startsTail then return withTail k u rest
    else return withPath k u rest

/-- Reads the URI of a file. A drive in front of the path takes the place of a host, and the name
`localhost` says as much as no host. -/
def readFile? (cs : List Char) : Option Uri :=
  let u : Uri := { scheme := "file", authority := some {}, path := "" }
  match afterTwoSlashes? .file cs with
  | none => some (withPath .file u ((afterSlash? .file cs).getD cs))
  | some cs =>
    let name := dropIgnored (cs.takeWhile (!endsAuthority .file ·))
    let rest := cs.dropWhile (!endsAuthority .file ·)
    if isDrive name then some (withPath .file u cs)
    else if name.isEmpty then some (withPath .file u rest)
    else
      (host? name).map fun host =>
        if host = "localhost" then withPath .file u rest
        else
          let path := (afterSlash? .file rest).getD rest
          let drive := (PathReading.ofText .file (path.takeWhile (!startsTail ·))).drive
          withPath .file { u with authority := some { host := if drive then "" else host } } path

/-- Reads a URI without an authority. -/
def readPlain (scheme : String) (cs : List Char) : Uri :=
  let u : Uri := { scheme, path := "" }
  match afterSlash? .other cs with
  | some path => withPath .other u path
  | none =>
    let path := encode isControl (dropIgnored (cs.takeWhile (!startsTail ·)))
    withTail .other { u with path := String.ofList path } (cs.dropWhile (!startsTail ·))

/-- Reads a URI, if the text is one. -/
def read? (text : String) : Option Uri := do
  let (scheme, rest) ← scheme? (trimmed text.toList)
  match SchemeKind.ofScheme scheme with
  | .file => readFile? rest
  | .hosted => readHosted? scheme .hosted (afterSlashes .hosted rest)
  | .other =>
    match afterTwoSlashes? .other rest with
    | some rest => readHosted? scheme .other rest
    | none => return readPlain scheme rest

end CampaignMarkup.Uri
