import CampaignMarkup.Uri.Percent

/-! # Segments of a path

A path is read segment by segment onto the path so far, which always begins with a slash. A dot
segment adds nothing, and a double dot segment takes the last segment away, unless that one looks
like the letter of a drive.
-/
namespace CampaignMarkup.Uri

/-- Which rules a scheme follows. -/
inductive SchemeKind where
  | file
  /-- A scheme that always has a host. -/
  | hosted
  | other
deriving DecidableEq, Repr, Inhabited

namespace SchemeKind

def ofScheme (scheme : String) : SchemeKind :=
  if scheme = "file" then .file
  else if ["http", "https", "ws", "wss", "ftp"].contains scheme then .hosted
  else .other

/-- Most schemes know only one slash. -/
def isSlash (k : SchemeKind) (c : Char) : Bool :=
  c = '/' || (k ≠ .other && c = '\\')

end SchemeKind

/-- Tabs and line breaks have no meaning anywhere in a URI. -/
def isIgnored (c : Char) : Bool :=
  c = '\t' || c = '\n' || c = '\r'

def dropIgnored (cs : List Char) : List Char :=
  cs.filter (!isIgnored ·)

def isDot (segment : List Char) : Bool :=
  [".", "%2e"].contains (String.ofList segment).toLower

def isDoubleDot (segment : List Char) : Bool :=
  ["..", ".%2e", "%2e.", "%2e%2e"].contains (String.ofList segment).toLower

/-- The letter of a drive, with a colon or with a bar. -/
def isDrive : List Char → Bool
  | [letter, sign] => letter.isAlpha && (sign = ':' || sign = '|')
  | _ => false

/-- The letter of a drive, with a colon. -/
def isPlainDrive (cs : List Char) : Bool :=
  isDrive cs && cs.getLast? = some ':'

/-- Whether a segment starts with the letter of a drive. -/
def startsWithDrive (segment : List Char) : Bool :=
  isDrive (segment.take 2) && (segment.drop 2).head?.all (· = '\\')

def endsInSlash (path : List Char) : Bool :=
  path.getLast? = some '/'

/-- The segment at the end of a path, behind its last slash. -/
def lastSegment (path : List Char) : List Char :=
  (path.reverse.takeWhile (· ≠ '/')).reverse

/-- A path up to its last slash, which stays. -/
def upToSlash (path : List Char) : List Char :=
  (path.reverse.dropWhile (· ≠ '/')).reverse

/-- Whether the slash at the end of a path may go to make way for its last segment. The slash of
the root may not, nor the one behind the letter of a drive. -/
def mayOpen (path : List Char) : Bool :=
  path.dropLast.contains '/' && !startsWithDrive (lastSegment path.dropLast)

/-- A path without its last segment. -/
def shortened (k : SchemeKind) (path : List Char) : List Char :=
  let opened := if endsInSlash path && mayOpen path then path.dropLast else path
  if k = .file && isPlainDrive (lastSegment opened) then opened else upToSlash opened

/-- A path, and whether it starts with a drive. -/
structure PathReading where
  path : List Char := ['/']
  drive : Bool := false
deriving DecidableEq, Repr, Inhabited

namespace PathReading

/-- The pieces of a segment that ignored characters divide. -/
def pieces : List Char → List (List Char)
  | [] => [[]]
  | c :: cs =>
    if isIgnored c then [] :: pieces cs
    else
      match pieces cs with
      | [] => [[c]]
      | piece :: rest => (c :: piece) :: rest

/-- One piece of a segment. The letter of a drive is complete before the next piece comes. -/
def addPiece (k : SchemeKind) (path piece : List Char) : List Char :=
  if k = .file && !piece.isEmpty && isPlainDrive (path.drop 1) then
    path ++ '/' :: encode isReservedInPath piece
  else path ++ encode isReservedInPath piece

/-- One segment, and the slash behind it if there is one. -/
def addSegment (k : SchemeKind) (r : PathReading) (segment slash : List Char) : PathReading :=
  let grown := (pieces segment).foldl (addPiece k) r.path
  let added := grown.drop r.path.length
  if isDoubleDot added then
    let left := shortened k r.path
    { r with path := if endsInSlash left then left else left ++ slash }
  else if isDot added then r
  else if k = .file && r.path.length = 1 && isDrive added then
    { path := r.path ++ added.take 1 ++ ':' :: slash, drive := true }
  else { r with path := grown ++ slash }

def addSegments (k : SchemeKind) (r : PathReading) : List (List Char) → PathReading
  | [] => r
  | [last] => r.addSegment k last []
  | segment :: segments => addSegments k (r.addSegment k segment ['/']) segments

/-- Reads a path behind its first slash. The path of a file does not begin with empty segments. -/
def ofText (k : SchemeKind) (cs : List Char) : PathReading :=
  let slashed := cs.map fun c => if k.isSlash c then '/' else c
  let r := addSegments k {} (Chars.splitOn '/' slashed)
  if k = .file then { r with path := '/' :: r.path.dropWhile (· = '/') } else r

end PathReading

end CampaignMarkup.Uri
