import CampaignMarkup.Text.Split

/-! # Paths

A path is kept as it was spelled, because messages show the spelling. What it means is the
list of its components: repeated and trailing slashes and inner `.` segments carry no meaning,
a leading `.` is kept, and `..` is never folded here.
-/
namespace CampaignMarkup

/-- A place in a file tree: names from the root down. -/
abbrev Location := List String

structure Path where
  text : String
deriving DecidableEq, Repr, Inhabited

namespace Path

inductive Component where
  | root
  | current
  | parent
  | name (text : String)
deriving DecidableEq, Repr, Inhabited

namespace Component

/-- The component a segment between slashes stands for. -/
def ofSegment? (segment : String) : Option Component :=
  if segment = "" ∨ segment = "." then none
  else if segment = ".." then some .parent
  else some (.name segment)

def text : Component → String
  | .root => "/"
  | .current => "."
  | .parent => ".."
  | .name n => n

end Component

/-- The pieces between slashes, empty ones included. -/
def segments (p : Path) : List String :=
  Text.splitOn '/' p.text

def isAbsolute (p : Path) : Bool :=
  Text.startsWith "/" p.text

def components (p : Path) : List Component :=
  let named := p.segments.filterMap Component.ofSegment?
  if p.isAbsolute then .root :: named
  else if p.segments.head? = some "." then .current :: named
  else named

/-- The shortest spelling of a list of components. -/
def ofComponents : List Component → Path
  | .root :: rest => ⟨"/" ++ String.intercalate "/" (rest.map Component.text)⟩
  | components => ⟨String.intercalate "/" (components.map Component.text)⟩

/-- Two spellings of one list of components. -/
def same (p q : Path) : Bool :=
  p.components == q.components

/-- `q` seen from `p`. An absolute `q` stands for itself. -/
def join (p q : Path) : Path :=
  if q.isAbsolute || p.text == "" then q
  else if p.text.toList.getLast? = some '/' then ⟨p.text ++ q.text⟩
  else ⟨p.text ++ "/" ++ q.text⟩

/-- The path without its last component; the root and the empty path have none. -/
def parent? (p : Path) : Option Path :=
  match p.components.getLast? with
  | none | some .root => none
  | some _ => some (ofComponents p.components.dropLast)

/-- The last component, where it is a name. -/
def fileName? (p : Path) : Option String :=
  match p.components.getLast? with
  | some (.name n) => some n
  | _ => none

/-- What follows the last dot of the file name. A name whose only dot is its first character
has no extension. -/
def extension? (p : Path) : Option String :=
  p.fileName?.bind fun name =>
    let backwards := name.toList.reverse
    match Chars.splitOnce '.' backwards with
    | none | some (_, []) => none
    | some (ending, _ :: _) => some (String.ofList ending.reverse)

/-- The path with an ending on its file name, where it has one. What follows the file name, such
as a slash, goes. -/
def appendToName? (ending : String) (p : Path) : Option Path :=
  p.fileName?.map fun _ =>
    let spelled := (p.segments.reverse.dropWhile fun s => s = "" || s = ".").reverse
    ⟨String.intercalate "/" spelled ++ ending⟩

end Path

end CampaignMarkup
