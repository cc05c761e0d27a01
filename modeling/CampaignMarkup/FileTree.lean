import CampaignMarkup.Path.Basic

/-! # File trees

A file system as a value: directories and files at locations, and a working directory that
relative paths start from. Everything that touches files takes a tree and, where it writes, gives
one back.

There are no links, so a location has one name, no permissions, so that whatever is there can be
read and written, and no devices or sockets. What can go wrong is that nothing is there, that it is
of the wrong kind, that its bytes are no text, and that a path is too long. The last may also happen
on a walk, to a directory far below the one that the walk starts from.
-/
namespace CampaignMarkup

inductive Contents where
  | text (s : String)
  /-- Bytes that are not the UTF-8 form of any text. -/
  | binary (bytes : List UInt8)
deriving DecidableEq, Repr, Inhabited

inductive Entry where
  | directory
  | file (contents : Contents)
deriving DecidableEq, Repr, Inhabited

inductive FileError where
  | notFound
  | notDirectory
  | isDirectory
  | nameTooLong
  | nulInName
  | invalidText
deriving DecidableEq, Repr, Inhabited

/-- The words in which the operating system reports the error. -/
def FileError.message : FileError → String
  | .notFound => "No such file or directory (os error 2)"
  | .notDirectory => "Not a directory (os error 20)"
  | .isDirectory => "Is a directory (os error 21)"
  | .nameTooLong => "File name too long (os error 36)"
  | .nulInName => "file name contained an unexpected NUL byte"
  | .invalidText => "stream did not contain valid UTF-8"

/-- A directory that a walk could not list, in the walk's spelling. -/
structure WalkError where
  path : Path
  error : FileError
deriving DecidableEq, Repr, Inhabited

/-- The words in which a walk reports the error: it names the directory twice. -/
def WalkError.message (e : WalkError) : String :=
  e.path.text ++ ": IO error for operation on " ++ e.path.text ++ ": " ++ e.error.message

/-- What stands in the way of a file, or of the files below a directory. -/
inductive Obstacle where
  | file (error : FileError)
  | walk (error : WalkError)
deriving DecidableEq, Repr, Inhabited

namespace Obstacle

def message : Obstacle → String
  | .file error => error.message
  | .walk error => error.message

/-- What failed at the path. The attempt is what was to be done with a file; a directory was to be
walked. -/
def report (attempt : String) (path : Path) : Obstacle → String
  | .file error => "failed to " ++ attempt ++ " " ++ path.text ++ ": " ++ error.message
  | .walk error => "failed to walk " ++ path.text ++ ": " ++ error.message

end Obstacle

structure FileTree where
  workdir : Location
  entries : List (Location × Entry)
deriving DecidableEq, Repr, Inhabited

namespace FileTree

def entry? (t : FileTree) (l : Location) : Option Entry :=
  t.entries.lookup l

def put (t : FileTree) (l : Location) (e : Entry) : FileTree :=
  { t with entries := (l, e) :: t.entries.filter (·.1 ≠ l) }

/-- A tree that holds the working directory and the directories above it. -/
def empty (workdir : Location) : FileTree :=
  ⟨workdir, (List.range (workdir.length + 1)).map fun n => (workdir.take n, .directory)⟩

/-- The bytes that one name may take. -/
def nameLimit : Nat := 255

/-- The bytes that the text of a path may take. -/
def pathLimit : Nat := 4095

/-- What is wrong with a path whatever the tree holds. -/
def fault? (p : Path) : Option FileError :=
  if p.text.toList.contains '\x00' then some .nulInName
  else if p.text = "" then some .notFound
  else if pathLimit < p.text.utf8ByteSize then some .nameTooLong
  else none

/-- One segment of a path, from a location that has to be a directory. -/
def step (t : FileTree) (l : Location) (segment : String) : Except FileError Location :=
  match t.entry? l with
  | none => .error .notFound
  | some (.file _) => .error .notDirectory
  | some .directory =>
    if segment = "" ∨ segment = "." then .ok l
    else if segment = ".." then .ok l.dropLast
    else if nameLimit < segment.utf8ByteSize then .error .nameTooLong
    else if (t.entry? (l ++ [segment])).isSome then .ok (l ++ [segment])
    else .error .notFound

/-- Where a path's segments are counted from. -/
def start (t : FileTree) (p : Path) : Location :=
  if p.isAbsolute then [] else t.workdir

/-- The location a path leads to, walking segment by segment. The empty path leads nowhere. -/
def locate (t : FileTree) (p : Path) : Except FileError Location :=
  match fault? p with
  | some fault => .error fault
  | none => p.segments.foldlM t.step (t.start p)

def find (t : FileTree) (p : Path) : Except FileError Entry := do
  let l ← t.locate p
  match t.entry? l with
  | some e => .ok e
  | none => .error .notFound

def has (t : FileTree) (p : Path) : Bool :=
  (t.find p).isOk

def isDirectory (t : FileTree) (p : Path) : Bool :=
  match t.find p with
  | .ok .directory => true
  | _ => false

def isFile (t : FileTree) (p : Path) : Bool :=
  match t.find p with
  | .ok (.file _) => true
  | _ => false

def read (t : FileTree) (p : Path) : Except FileError String := do
  match ← t.find p with
  | .directory => .error .isDirectory
  | .file (.binary _) => .error .invalidText
  | .file (.text s) => .ok s

/-- Writes a file in a directory that exists. A path that ends in a slash or a dot segment names
a directory and cannot be written. -/
def write (t : FileTree) (p : Path) (s : String) : Except FileError FileTree := do
  match fault? p with
  | some fault => .error fault
  | none =>
    let named := (p.segments.reverse.dropWhile (· = "")).reverse
    let parent ← named.dropLast.foldlM t.step (t.start p)
    match t.entry? parent with
    | none => .error .notFound
    | some (.file _) => .error .notDirectory
    | some .directory =>
      match named.getLast? with
      | none => .error .isDirectory
      | some name =>
        if named.length < p.segments.length || name == "." || name == ".." then
          .error .isDirectory
        else if nameLimit < name.utf8ByteSize then .error .nameTooLong
        else if t.entry? (parent ++ [name]) = some .directory then .error .isDirectory
        else .ok (t.put (parent ++ [name]) (.file (.text s)))

/-- The tree without a file; nothing else can be removed. -/
def remove? (t : FileTree) (p : Path) : Option FileTree :=
  match t.locate p with
  | .error _ => none
  | .ok l =>
    match t.entry? l with
    | some (.file _) => some { t with entries := t.entries.filter (·.1 ≠ l) }
    | _ => none

/-- One segment of a path, made as a directory where it is missing. -/
def descend (state : FileTree × Location) (segment : String) : FileTree × Location :=
  let (t, l) := state
  if segment = "" ∨ segment = "." then (t, l)
  else if segment = ".." then (t, l.dropLast)
  else if (t.entry? (l ++ [segment])).isSome then (t, l ++ [segment])
  else (t.put (l ++ [segment]) .directory, l ++ [segment])

def makeDirectories (t : FileTree) (p : Path) : FileTree :=
  (p.segments.foldl descend (t, t.start p)).1

/-- Puts a file in place, with the directories above it. -/
def place (t : FileTree) (p : Path) (contents : Contents) : FileTree :=
  let (t, l) := p.segments.dropLast.foldl descend (t, t.start p)
  t.put (l ++ [p.segments.getLast?.getD ""]) (.file contents)

/-- The rest of a location that lies below `base`. -/
def below? : Location → Location → Option Location
  | [], l => if l.isEmpty then none else some l
  | _ :: _, [] => none
  | b :: base, n :: l => if b = n then below? base l else none

/-- Whether a text comes before another, character by character. -/
def nameBefore : List Char → List Char → Bool
  | _, [] => false
  | [], _ :: _ => true
  | a :: as, b :: bs => a.toNat < b.toNat || (a == b && nameBefore as bs)

/-- Whether a location comes no later than another, name by name. -/
def notAfter : Location → Location → Bool
  | [], _ => true
  | _ :: _, [] => false
  | a :: as, b :: bs => nameBefore a.toList b.toList || (a == b && notAfter as bs)

/-- Whether a path means the standard input, as a dash by itself does. -/
def isStandardInput (p : Path) : Bool :=
  p.same ⟨"-"⟩

/-- The path of what lies below another one. -/
def spelledFrom (p : Path) (names : Location) : Path :=
  names.foldl (fun q n => q.join ⟨n⟩) p

/-- What lies below a location, in the order of a walk: a directory's entries come in the order of
their names, and what lies in a directory comes right behind it. -/
def entriesBelow (t : FileTree) (base : Location) : List (Location × Entry) :=
  (t.entries.filterMap fun (l, e) => (below? base l).map (·, e)).mergeSort
    fun x y => notAfter x.1 y.1

/-- What a walk from `p` takes of the entries that it meets: the files. Each directory has to be
listed, and the walk ends at the first that cannot be. -/
def collect (p : Path) : List (Location × Entry) → Except WalkError (List Path)
  | [] => .ok []
  | (names, .file _) :: met => (collect p met).map (spelledFrom p names :: ·)
  | (names, .directory) :: met =>
    match fault? (spelledFrom p names) with
    | some fault => .error ⟨spelledFrom p names, fault⟩
    | none => collect p met

/-- The files below a directory, spelled from `p`. Nothing lies below the standard input, so a
directory of that name has to be spelled in another way. -/
def filesBelow (t : FileTree) (p : Path) : Except WalkError (List Path) :=
  if isStandardInput p then .ok []
  else
    match t.locate p with
    | .error fault => .error ⟨p, fault⟩
    | .ok base => collect p (t.entriesBelow base)

end FileTree

end CampaignMarkup
