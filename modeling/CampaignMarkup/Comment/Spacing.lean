import CampaignMarkup.Directive.Basic
import CampaignMarkup.FileTree
import CampaignMarkup.Preprocess.Options

/-! # Spacing of comments

A comment line such as `#TODO fix` becomes `# TODO fix`, so that it can never be taken for a
directive. Directives, and comments that go on with a blank or another `#`, are left alone.
-/
namespace CampaignMarkup

namespace Comment

/-- Whether a line, indentation removed, is a comment that lacks its blank. -/
def lacksSpace (trimmed : List Char) : Bool :=
  match trimmed with
  | '#' :: c :: _ =>
    !Text.isBlank c && c != '#'
      && (Directive.ofComment? (String.ofList (Chars.trimEnd trimmed))).isNone
  | _ => false

/-- The line with a blank behind the `#` that opens it. -/
def spaceLine (line : List Char) : List Char :=
  let trimmed := Chars.trimStart line
  if lacksSpace trimmed then
    line.takeWhile Text.isBlank ++ '#' :: ' ' :: trimmed.tail
  else line

/-- The text with its comments spaced, if any needed it. -/
def space? (source : String) : Option String :=
  let lines := Chars.linesInclusive source.toList
  if lines.any fun line => lacksSpace (Chars.trimStart line) then
    some (String.ofList (lines.flatMap spaceLine))
  else none

/-- A file that could not be read or written, or a directory that could not be walked. -/
structure AccessError where
  path : Path
  obstacle : Obstacle
deriving DecidableEq, Repr, Inhabited

def AccessError.message (e : AccessError) : String :=
  e.obstacle.report "access" e.path

/-- Spaces the comments of one file; whether it was changed comes with the tree. -/
def spaceFile (tree : FileTree) (file : Path) : Except FileError (FileTree × Bool) := do
  let source ← tree.read file
  match space? source with
  | some spaced => return (← tree.write file spaced, true)
  | none => return (tree, false)

/-- Spaces files in order. Files done before an error stay changed. -/
def spaceFiles (tree : FileTree) : List Path → FileTree × Except AccessError (List Path)
  | [] => (tree, .ok [])
  | file :: files =>
    match spaceFile tree file with
    | .error error => (tree, .error ⟨file, .file error⟩)
    | .ok (tree, changed) =>
      let (tree, rest) := spaceFiles tree files
      (tree, rest.map fun paths => if changed then file :: paths else paths)

/-- Spaces a file, or the files below a directory that have one of the extensions, and tells which
were changed. -/
def spaceTree (tree : FileTree) (path : Path) (extensions : List String) :
    FileTree × Except AccessError (List Path) :=
  if tree.isDirectory path then
    match tree.filesBelow path with
    | .error error => (tree, .error ⟨path, .walk error⟩)
    | .ok files => spaceFiles tree (files.filter (hasExtension extensions))
  else spaceFiles tree [path]

end Comment

end CampaignMarkup
