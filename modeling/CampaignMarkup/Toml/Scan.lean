/-! # Scanning settings files

Settings files are written in TOML. This module has what its readers share: blanks, line breaks
and comments.
-/
namespace CampaignMarkup.Toml

/-- Takes something off the front of a text. -/
abbrev Reader (α : Type) := List Char → Option (α × List Char)

/-- How deep values may nest, and how many parts a key may have. -/
def nestingLimit : Nat := 80

def isBlank (c : Char) : Bool :=
  c == ' ' || c == '\t'

/-- Characters that may stand in a comment, and in a text where they do not end it. -/
def isPlain (c : Char) : Bool :=
  c == '\t' || (' ' ≤ c && c != '\x7f')

def skipBlanks (cs : List Char) : List Char :=
  cs.dropWhile isBlank

def newline? : List Char → Option (List Char)
  | '\n' :: cs => some cs
  | '\r' :: '\n' :: cs => some cs
  | _ => none

/-- What follows the line, if nothing but blanks and a comment are left on it. -/
def lineEnd? (cs : List Char) : Option (List Char) :=
  let cs :=
    match skipBlanks cs with
    | '#' :: comment => comment.dropWhile isPlain
    | cs => cs
  if cs.isEmpty then some [] else newline? cs

/-- Skips blanks, line breaks and comments. -/
def skipSpace (comment : Bool) : List Char → Option (List Char)
  | [] => some []
  | '\n' :: cs => skipSpace false cs
  | '\r' :: '\n' :: cs => skipSpace false cs
  | c :: cs =>
    if comment then
      if isPlain c then skipSpace true cs else none
    else if isBlank c then skipSpace false cs
    else if c = '#' then skipSpace true cs
    else some (c :: cs)

/-- Skips blanks and line breaks. -/
def skipFill : List Char → List Char
  | '\n' :: cs => skipFill cs
  | '\r' :: '\n' :: cs => skipFill cs
  | c :: cs => if isBlank c then skipFill cs else c :: cs
  | [] => []

end CampaignMarkup.Toml
