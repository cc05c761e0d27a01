import CampaignMarkup.Text.Number
import CampaignMarkup.Uri.Percent

/-! # Addresses of machines

An address of four bytes is written as up to four numbers between dots, of which the last fills
what the others leave. An address of eight groups is written in hexadecimal between colons, where
two colons together stand for a run of zeros.
-/
namespace CampaignMarkup.Uri.Address

/-- A number in a base, if all characters are digits of it. No digits at all are 0. -/
def inBase? (base : Nat) (cs : List Char) : Option Nat :=
  cs.foldlM (fun n c => ((Chars.hexValue? c).filter (· < base)).map (base * n + ·)) 0

/-- One number of an address of bytes: hexadecimal after `0x`, octal after any other `0`. -/
def number? : List Char → Option Nat
  | [] => none
  | '0' :: 'x' :: cs => inBase? 16 cs
  | '0' :: 'X' :: cs => inBase? 16 cs
  | '0' :: c :: cs => inBase? 8 (c :: cs)
  | cs => inBase? 10 cs

/-- The pieces between dots; a dot at the end closes the last one. -/
def pieces (cs : List Char) : List (List Char) :=
  let all := Chars.splitOn '.' cs
  if 1 < all.length && all.getLast? = some [] then all.dropLast else all

/-- Whether a host is meant as an address of bytes, which its last piece decides. -/
def isBytes (cs : List Char) : Bool :=
  (pieces cs).getLast?.any fun last => (Chars.digits? last).isSome || (number? last).isSome

/-- A number as so many bytes, the highest first, if it fits them. -/
def bytesOf? : Nat → Nat → Option (List Nat)
  | 0, n => if n = 0 then some [] else none
  | count + 1, n => (bytesOf? count (n / 0x100)).map (· ++ [n % 0x100])

/-- The four bytes of an address. -/
def bytes? (cs : List Char) : Option (List Nat) := do
  let numbers ← (pieces cs).mapM number?
  let leading := numbers.dropLast
  if leading.length < 4 && leading.all (· < 0x100) then
    let filling ← bytesOf? (4 - leading.length) (← numbers.getLast?)
    return leading ++ filling
  else none

def bytesText (bytes : List Nat) : String :=
  String.intercalate "." (bytes.map toString)

/-- One group: up to four hexadecimal digits. -/
def group? (cs : List Char) : Option (List Nat) :=
  if cs.isEmpty || 4 < cs.length then none else (inBase? 16 cs).map ([·])

/-- A byte in decimal, without zeros in front. -/
def byte? : List Char → Option Nat
  | '0' :: _ :: _ => none
  | cs => (Chars.digits? cs).filter (· < 0x100)

/-- The last item of an address of groups, which may be four bytes in place of two groups. -/
def lastGroups? (cs : List Char) : Option (List Nat) :=
  if cs.contains '.' then
    match (Chars.splitOn '.' cs).mapM byte? with
    | some [a, b, c, d] => some [0x100 * a + b, 0x100 * c + d]
    | _ => none
  else group? cs

/-- The groups between colons, the last item by a rule of its own. No text has no groups. -/
def groupRow? (last? : List Char → Option (List Nat)) (cs : List Char) : Option (List Nat) :=
  if cs.isEmpty then some []
  else do
    let items := Chars.splitOn ':' cs
    let leading ← items.dropLast.mapM group?
    return leading.flatten ++ (← last? (items.getLast?.getD []))

/-- What stands before and after the first two colons in a row. -/
def splitRun : List Char → Option (List Char × List Char)
  | ':' :: ':' :: cs => some ([], cs)
  | c :: cs => (splitRun cs).map fun (before, after) => (c :: before, after)
  | [] => none

/-- The eight groups of an address. -/
def groups? (cs : List Char) : Option (List Nat) :=
  match splitRun cs with
  | none => (groupRow? lastGroups? cs).filter (·.length = 8)
  | some (before, after) => do
    let front ← groupRow? group? before
    let back ← groupRow? lastGroups? after
    let given := front.length + back.length
    if given < 8 then return front ++ List.replicate (8 - given) 0 ++ back else none

/-- Where the longest run of zeros starts, and its length. The first of equal ones counts. -/
def longestRun (groups : List Nat) : Nat × Nat :=
  (List.range groups.length).foldl (fun best start =>
    let length := ((groups.drop start).takeWhile (· = 0)).length
    if best.2 < length then (start, length) else best) (0, 0)

def groupRowText (groups : List Nat) : String :=
  String.intercalate ":" (groups.map fun n => String.ofList (Nat.toDigits 16 n))

/-- The longest run of two zeros or more is left out. -/
def groupsText (groups : List Nat) : String :=
  let (start, length) := longestRun groups
  if length < 2 then groupRowText groups
  else groupRowText (groups.take start) ++ "::" ++ groupRowText (groups.drop (start + length))

end CampaignMarkup.Uri.Address
