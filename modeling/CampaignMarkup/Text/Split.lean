/-! # Cutting text

Cuts at a character, at a known beginning or end, and into lines. All of them work on
character lists; `Text` has the forms on strings that the rest of the library uses.
-/
namespace CampaignMarkup

namespace Chars

/-- The pieces between the occurrences of `sep`; there is always at least one. -/
def splitOn (sep : Char) : List Char → List (List Char)
  | [] => [[]]
  | c :: cs =>
    if c = sep then [] :: splitOn sep cs
    else
      match splitOn sep cs with
      | [] => [[c]]
      | piece :: pieces => (c :: piece) :: pieces

/-- What stands before and after the first `sep`, if there is one. -/
def splitOnce (sep : Char) : List Char → Option (List Char × List Char)
  | [] => none
  | c :: cs =>
    if c = sep then some ([], cs)
    else (splitOnce sep cs).map fun (before, after) => (c :: before, after)

theorem splitOnce_length_lt {sep : Char} {cs before after : List Char}
    (h : splitOnce sep cs = some (before, after)) : after.length < cs.length := by
  induction cs generalizing before with
  | nil => simp [splitOnce] at h
  | cons c cs ih =>
    unfold splitOnce at h
    split at h
    · cases h
      simp
    · obtain ⟨⟨b, a⟩, hb, heq⟩ := Option.map_eq_some_iff.mp h
      cases heq
      have := ih hb
      simp only [List.length_cons]
      omega

/-- The rest of a text that begins with `start`. -/
def dropStart? : List Char → List Char → Option (List Char)
  | [], cs => some cs
  | _ :: _, [] => none
  | s :: start, c :: cs => if s = c then dropStart? start cs else none

/-- The rest of a text that ends with `ending`. -/
def dropEnding? (ending cs : List Char) : Option (List Char) :=
  (dropStart? ending.reverse cs.reverse).map List.reverse

/-- The text without the ending, where it has it. -/
def dropEnding (ending cs : List Char) : List Char :=
  (dropEnding? ending cs).getD cs

/-- Lines ended by a line feed; a carriage return before it belongs to the ending. What
follows the last line feed is a line only if it is not empty, and keeps a carriage return. -/
def lines (cs : List Char) : List (List Char) :=
  let pieces := splitOn '\n' cs
  let ended := pieces.dropLast.map (dropEnding ['\r'])
  match pieces.getLast? with
  | none | some [] => ended
  | some last => ended ++ [last]

/-- Lines with their line feeds still on them. -/
def linesInclusive : List Char → List (List Char)
  | [] => []
  | c :: cs =>
    if c = '\n' then [c] :: linesInclusive cs
    else
      match linesInclusive cs with
      | [] => [[c]]
      | line :: rest => (c :: line) :: rest

/-- Every quote written twice. -/
def doubleQuotes : List Char → List Char
  | [] => []
  | c :: cs => if c = '"' then '"' :: '"' :: doubleQuotes cs else c :: doubleQuotes cs

end Chars

namespace Text

def splitOn (sep : Char) (s : String) : List String :=
  (Chars.splitOn sep s.toList).map String.ofList

def splitOnce (sep : Char) (s : String) : Option (String × String) :=
  (Chars.splitOnce sep s.toList).map fun (before, after) =>
    (String.ofList before, String.ofList after)

def dropStart? (start s : String) : Option String :=
  (Chars.dropStart? start.toList s.toList).map String.ofList

def startsWith (start s : String) : Bool :=
  (Chars.dropStart? start.toList s.toList).isSome

def lines (s : String) : List String :=
  (Chars.lines s.toList).map String.ofList

/-- Line `n`, counted from 0, of the lines that line feeds separate. -/
def lineAt? (s : String) (n : Nat) : Option (List Char) :=
  (Chars.splitOn '\n' s.toList)[n]?

end Text

end CampaignMarkup
