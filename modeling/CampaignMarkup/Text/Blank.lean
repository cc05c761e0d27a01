/-! # Blanks

White space as the Unicode property White_Space has it, and the cuts that go by it.
The scanners of the markup itself use a narrower set, because line breaks are tokens of
their own there.
-/
namespace CampaignMarkup

namespace Text

/-- The characters with the property White_Space. -/
def isBlank (c : Char) : Bool :=
  let n := c.toNat
  (9 ≤ n && n ≤ 13) || n == 0x20 || n == 0x85 || n == 0xA0 || n == 0x1680
    || (0x2000 ≤ n && n ≤ 0x200A) || n == 0x2028 || n == 0x2029 || n == 0x202F
    || n == 0x205F || n == 0x3000

/-- The characters that end a line. A carriage return and the line feed after it end one
line together; that is for the scanners to see to. -/
def isLineBreak (c : Char) : Bool :=
  c == '\n' || c == '\r' || c == '\u2028' || c == '\u2029'

/-- Blanks that stand inside a line of markup. -/
def isGap (c : Char) : Bool :=
  isBlank c && !isLineBreak c

end Text

namespace Chars

open Text

def trimStart (cs : List Char) : List Char :=
  cs.dropWhile isBlank

def trimEnd (cs : List Char) : List Char :=
  (cs.reverse.dropWhile isBlank).reverse

def trim (cs : List Char) : List Char :=
  trimEnd (trimStart cs)

/-- The maximal runs of characters that are not blank; `word` holds the run being read,
last character first. -/
def wordsFrom (word : List Char) : List Char → List (List Char)
  | [] => if word.isEmpty then [] else [word.reverse]
  | c :: cs =>
    if isBlank c then
      if word.isEmpty then wordsFrom [] cs else word.reverse :: wordsFrom [] cs
    else wordsFrom (c :: word) cs

def words (cs : List Char) : List (List Char) :=
  wordsFrom [] cs

end Chars

namespace Text

def trim (s : String) : String :=
  String.ofList (Chars.trim s.toList)

def trimStart (s : String) : String :=
  String.ofList (Chars.trimStart s.toList)

def words (s : String) : List String :=
  (Chars.words s.toList).map String.ofList

end Text

end CampaignMarkup
