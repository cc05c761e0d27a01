import CampaignMarkup.Text.Blank
import CampaignMarkup.Text.Bytes

/-! # Lexemes

The first cut of a source text. Each character lands in exactly one lexeme, and the classes
are disjoint on their first character except for `<`, where two of them open a raw string.
Quoted, raw and call forms that are never closed run to the end of the text.
-/
namespace CampaignMarkup

inductive Shape where
  | comment
  | endOfLine
  | whitespace
  | quoted
  | rawQuoted
  | macroCall
  | loneAngle
  | text
deriving DecidableEq, Repr, Inhabited

structure Lexeme where
  shape : Shape
  chars : List Char
deriving DecidableEq, Repr, Inhabited

namespace Lexeme

open Text

/-- Characters of a plain run: no blank, no line break and nothing that opens another form. -/
def isPlain (c : Char) : Bool :=
  !isBlank c && c != '#' && c != '"' && c != '<' && c != '{'

/-- After an opening quote: the string with its closing quote, and what follows. A doubled
quote does not close. -/
def quotedTail : List Char → List Char × List Char
  | [] => ([], [])
  | '"' :: '"' :: cs =>
    let (string, rest) := quotedTail cs
    ('"' :: '"' :: string, rest)
  | '"' :: cs => (['"'], cs)
  | c :: cs =>
    let (string, rest) := quotedTail cs
    (c :: string, rest)

/-- After `<<`: the raw string with its `>>`, and what follows. -/
def rawTail : List Char → List Char × List Char
  | [] => ([], [])
  | '>' :: '>' :: cs => (['>', '>'], cs)
  | c :: cs =>
    let (string, rest) := rawTail cs
    (c :: string, rest)

/-- After an opening brace: the call with its closing brace, and what follows. -/
def callTail : List Char → List Char × List Char
  | [] => ([], [])
  | c :: cs =>
    if c = '}' then ([c], cs)
    else
      let (call, rest) := callTail cs
      (c :: call, rest)

/-- The lexeme that begins with `c`, where `cs` follows, and the text after it. -/
def next (c : Char) (cs : List Char) : Lexeme × List Char :=
  if c = '#' then
    (⟨.comment, c :: cs.takeWhile (!isLineBreak ·)⟩, cs.dropWhile (!isLineBreak ·))
  else if c = '\r' then
    match cs with
    | '\n' :: rest => (⟨.endOfLine, ['\r', '\n']⟩, rest)
    | _ => (⟨.endOfLine, [c]⟩, cs)
  else if isLineBreak c then
    (⟨.endOfLine, [c]⟩, cs)
  else if isGap c then
    (⟨.whitespace, c :: cs.takeWhile isGap⟩, cs.dropWhile isGap)
  else if c = '"' then
    let (string, rest) := quotedTail cs
    (⟨.quoted, c :: string⟩, rest)
  else if c = '{' then
    let (call, rest) := callTail cs
    (⟨.macroCall, c :: call⟩, rest)
  else if c = '<' then
    match cs with
    | '<' :: cs =>
      let (string, rest) := rawTail cs
      (⟨.rawQuoted, '<' :: '<' :: string⟩, rest)
    | _ => (⟨.loneAngle, [c]⟩, cs)
  else
    (⟨.text, c :: cs.takeWhile isPlain⟩, cs.dropWhile isPlain)

theorem quotedTail_append (cs : List Char) : (quotedTail cs).1 ++ (quotedTail cs).2 = cs := by
  fun_induction quotedTail cs <;> simp_all

theorem rawTail_append (cs : List Char) : (rawTail cs).1 ++ (rawTail cs).2 = cs := by
  fun_induction rawTail cs <;> simp_all

theorem callTail_append (cs : List Char) : (callTail cs).1 ++ (callTail cs).2 = cs := by
  fun_induction callTail cs <;> simp_all

/-- A lexeme and the text after it are the text it was cut from. -/
theorem next_append (c : Char) (cs : List Char) :
    (next c cs).1.chars ++ (next c cs).2 = c :: cs := by
  unfold next
  split
  · simp
  split
  · subst_vars
    split <;> simp
  split
  · simp
  split
  · simp
  split
  · simp [quotedTail_append]
  split
  · simp [callTail_append]
  split
  · subst_vars
    split <;> simp [rawTail_append]
  · simp

/-- No lexeme is empty. -/
theorem next_chars_ne_nil (c : Char) (cs : List Char) : (next c cs).1.chars ≠ [] := by
  unfold next
  repeat' split
  all_goals simp

theorem next_rest_length_lt (c : Char) (cs : List Char) :
    (next c cs).2.length < (c :: cs).length := by
  have h := congrArg List.length (next_append c cs)
  have hpos := List.length_pos_iff.mpr (next_chars_ne_nil c cs)
  simp only [List.length_append] at h
  omega

/-- The lexemes of a text. -/
def scan : List Char → List Lexeme
  | [] => []
  | c :: cs => (next c cs).1 :: scan (next c cs).2
termination_by cs => cs.length
decreasing_by exact next_rest_length_lt c cs

def byteSize (x : Lexeme) : Nat :=
  Chars.byteSize x.chars

/-- Each lexeme with its span, the first one at byte `offset`. -/
def place (offset : Nat) : List Lexeme → List (Lexeme × Nat × Nat)
  | [] => []
  | x :: xs => (x, offset, offset + x.byteSize) :: place (offset + x.byteSize) xs

end Lexeme

end CampaignMarkup
