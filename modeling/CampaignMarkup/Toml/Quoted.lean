import CampaignMarkup.Text.Number
import CampaignMarkup.Toml.Scan

/-! # Quoted texts

Basic texts have escapes, literal ones have none; both may run over several lines between tripled
quotes. Line breaks in them are line feeds, however the file has them.
-/
namespace CampaignMarkup.Toml

/-- The character of exactly `count` hexadecimal digits; surrogates are none. -/
def hexChar (count : Nat) : Reader Char := fun cs => do
  let digits ← (cs.take count).mapM Chars.hexValue?
  let code := digits.foldl (fun n d => 16 * n + d) 0
  if digits.length = count ∧ code.isValidChar then some (Char.ofNat code, cs.drop count) else none

/-- The character of an escape, behind its backslash. -/
def escape : Reader Char
  | 'b' :: cs => some ('\x08', cs)
  | 't' :: cs => some ('\t', cs)
  | 'n' :: cs => some ('\n', cs)
  | 'f' :: cs => some ('\x0c', cs)
  | 'r' :: cs => some ('\r', cs)
  | '"' :: cs => some ('"', cs)
  | '\\' :: cs => some ('\\', cs)
  | 'u' :: cs => hexChar 4 cs
  | 'U' :: cs => hexChar 8 cs
  | _ => none

/-- The rest of a basic text on one line; `fuel` is at least its length. -/
def basicRest (fuel : Nat) : Reader (List Char) := fun cs =>
  match fuel, cs with
  | 0, _ | _, [] => none
  | fuel + 1, c :: cs =>
    if c = '"' then some ([], cs)
    else if c = '\\' then do
      let (escaped, cs) ← escape cs
      let (text, cs) ← basicRest fuel cs
      return (escaped :: text, cs)
    else if isPlain c then do
      let (text, cs) ← basicRest fuel cs
      return (c :: text, cs)
    else none

/-- The rest of a literal text on one line. -/
def literalRest : Reader (List Char)
  | [] => none
  | c :: cs =>
    if c = '\'' then some ([], cs)
    else if isPlain c then (literalRest cs).map fun (text, cs) => (c :: text, cs)
    else none

/-- A backslash at the end of a line joins it with the next text. -/
def lineJoin? (cs : List Char) : Option (List Char) :=
  (newline? (skipBlanks cs)).map skipFill

/-- The rest of a text between tripled `quote`s, with escapes if `escapes`. One or two quotes are
part of the text, also right before the closing ones. -/
def longRest (quote : Char) (escapes : Bool) (fuel : Nat) : Reader (List Char) := fun cs =>
  match fuel, cs with
  | 0, _ | _, [] => none
  | fuel + 1, c :: cs =>
    let onwards (emitted cs : List Char) : Option (List Char × List Char) :=
      (longRest quote escapes fuel cs).map fun (text, cs) => (emitted ++ text, cs)
    if c = quote then
      let run := c :: cs.takeWhile (· = quote)
      let after := cs.dropWhile (· = quote)
      if run.length < 3 then onwards run after
      else if run.length ≤ 5 then some (run.drop 3, after)
      else none
    else if escapes && c = '\\' then
      match lineJoin? cs with
      | some cs => onwards [] cs
      | none => (escape cs).bind fun (escaped, cs) => onwards [escaped] cs
    else
      match newline? (c :: cs) with
      | some cs => onwards ['\n'] cs
      | none => if isPlain c then onwards [c] cs else none

/-- A long text, behind its opening quotes. A line break right there is not part of it. -/
def long (quote : Char) (escapes : Bool) : Reader (List Char) := fun cs =>
  let cs := (newline? cs).getD cs
  longRest quote escapes (cs.length + 1) cs

/-- A quoted text on one line. -/
def shortText : Reader String
  | '"' :: cs => (basicRest (cs.length + 1) cs).map fun (text, cs) => (String.ofList text, cs)
  | '\'' :: cs => (literalRest cs).map fun (text, cs) => (String.ofList text, cs)
  | _ => none

/-- Any quoted text. -/
def text : Reader String
  | '"' :: '"' :: '"' :: cs => (long '"' true cs).map fun (text, cs) => (String.ofList text, cs)
  | '\'' :: '\'' :: '\'' :: cs =>
    (long '\'' false cs).map fun (text, cs) => (String.ofList text, cs)
  | cs => shortText cs

end CampaignMarkup.Toml
