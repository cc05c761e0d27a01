import CampaignMarkup.Macros.Definition
import CampaignMarkup.Text.Delimiter
import CampaignMarkup.Token.Lexer

/-! # Macro calls

`NAME a "b c" (d e) key=value` is a name and arguments between blanks. Quotes, raw stretches and
parentheses keep their blanks, and a pair of them around a whole argument is not part of its
value.
-/
namespace CampaignMarkup

/-- Where a reader of a call stands: within delimiters, and within how many parentheses. -/
structure CallReader where
  delimiter : Delimiter := .plain
  parens : Nat := 0
deriving DecidableEq, Repr, Inhabited

namespace CallReader

/-- Parentheses count only outside quotes and raw stretches; one too many is a plain character. -/
def step (r : CallReader) (c : Char) : CallReader where
  delimiter := r.delimiter.step c
  parens :=
    if !r.delimiter.isOutside then r.parens
    else if c = '(' then r.parens + 1
    else if c = ')' then r.parens - 1
    else r.parens

/-- Whether a blank would end an argument here. -/
def isNeutral (r : CallReader) : Bool :=
  r.delimiter.isOutside && r.parens == 0

end CallReader

/-- The arguments of a call; `piece` is the one being read, last character first. -/
def splitArgumentsFrom (r : CallReader) (piece : List Char) : List Char → List (List Char)
  | [] => if piece.isEmpty then [] else [piece.reverse]
  | c :: cs =>
    if Text.isBlank c && r.isNeutral then
      if piece.isEmpty then splitArgumentsFrom (r.step c) [] cs
      else piece.reverse :: splitArgumentsFrom (r.step c) [] cs
    else splitArgumentsFrom (r.step c) (c :: piece) cs

/-- The pieces of a call, its name among them, as they are written. -/
def splitArguments (content : List Char) : List (List Char) :=
  splitArgumentsFrom {} [] content

namespace Chars

/-- The text between `opening` and `closing`, where it begins and ends so and they do not
overlap. -/
def between? (opening closing cs : List Char) : Option (List Char) :=
  (dropStart? opening cs).bind (dropEnding? closing)

/-- An argument without the quotes, the raw delimiters or the parentheses around it. -/
def stripWrapping (cs : List Char) : List Char :=
  if (between? ['"'] ['"'] cs).isSome then unquote cs
  else
    match between? ['<', '<'] ['>', '>'] cs with
    | some inner => inner
    | none => (between? ['('] [')'] cs).getD cs

def isKeywordStart (c : Char) : Bool :=
  c.isAlpha || c == '_'

def isKeywordChar (c : Char) : Bool :=
  c.isAlphanum || c == '_'

/-- Key and value of a text of the form `key=value`. -/
def keyword? (cs : List Char) : Option (List Char × List Char) :=
  match splitOnce '=' cs with
  | some (c :: key, value) =>
    if isKeywordStart c && key.all isKeywordChar then some (c :: key, value) else none
  | _ => none

end Chars

structure Argument where
  /-- The argument as it is written. -/
  raw : String
  /-- What it passes to a positional parameter. -/
  value : String
  /-- Key and value, for an argument of the form `key=value`. -/
  keyword : Option (String × String)
deriving DecidableEq, Repr, Inhabited

def Argument.ofRaw (raw : List Char) : Argument where
  raw := String.ofList raw
  value := String.ofList (Chars.stripWrapping raw)
  keyword := (Chars.keyword? raw).map fun (key, value) =>
    (String.ofList key, String.ofList (Chars.stripWrapping value))

structure MacroCall where
  name : String
  args : List Argument
deriving DecidableEq, Repr, Inhabited

/-- The values of a call, sorted by the parameters they are for. -/
structure Bound where
  positional : List String := []
  keywords : List (String × String) := []
deriving DecidableEq, Repr, Inhabited

namespace MacroCall

def read (content : String) : MacroCall :=
  match splitArguments content.toList with
  | [] => ⟨"", []⟩
  | name :: args => ⟨String.ofList name, args.map Argument.ofRaw⟩

/-- One more argument: by name if its key is a keyword parameter of the macro, else by position. -/
def bindArgument (d : Definition) (bound : Bound) (arg : Argument) : Bound :=
  match arg.keyword with
  | some (key, value) =>
    if Assoc.contains key d.defaults then
      { bound with keywords := Assoc.insert key value bound.keywords }
    else { bound with positional := bound.positional ++ [arg.value] }
  | none => { bound with positional := bound.positional ++ [arg.value] }

def bind (call : MacroCall) (d : Definition) : Bound :=
  call.args.foldl (bindArgument d) {}

end MacroCall

end CampaignMarkup
