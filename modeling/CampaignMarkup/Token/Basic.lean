import CampaignMarkup.Text.Split

/-! # Tokens

A token is a kind, the content the kind carries and the bytes of the source it was read
from. Quoted content is unescaped and without its quotes, raw content and calls are without
their delimiters, every other kind holds its source text as it stands.
-/
namespace CampaignMarkup

/-- Bytes `start` up to `stop` of a source text. -/
structure Span where
  start : Nat
  stop : Nat
deriving DecidableEq, Repr, Inhabited

inductive TokenKind where
  | text
  | whitespace
  | endOfLine
  | comment
  | quoted
  | rawQuoted
  | macroCall
deriving DecidableEq, Repr, Inhabited

def TokenKind.label : TokenKind → String
  | .text => "TEXT"
  | .whitespace => "WHITESPACE"
  | .endOfLine => "END_OF_LINE"
  | .comment => "COMMENT"
  | .quoted => "QUOTED"
  | .rawQuoted => "RAW_QUOTED"
  | .macroCall => "MACRO_CALL"

structure Token where
  kind : TokenKind
  content : String
  span : Span
deriving DecidableEq, Repr, Inhabited

namespace Token

/-- A bare `+` between the operands of a concatenation. -/
def isPlus (t : Token) : Bool :=
  t.kind == .text && t.content == "+"

def isWhitespace (t : Token) : Bool :=
  t.kind == .whitespace

def isLineBreak (t : Token) : Bool :=
  t.kind == .endOfLine

/-- The token as markup: delimiters back in place, quotes inside a quoted token doubled. -/
def render (t : Token) : String :=
  match t.kind with
  | .quoted => String.ofList ('"' :: Chars.doubleQuotes t.content.toList ++ ['"'])
  | .rawQuoted => "<<" ++ t.content ++ ">>"
  | .macroCall => "\x7b" ++ t.content ++ "\x7d"
  | .text | .whitespace | .endOfLine | .comment => t.content

end Token

/-- The markup a list of tokens stands for. -/
def detokenize (tokens : List Token) : String :=
  String.join (tokens.map Token.render)

end CampaignMarkup
