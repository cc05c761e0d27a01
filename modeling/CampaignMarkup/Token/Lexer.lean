import CampaignMarkup.Token.Basic
import CampaignMarkup.Token.Lexeme

/-! # From lexemes to tokens

Delimiters come off, doubled quotes collapse, and a lone `<` joins the plain text on either
side of it, so that no two text tokens touch.
-/
namespace CampaignMarkup

namespace Chars

/-- What a quoted string says, from behind its opening quote: pairs of quotes collapse, and a
single quote ends it. -/
def unquoteTail : List Char → List Char
  | [] => []
  | '"' :: '"' :: cs => '"' :: unquoteTail cs
  | '"' :: _ => []
  | c :: cs => c :: unquoteTail cs

/-- What a quoted string says. The opening quote may be missing. -/
def unquote (cs : List Char) : List Char :=
  unquoteTail ((dropStart? ['"'] cs).getD cs)

/-- A text without an outer pair of delimiters; either of them may be missing. -/
def unwrap (opening closing cs : List Char) : List Char :=
  dropEnding closing ((dropStart? opening cs).getD cs)

end Chars

namespace Text

def unquote (s : String) : String :=
  String.ofList (Chars.unquote s.toList)

end Text

namespace Shape

def kind : Shape → TokenKind
  | .comment => .comment
  | .endOfLine => .endOfLine
  | .whitespace => .whitespace
  | .quoted => .quoted
  | .rawQuoted => .rawQuoted
  | .macroCall => .macroCall
  | .loneAngle | .text => .text

end Shape

namespace Lexeme

def isText (x : Lexeme) : Bool :=
  x.shape.kind == .text

/-- What the token of a lexeme holds. -/
def content (x : Lexeme) : List Char :=
  match x.shape with
  | .quoted => Chars.unquote x.chars
  | .rawQuoted => Chars.unwrap ['<', '<'] ['>', '>'] x.chars
  | .macroCall => Chars.unwrap ['{'] ['}'] x.chars
  | .comment | .endOfLine | .whitespace | .loneAngle | .text => x.chars

/-- Pieces of plain text that touch become one. -/
def fuse : List Lexeme → List Lexeme
  | [] => []
  | x :: xs =>
    match fuse xs with
    | [] => [x]
    | y :: ys =>
      if x.isText && y.isText then ⟨.text, x.chars ++ y.chars⟩ :: ys else x :: y :: ys

end Lexeme

namespace Token

def ofLexeme (x : Lexeme) (start stop : Nat) : Token :=
  ⟨x.shape.kind, String.ofList x.content, ⟨start, stop⟩⟩

/-- The tokens of lexemes that follow one another from byte `offset` on. -/
def ofLexemes (offset : Nat) : List Lexeme → List Token
  | [] => []
  | x :: xs => ofLexeme x offset (offset + x.byteSize) :: ofLexemes (offset + x.byteSize) xs

end Token

/-- The tokens of a source text, before concatenations are joined. -/
def tokenize (source : String) : List Token :=
  Token.ofLexemes 0 (Lexeme.fuse (Lexeme.scan source.toList))

end CampaignMarkup
