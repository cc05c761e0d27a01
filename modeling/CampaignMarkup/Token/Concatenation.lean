import CampaignMarkup.Token.Lexer

/-! # Concatenations

`A + B` joins text and quoted operands into one token. White space around the `+` is dropped,
and line breaks may follow it, so that a long string can go on in the next line. One blank is
kept between two text operands and none where either side is quoted. The joined token is
quoted if any operand was.
-/
namespace CampaignMarkup

namespace Token

/-- Text and quoted tokens can be joined; a bare `+` is never an operand. -/
def isOperand (t : Token) : Bool :=
  match t.kind with
  | .quoted => true
  | .text => !t.isPlus
  | _ => false

def isSpacing (t : Token) : Bool :=
  t.isWhitespace || t.isLineBreak

/-- The operand that a chain goes on with, and the tokens after it: a `+` behind white space,
then an operand behind white space and line breaks. -/
def nextOperand? (tokens : List Token) : Option (Token × List Token) :=
  match tokens.dropWhile isWhitespace with
  | plus :: afterPlus =>
    if plus.isPlus then
      match afterPlus.dropWhile isSpacing with
      | operand :: rest => if operand.isOperand then some (operand, rest) else none
      | [] => none
    else none
  | [] => none

theorem nextOperand?_length_lt {tokens rest : List Token} {operand : Token}
    (h : nextOperand? tokens = some (operand, rest)) : rest.length < tokens.length := by
  unfold nextOperand? at h
  split at h
  next plus afterPlus hplus =>
    split at h
    · split at h
      next op more hop =>
        split at h
        · cases h
          have h1 := congrArg List.length hplus
          have h2 := congrArg List.length hop
          have h3 := (List.dropWhile_sublist isWhitespace (l := tokens)).length_le
          have h4 := (List.dropWhile_sublist isSpacing (l := afterPlus)).length_le
          simp only [List.length_cons] at h1 h2
          omega
        · simp at h
      next => simp at h
    · simp at h
  next => simp at h

/-- A chain with one more operand. `last` is the kind of the operand before it. -/
def append (chain : Token) (last : TokenKind) (operand : Token) : Token where
  kind := if operand.kind = .quoted then .quoted else chain.kind
  content :=
    if last = .text ∧ operand.kind = .text then chain.content ++ " " ++ operand.content
    else chain.content ++ operand.content
  span := ⟨chain.span.start, operand.span.stop⟩

/-- A chain with every operand that follows it, and the tokens after the last one. -/
def extend (chain : Token) (last : TokenKind) (tokens : List Token) : Token × List Token :=
  match h : nextOperand? tokens with
  | some (operand, rest) =>
    have := nextOperand?_length_lt h
    extend (append chain last operand) operand.kind rest
  | none => (chain, tokens)
termination_by tokens.length

theorem extend_length_le (chain : Token) (last : TokenKind) (tokens : List Token) :
    (extend chain last tokens).2.length ≤ tokens.length := by
  fun_induction extend chain last tokens with
  | case1 chain last tokens operand rest h hlt ih => omega
  | case2 => simp

end Token

/-- Joins every chain of operands into one token and leaves all else in place. -/
def mergeConcatenations : List Token → List Token
  | [] => []
  | t :: ts =>
    if t.isOperand then
      (Token.extend t t.kind ts).1 :: mergeConcatenations (Token.extend t t.kind ts).2
    else t :: mergeConcatenations ts
termination_by ts => ts.length
decreasing_by
  all_goals have := Token.extend_length_le t t.kind ts
  all_goals simp
  all_goals omega

/-- The tokens of a source text. -/
def lex (source : String) : List Token :=
  mergeConcatenations (tokenize source)

end CampaignMarkup
