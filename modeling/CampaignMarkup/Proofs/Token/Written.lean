import CampaignMarkup.Proofs.Token.Pieces

/-! # How a piece is written

Content goes back between the delimiters of its kind. That is the source text of the piece, but for
a form that was never closed, which gains the delimiter it lacks. -/
namespace CampaignMarkup

open Chars

namespace TokenKind

/-- The kinds whose content stands between delimiters. -/
def isDelimited : TokenKind → Bool
  | .quoted | .rawQuoted | .macroCall => true
  | .text | .whitespace | .endOfLine | .comment => false

/-- What closes a form of the kind. -/
def closing : TokenKind → List Char
  | .quoted => ['"']
  | .rawQuoted => ['>', '>']
  | .macroCall => ['}']
  | .text | .whitespace | .endOfLine | .comment => []

/-- Whether a form of the kind with this source text lacks its closing delimiter. The quotes inside
a string come in pairs. -/
def isOpen : TokenKind → List Char → Bool
  | .quoted, source => source.count '"' % 2 = 1
  | .rawQuoted, source => ¬ ['>', '>'] <:+ source.drop 2
  | .macroCall, source => ¬ ['}'] <:+ source
  | .text, _ | .whitespace, _ | .endOfLine, _ | .comment, _ => false

/-- The delimiter that a form of the kind with this source text lacks. -/
def missing (kind : TokenKind) (source : List Char) : List Char :=
  if kind.isOpen source then kind.closing else []

/-- Content as markup. -/
def write : TokenKind → List Char → List Char
  | .quoted, content => '"' :: (doubleQuotes content ++ ['"'])
  | .rawQuoted, content => '<' :: '<' :: (content ++ ['>', '>'])
  | .macroCall, content => '{' :: (content ++ ['}'])
  | .text, content | .whitespace, content | .endOfLine, content | .comment, content => content

theorem missing_of_not_delimited {kind : TokenKind} (h : kind.isDelimited = false)
    (source : List Char) : kind.missing source = [] := by
  cases kind <;> first | rfl | cases h

theorem write_of_not_delimited {kind : TokenKind} (h : kind.isDelimited = false)
    (content : List Char) : kind.write content = content := by
  cases kind <;> first | rfl | cases h

end TokenKind

namespace Token

theorem render_eq (t : Token) : t.render = String.ofList (t.kind.write t.content.toList) := by
  apply String.toList_injective
  unfold render TokenKind.write
  cases t.kind <;> simp

end Token

theorem toList_detokenize (ts : List Token) :
    (detokenize ts).toList = ts.flatMap fun t => t.kind.write t.content.toList := by
  induction ts with
  | nil => rfl
  | cons t ts ih =>
    have hcons : detokenize (t :: ts) = t.render ++ detokenize ts := by
      simp [detokenize, String.join_cons]
    rw [hcons, String.toList_append, ih, t.render_eq]
    simp

namespace Chars

theorem doubleQuotes_append (cs ds : List Char) :
    doubleQuotes (cs ++ ds) = doubleQuotes cs ++ doubleQuotes ds := by
  induction cs with
  | nil => rfl
  | cons c cs ih =>
    by_cases hc : c = '"'
    · simp [doubleQuotes, hc, ih]
    · simp [doubleQuotes, hc, ih]

theorem unquoteTail_closed (content : List Char) :
    unquoteTail (doubleQuotes content ++ ['"']) = content := by
  induction content with
  | nil => rfl
  | cons c content ih =>
    by_cases hc : c = '"'
    · simp [doubleQuotes, hc, unquoteTail, ih]
    · simp [doubleQuotes, hc, unquoteTail, ih]

theorem unquoteTail_open (content : List Char) : unquoteTail (doubleQuotes content) = content := by
  induction content with
  | nil => rfl
  | cons c content ih =>
    by_cases hc : c = '"'
    · simp [doubleQuotes, hc, unquoteTail, ih]
    · simp [doubleQuotes, hc, unquoteTail, ih]

theorem count_doubleQuotes (content : List Char) :
    (doubleQuotes content).count '"' = 2 * content.count '"' := by
  induction content with
  | nil => rfl
  | cons c content ih =>
    by_cases hc : c = '"'
    · simp [doubleQuotes, hc, ih]
      omega
    · simp [doubleQuotes, hc, ih]

theorem not_suffix_of_undoubled {content : List Char} (h : Undoubled '>' content) :
    ¬ ['>', '>'] <:+ content := by
  rintro ⟨before, rfl⟩
  have hpair := (undoubled_append.mp h).2.1
  exact (undoubled_cons.mp hpair).1 rfl rfl

end Chars

namespace Lexeme

theorem content_quoted (content : List Char) :
    Lexeme.content ⟨.quoted, '"' :: (doubleQuotes content ++ ['"'])⟩ = content :=
  unquoteTail_closed content

theorem content_openQuoted (content : List Char) :
    Lexeme.content ⟨.quoted, '"' :: doubleQuotes content⟩ = content :=
  unquoteTail_open content

theorem content_rawQuoted (content : List Char) :
    Lexeme.content ⟨.rawQuoted, '<' :: '<' :: (content ++ ['>', '>'])⟩ = content :=
  unwrap_closed ['<', '<'] ['>', '>'] content

theorem content_openRawQuoted {content : List Char} (h : Undoubled '>' content) :
    Lexeme.content ⟨.rawQuoted, '<' :: '<' :: content⟩ = content :=
  unwrap_open ['<', '<'] (not_suffix_of_undoubled h)

theorem content_macroCall (content : List Char) :
    Lexeme.content ⟨.macroCall, '{' :: (content ++ ['}'])⟩ = content :=
  unwrap_closed ['{'] ['}'] content

theorem content_openMacroCall {content : List Char} (h : '}' ∉ content) :
    Lexeme.content ⟨.macroCall, '{' :: content⟩ = content :=
  unwrap_open ['{'] (fun hs => h (hs.subset List.mem_cons_self))

/-- A form is written as its source text has it, or it is the last and lacks its delimiter. -/
theorem CutBefore.closed_or_open {x : Lexeme} {rest : List Char} (h : x.CutBefore rest) :
    (x.shape.kind.write x.content = x.chars ∧ x.shape.kind.isOpen x.chars = false) ∨
      (rest = [] ∧ x.shape.kind.write x.content = x.chars ++ x.shape.kind.closing ∧
        x.shape.kind.isOpen x.chars) := by
  cases h with
  | @quoted content =>
    refine .inl ⟨congrArg (TokenKind.write .quoted) (content_quoted content), ?_⟩
    simp only [Shape.kind, TokenKind.isOpen, List.count_cons, List.count_append,
      count_doubleQuotes, List.count_nil, beq_self_eq_true, if_true, decide_eq_false_iff_not]
    omega
  | @openQuoted content =>
    refine .inr ⟨rfl, congrArg (TokenKind.write .quoted) (content_openQuoted content), ?_⟩
    simp only [Shape.kind, TokenKind.isOpen, List.count_cons, count_doubleQuotes,
      beq_self_eq_true, if_true, decide_eq_true_eq]
    omega
  | @rawQuoted content =>
    refine .inl ⟨congrArg (TokenKind.write .rawQuoted) (content_rawQuoted content), ?_⟩
    simp [Shape.kind, TokenKind.isOpen]
  | @openRawQuoted content hcontent =>
    refine .inr ⟨rfl, congrArg (TokenKind.write .rawQuoted) (content_openRawQuoted hcontent), ?_⟩
    simpa [Shape.kind, TokenKind.isOpen] using not_suffix_of_undoubled hcontent
  | @macroCall content =>
    refine .inl ⟨congrArg (TokenKind.write .macroCall) (content_macroCall content), ?_⟩
    have hs : ['}'] <:+ '{' :: (content ++ ['}']) := ⟨'{' :: content, rfl⟩
    simp only [Shape.kind, TokenKind.isOpen, hs, not_true, decide_false]
  | @openMacroCall content hcontent =>
    refine .inr ⟨rfl, congrArg (TokenKind.write .macroCall) (content_openMacroCall hcontent), ?_⟩
    have hs : ¬ ['}'] <:+ '{' :: content := fun hs => by
      have := hs.subset List.mem_cons_self
      simp [hcontent] at this
    simpa [Shape.kind, TokenKind.isOpen] using hs
  | _ => exact .inl ⟨rfl, rfl⟩

theorem PieceBefore.closed_or_open {x : Lexeme} {rest : List Char} (h : x.PieceBefore rest) :
    (x.shape.kind.write x.content = x.chars ∧ x.shape.kind.isOpen x.chars = false) ∨
      (rest = [] ∧ x.shape.kind.write x.content = x.chars ++ x.shape.kind.closing ∧
        x.shape.kind.isOpen x.chars) := by
  cases h with
  | form hcut _ => exact hcut.closed_or_open
  | @word w =>
    refine .inl ?_
    simp only [kind_wordShape]
    refine ⟨?_, rfl⟩
    unfold wordShape
    split <;> rfl

theorem PieceBefore.write_content {x : Lexeme} {rest : List Char} (h : x.PieceBefore rest) :
    x.shape.kind.write x.content = x.chars ++ x.shape.kind.missing x.chars := by
  rcases h.closed_or_open with ⟨hw, ho⟩ | ⟨-, hw, ho⟩
  · simp [TokenKind.missing, hw, ho]
  · simp [TokenKind.missing, hw, ho]

/-- Only the last piece can lack its delimiter. -/
theorem PieceBefore.missing_eq_nil {x : Lexeme} {rest : List Char} (h : x.PieceBefore rest)
    (hrest : rest ≠ []) : x.shape.kind.missing x.chars = [] := by
  rcases h.closed_or_open with ⟨-, ho⟩ | ⟨hr, -⟩
  · simp [TokenKind.missing, ho]
  · exact absurd hr hrest

theorem PieceBefore.ne_nil {x : Lexeme} {rest : List Char} (h : x.PieceBefore rest) :
    x.chars ≠ [] := by
  cases h with
  | form hcut _ => exact hcut.ne_nil
  | word hw => exact hw.ne_nil

/-- Outside delimiters the content is the source text. -/
theorem PieceBefore.content_eq {x : Lexeme} {rest : List Char} (h : x.PieceBefore rest)
    (hx : x.shape.kind.isDelimited = false) : x.content = x.chars := by
  have hw := h.write_content
  rwa [TokenKind.write_of_not_delimited hx, TokenKind.missing_of_not_delimited hx,
    List.append_nil] at hw

end Lexeme

end CampaignMarkup
