import CampaignMarkup.Proofs.Token.Lossless

/-! # The tokens laid over their text

Every token lies over a stretch of the source, with what follows it in view, also after operands
were joined. That is enough to tell lines apart: a comment goes up to a line break, a line break and
white space are what they are made of, and nothing else begins with a line break. -/
namespace CampaignMarkup

open Chars Text

/-- A line break in front of a rest: a return takes the feed behind it along. -/
inductive IsBreak : List Char → List Char → Prop where
  | returnAndFeed {rest} : IsBreak ['\r', '\n'] rest
  | single {c rest} : isLineBreak c → (c = '\r' → rest.head? ≠ some '\n') → IsBreak [c] rest

namespace Token

/-- The token lies over these characters, and these follow. -/
def Over (t : Token) (piece rest : List Char) : Prop :=
  match t.kind with
  | .comment => t.content.toList = piece ∧ piece.head? = some '#' ∧
      ∀ c ∈ rest.head?, Text.isLineBreak c
  | .endOfLine => IsBreak piece rest
  | .whitespace => ∀ c ∈ piece, isGap c
  | .text | .quoted | .rawQuoted | .macroCall => ∀ c ∈ piece.head?, Text.isLineBreak c = false

/-- Tokens that lie side by side over a text from `offset` on. -/
inductive Laid : Nat → List Char → List Token → Prop where
  | nil {offset} : Laid offset [] []
  | cons {offset piece rest t ts} : piece ≠ [] → t.Over piece rest →
      t.span = ⟨offset, offset + byteSize piece⟩ → Laid (offset + byteSize piece) rest ts →
      Laid offset (piece ++ rest) (t :: ts)

variable {offset : Nat} {text piece rest : List Char} {t u : Token} {ts us : List Token}

theorem isLineBreak_of_isGap {c : Char} (h : isGap c) : Text.isLineBreak c = false := by
  have hboth : isBlank c = true ∧ Text.isLineBreak c = false := by simpa [isGap] using h
  exact hboth.2

/-- Only a line break begins with one. -/
theorem Over.isLineBreak_of_head (h : u.Over piece rest) {c : Char} (hc : c ∈ piece.head?)
    (hbreak : Text.isLineBreak c) : u.isLineBreak := by
  by_contra hno
  have hfirst : Text.isLineBreak c = false := by
    unfold Over at h
    split at h
    · obtain rfl : '#' = c := by simpa [h.2.1] using hc
      decide
    · next hkind => simp [isLineBreak, hkind] at hno
    · exact isLineBreak_of_isGap (h c (List.mem_of_mem_head? hc))
    all_goals exact h c hc
  simp [hfirst] at hbreak

theorem over_ofLexeme {x : Lexeme} (h : x.PieceBefore rest) (start stop : Nat) :
    (ofLexeme x start stop).Over x.chars rest := by
  cases h with
  | @word w _ hw _ _ =>
    have hkind : (ofLexeme ⟨Lexeme.wordShape w, w⟩ start stop).kind = .text :=
      Lexeme.kind_wordShape w
    rw [Over, hkind]
    intro c hc
    rcases hw.chars c (List.mem_of_mem_head? hc) with hplain | rfl
    · exact (Lexeme.isPlain_iff.mp hplain).1
    · decide
  | form hcut htext =>
    cases hcut with
    | comment _ hend => exact ⟨String.toList_ofList, rfl, hend⟩
    | returnAndFeed => exact IsBreak.returnAndFeed
    | lineBreak hbreak hpair => exact IsBreak.single hbreak hpair
    | whitespace _ hgap _ => exact hgap
    | loneAngle _ => cases htext
    | text _ _ _ => cases htext
    | quoted _ => simp [Over, ofLexeme, Shape.kind]; decide
    | openQuoted => simp [Over, ofLexeme, Shape.kind]; decide
    | rawQuoted _ => simp [Over, ofLexeme, Shape.kind]; decide
    | openRawQuoted _ => simp [Over, ofLexeme, Shape.kind]; decide
    | macroCall _ => simp [Over, ofLexeme, Shape.kind]; decide
    | openMacroCall _ => simp [Over, ofLexeme, Shape.kind]; decide

theorem laid_ofLexemes {xs : List Lexeme} (h : Lexeme.Pieces text xs) (offset : Nat) :
    Laid offset text (ofLexemes offset xs) := by
  induction h generalizing offset with
  | nil => exact .nil
  | cons hx _ ih => exact .cons hx.ne_nil (over_ofLexeme hx _ _) rfl (ih _)

namespace Laid

theorem cons_inv (h : Laid offset text (t :: ts)) :
    ∃ piece rest, text = piece ++ rest ∧ piece ≠ [] ∧ t.Over piece rest ∧
      t.span = ⟨offset, offset + byteSize piece⟩ ∧ Laid (offset + byteSize piece) rest ts := by
  cases h with
  | cons hne hover hspan hrest => exact ⟨_, _, rfl, hne, hover, hspan, hrest⟩

/-- Behind some of the tokens the others lie over the rest of the text. -/
theorem append_inv (h : Laid offset text (ts ++ us)) :
    ∃ front rest, text = front ++ rest ∧ Laid (offset + byteSize front) rest us := by
  induction ts generalizing offset text with
  | nil => exact ⟨[], text, rfl, h⟩
  | cons t ts ih =>
    obtain ⟨piece, rest, rfl, -, -, -, hrest⟩ := h.cons_inv
    obtain ⟨front, rest, rfl, hlaid⟩ := ih hrest
    refine ⟨piece ++ front, rest, (List.append_assoc _ _ _).symm, ?_⟩
    rw [byteSize_append, ← Nat.add_assoc]
    exact hlaid

/-- Tokens of one kind of character lie over such characters. -/
theorem gap_inv (h : Laid offset text (ts ++ us)) (hgap : ∀ t ∈ ts, t.isWhitespace) :
    ∃ front rest, text = front ++ rest ∧ (∀ c ∈ front, isGap c) ∧
      Laid (offset + byteSize front) rest us := by
  induction ts generalizing offset text with
  | nil => exact ⟨[], text, rfl, by simp, h⟩
  | cons t ts ih =>
    obtain ⟨piece, rest, rfl, -, hover, -, hrest⟩ := h.cons_inv
    obtain ⟨hkind, hgap⟩ := List.forall_mem_cons.mp hgap
    have hkind : t.kind = .whitespace := by simpa [isWhitespace] using hkind
    have hpiece : ∀ c ∈ piece, isGap c := by simpa only [Over, hkind] using hover
    obtain ⟨front, rest, rfl, hfront, hlaid⟩ := ih hrest hgap
    refine ⟨piece ++ front, rest, (List.append_assoc _ _ _).symm, ?_, ?_⟩
    · intro c hc
      rcases List.mem_append.mp hc with hc | hc
      · exact hpiece c hc
      · exact hfront c hc
    · rw [byteSize_append, ← Nat.add_assoc]
      exact hlaid

/-- A line break lies over a line break. -/
theorem break_inv (h : Laid offset text (t :: ts)) (hbreak : t.isLineBreak) :
    ∃ piece rest, text = piece ++ rest ∧ IsBreak piece rest ∧
      Laid (offset + byteSize piece) rest ts := by
  obtain ⟨piece, rest, rfl, -, hover, -, hrest⟩ := h.cons_inv
  have hkind : t.kind = .endOfLine := by simpa [isLineBreak] using hbreak
  refine ⟨piece, rest, rfl, ?_, hrest⟩
  simpa only [Over, hkind] using hover

/-- A comment lies over its own text. -/
theorem comment_inv (h : Laid offset text (t :: ts)) (hkind : t.kind = .comment) :
    ∃ rest, text = t.content.toList ++ rest ∧ t.span.start = offset := by
  obtain ⟨piece, rest, rfl, -, hover, hspan, -⟩ := h.cons_inv
  simp only [Over, hkind] at hover
  exact ⟨rest, by rw [hover.1], by rw [hspan]⟩

/-- Behind a comment comes a line break or nothing. -/
theorem isLineBreak_of_comment (h : Laid offset text (t :: u :: ts)) (hkind : t.kind = .comment) :
    u.isLineBreak := by
  obtain ⟨piece, rest, rfl, -, hover, -, hrest⟩ := h.cons_inv
  obtain ⟨next, rest, rfl, hne, hnext, -, -⟩ := hrest.cons_inv
  obtain ⟨c, cs, rfl⟩ := List.exists_cons_of_ne_nil hne
  simp only [Over, hkind] at hover
  exact hnext.isLineBreak_of_head rfl (hover.2.2 c rfl)

end Laid

/-! ## Joined operands -/

theorem kind_append {last : TokenKind} (ht : t.kind = .text ∨ t.kind = .quoted) :
    (append t last u).kind = .text ∨ (append t last u).kind = .quoted := by
  unfold append
  dsimp only
  split
  · exact .inr rfl
  · exact ht

/-- An operand and the next one with all between them lie over one stretch. -/
theorem Laid.join {last : TokenKind} {between : List Token}
    (h : Laid offset text (t :: (between ++ u :: ts)))
    (ht : t.kind = .text ∨ t.kind = .quoted) : Laid offset text (append t last u :: ts) := by
  obtain ⟨piece, rest, rfl, hne, hover, hspan, hrest⟩ := h.cons_inv
  obtain ⟨middle, fromNext, rfl, hnext⟩ := hrest.append_inv
  obtain ⟨piece', rest, rfl, -, -, hspan', hlast⟩ := hnext.cons_inv
  have hfirst : ∀ c ∈ piece.head?, Text.isLineBreak c = false := by
    rcases ht with hk | hk
    · simpa only [Over, hk] using hover
    · simpa only [Over, hk] using hover
  have hsize : offset + byteSize (piece ++ (middle ++ piece')) =
      offset + byteSize piece + byteSize middle + byteSize piece' := by
    simp only [byteSize_append]
    omega
  have hjoined : piece ++ (middle ++ (piece' ++ rest)) = (piece ++ (middle ++ piece')) ++ rest := by
    simp
  rw [hjoined]
  refine .cons (by simp [hne]) ?_ ?_ ?_
  · rw [← List.head?_append_of_ne_nil _ hne] at hfirst
    rcases @kind_append t u last ht with hk | hk
    · simpa only [Over, hk] using hfirst
    · simpa only [Over, hk] using hfirst
  · change Span.mk t.span.start u.span.stop = _
    rw [hspan, hspan', hsize]
  · rw [hsize]
    exact hlast

theorem laid_extend (chain : Token) (last : TokenKind) (ts : List Token)
    (hkind : chain.kind = .text ∨ chain.kind = .quoted) (h : Laid offset text (chain :: ts)) :
    Laid offset text ((extend chain last ts).1 :: (extend chain last ts).2) := by
  fun_induction extend chain last ts with
  | case1 chain last ts operand rest hnext _ ih =>
    obtain ⟨gap, plus, spacing, -, rfl⟩ := exists_bridge hnext
    have hlaid : Laid offset text (chain :: ((gap ++ plus :: spacing) ++ operand :: rest)) := by
      simpa using h
    exact ih (kind_append hkind) (hlaid.join hkind)
  | case2 => exact h

theorem laid_merge (h : Laid offset text ts) : Laid offset text (mergeConcatenations ts) := by
  induction hn : ts.length using Nat.strong_induction_on generalizing offset text ts with
  | _ n ih =>
    have hcons : ∀ (t : Token) (rest : List Token), rest.length < n →
        Laid offset text (t :: rest) → Laid offset text (t :: mergeConcatenations rest) := by
      intro t rest hlen ht
      obtain ⟨piece, after, rfl, hne, hover, hspan, hafter⟩ := ht.cons_inv
      exact .cons hne hover hspan (ih _ hlen hafter rfl)
    cases ts with
    | nil =>
      rw [mergeConcatenations]
      exact h
    | cons t ts =>
      rw [List.length_cons] at hn
      cases hop : t.isOperand with
      | true =>
        have hle := extend_length_le t t.kind ts
        rw [merge_operand hop]
        exact hcons _ _ (by omega) (laid_extend t t.kind ts (kind_of_isOperand hop) h)
      | false =>
        rw [merge_other hop]
        exact hcons t ts (by omega) h

theorem laid_lex (source : String) : Laid 0 source.toList (lex source) :=
  laid_merge (laid_ofLexemes (Lexeme.pieces_fuse_scan source.toList) 0)

end Token

end CampaignMarkup
