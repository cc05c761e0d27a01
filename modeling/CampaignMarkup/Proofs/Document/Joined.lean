import CampaignMarkup.Proofs.Document.Places

/-! # Definitions among joined operands

Operands that are joined take line breaks along, but behind a line break they take in, an operand
stands and no directive. So a definition is captured from the joined tokens as it would be from the
tokens that were joined. -/
namespace CampaignMarkup

open Token

theorem kind_extend {chain : Token} (last : TokenKind) (ts : List Token)
    (h : chain.kind = .text ∨ chain.kind = .quoted) :
    (extend chain last ts).1.kind = .text ∨ (extend chain last ts).1.kind = .quoted := by
  fun_induction extend chain last ts with
  | case1 chain last ts operand rest _ _ ih => exact ih (kind_append h)
  | case2 => exact h

theorem span_start_extend (chain : Token) (last : TokenKind) (ts : List Token) :
    (extend chain last ts).1.span.start = chain.span.start := by
  fun_induction extend chain last ts with
  | case1 chain last ts operand rest _ _ ih => exact ih
  | case2 => rfl

theorem extend_suffix (chain : Token) (last : TokenKind) (ts : List Token) :
    (extend chain last ts).2 <:+ ts := by
  fun_induction extend chain last ts with
  | case1 chain last ts operand rest hnext _ ih =>
    obtain ⟨gap, plus, spacing, -, rfl⟩ := exists_bridge hnext
    have hrest : rest <:+ gap ++ plus :: (spacing ++ operand :: rest) :=
      ⟨gap ++ plus :: (spacing ++ [operand]), by simp⟩
    exact ih.trans hrest
  | case2 => exact List.suffix_rfl

/-- The tokens from some token on are joined from those from some token on. -/
theorem exists_suffix_of_merge {ts us : List Token} (h : us <:+ mergeConcatenations ts) :
    ∃ rest, rest <:+ ts ∧ us = mergeConcatenations rest := by
  induction hn : ts.length using Nat.strong_induction_on generalizing ts with
  | _ n ih =>
    cases ts with
    | nil =>
      rw [mergeConcatenations] at h
      refine ⟨[], List.suffix_rfl, ?_⟩
      rw [List.suffix_nil.mp h, mergeConcatenations]
    | cons t ts =>
      rw [List.length_cons] at hn
      have hlater : ∀ {rest : List Token}, rest <:+ ts →
          (us = mergeConcatenations (t :: ts) ∨ us <:+ mergeConcatenations rest) →
          ∃ rest', rest' <:+ t :: ts ∧ us = mergeConcatenations rest' := by
        rintro rest hrest (rfl | hsuffix)
        · exact ⟨_, List.suffix_rfl, rfl⟩
        · have hle := hrest.length_le
          obtain ⟨rest', hrest', rfl⟩ := ih rest.length (by omega) hsuffix rfl
          exact ⟨rest', (hrest'.trans hrest).trans (List.suffix_cons t ts), rfl⟩
      cases hop : t.isOperand with
      | true =>
        refine hlater (extend_suffix t t.kind ts) ?_
        rw [merge_operand hop] at h ⊢
        exact List.suffix_cons_iff.mp h
      | false =>
        refine hlater List.suffix_rfl ?_
        rw [merge_other hop] at h ⊢
        exact List.suffix_cons_iff.mp h

theorem skipLineBreak_merge (ts : List Token) :
    skipLineBreak (mergeConcatenations ts) = mergeConcatenations (skipLineBreak ts) := by
  cases ts with
  | nil => rw [mergeConcatenations, skipLineBreak, mergeConcatenations]
  | cons t ts =>
    cases hop : t.isOperand with
    | true =>
      have hno : ∀ u : Token, u.kind = .text ∨ u.kind = .quoted → u.isLineBreak = false := by
        rintro u (hk | hk) <;> simp [isLineBreak, hk]
      rw [skipLineBreak, if_neg (by simp [hno t (kind_of_isOperand hop)]), merge_operand hop]
      have hchain := kind_extend t.kind ts (kind_of_isOperand hop)
      rw [skipLineBreak, if_neg (by simp [hno _ hchain])]
    | false =>
      rw [merge_other hop, skipLineBreak, skipLineBreak]
      split
      · rfl
      · rw [merge_other hop]

theorem offsetOf_merge (sourceEnd : Nat) (ts : List Token) :
    offsetOf sourceEnd (mergeConcatenations ts) = offsetOf sourceEnd ts := by
  cases ts with
  | nil => rw [mergeConcatenations]
  | cons t ts =>
    cases hop : t.isOperand with
    | true =>
      rw [merge_operand hop]
      exact span_start_extend t t.kind ts
    | false => rw [merge_other hop]; rfl

namespace Capture

variable (source : List Char) (lines : LineMap)

/-- White space and line breaks only bring a capture to the start of another line. -/
theorem read_spacing {spacing : List Token} (h : ∀ t ∈ spacing, t.isSpacing) (c : Capture)
    (rest : List Token) :
    ∃ lineBegin atLineStart, read source lines c (spacing ++ rest) =
      read source lines { c with lineBegin, atLineStart } rest := by
  induction spacing generalizing c with
  | nil => exact ⟨c.lineBegin, c.atLineStart, rfl⟩
  | cons t spacing ih =>
    obtain ⟨ht, hspacing⟩ := List.forall_mem_cons.mp h
    by_cases hbreak : t.kind = .endOfLine
    · rw [List.cons_append, read_endOfLine _ _ _ _ hbreak]
      exact ih hspacing _
    · have hgap : t.kind = .whitespace := by
        simpa [isSpacing, isWhitespace, isLineBreak, hbreak] using ht
      rw [List.cons_append, read_whitespace _ _ _ _ hgap]
      exact ih hspacing c

theorem read_operand {t : Token} (h : t.kind = .text ∨ t.kind = .quoted) (c : Capture)
    (rest : List Token) : read source lines c (t :: rest) = read source lines c.inLine rest := by
  apply read_other <;> rcases h with h | h <;> simp [h]

/-- The operands that a chain takes in leave a capture in the line. -/
theorem read_extend (chain : Token) (last : TokenKind) (c : Capture) (ts : List Token) :
    ∃ lineBegin, read source lines c.inLine ts =
      read source lines { c.inLine with lineBegin } (extend chain last ts).2 := by
  fun_induction extend chain last ts generalizing c with
  | case1 chain last ts operand rest hnext _ ih =>
    obtain ⟨gap, plus, spacing, hbridge, rfl⟩ := exists_bridge hnext
    have hgap : ∀ t ∈ gap, t.isSpacing :=
      fun t ht => by simp [isSpacing, hbridge.gap_isWhitespace t ht]
    obtain ⟨first, start, hfirst⟩ :=
      read_spacing source lines hgap c.inLine (plus :: (spacing ++ operand :: rest))
    have hplus := read_operand source lines (.inl (isPlus_iff.mp hbridge.isPlus).1)
      { c.inLine with lineBegin := first, atLineStart := start } (spacing ++ operand :: rest)
    obtain ⟨second, start', hsecond⟩ := read_spacing source lines hbridge.spacing_isSpacing
      { c.inLine with lineBegin := first } (operand :: rest)
    have hoperand := read_operand source lines (kind_of_isOperand hbridge.isOperand)
      { c.inLine with lineBegin := second, atLineStart := start' } rest
    obtain ⟨lineBegin, hlast⟩ := ih { c with lineBegin := second }
    refine ⟨lineBegin, ?_⟩
    rw [hfirst, hplus]
    refine hsecond.trans ?_
    rw [hoperand]
    exact hlast
  | case2 => exact ⟨c.lineBegin, rfl⟩

/-- What comes of reading a body, where the tokens behind it are taken for others. -/
def summary (f : List Token → List Token)
    (result : Except StructureError (Option (Capture × List Token))) :
    Except StructureError (Option (String × List (String × String) × List Token)) :=
  result.map (Option.map fun p => (p.1.body, p.1.defaults, f p.2))

/-- Where a line begins is of no matter once something stands in it. -/
def Alongside (c c' : Capture) : Prop :=
  ∃ lineBegin, c' = { c with lineBegin } ∧ (c.atLineStart → lineBegin = c.lineBegin)

namespace Alongside

variable {c c' : Capture}

theorem refl (c : Capture) : Alongside c c :=
  ⟨c.lineBegin, rfl, fun _ => rfl⟩

theorem inLine (c : Capture) (lineBegin : Nat) :
    Alongside c.inLine { c.inLine with lineBegin } := by
  refine ⟨lineBegin, rfl, fun h => ?_⟩
  cases h

theorem cutAt (h : Alongside c c') (t : Token) : c'.cutAt t = c.cutAt t := by
  obtain ⟨lineBegin, rfl, hline⟩ := h
  unfold Capture.cutAt
  by_cases hstart : c.atLineStart
  · rw [if_pos hstart, if_pos hstart]
    exact hline hstart
  · rw [if_neg hstart, if_neg hstart]

end Alongside

theorem close_lineBegin (c : Capture) (lineBegin cut : Nat) :
    ({ c with lineBegin } : Capture).close source cut = { c.close source cut with lineBegin } := by
  obtain ⟨body, defaults, openArg, cursor, _, atLineStart, depth⟩ := c
  cases openArg <;> rfl

/-- By induction on the tokens. Behind operands that are joined the line may begin elsewhere than it
did, but an operand stands in it then. -/
theorem read_merge {c c' : Capture} (h : Alongside c c') (ts : List Token) :
    summary id (read source lines c (mergeConcatenations ts)) =
      summary mergeConcatenations (read source lines c' ts) := by
  induction hn : ts.length using Nat.strong_induction_on generalizing c c' ts with
  | _ n ih =>
    cases ts with
    | nil =>
      rw [mergeConcatenations, read, read]
      rfl
    | cons t ts =>
      rw [List.length_cons] at hn
      have hcut := h.cutAt t
      obtain ⟨lineBegin, rfl, hline⟩ := h
      cases hop : t.isOperand with
      | true =>
        have hkind := kind_of_isOperand hop
        have hle := extend_length_le t t.kind ts
        obtain ⟨later, hlater⟩ := read_extend source lines t t.kind { c with lineBegin } ts
        rw [merge_operand hop, read_operand source lines (kind_extend _ _ hkind),
          read_operand source lines hkind, hlater]
        exact ih _ (by omega) (.inLine c later) _ rfl
      | false =>
        rw [merge_other hop]
        by_cases hbreak : t.kind = .endOfLine
        · rw [read_endOfLine _ _ _ _ hbreak, read_endOfLine _ _ _ _ hbreak]
          exact ih _ (by omega) (.refl _) _ rfl
        by_cases hgap : t.kind = .whitespace
        · rw [read_whitespace _ _ _ _ hgap, read_whitespace _ _ _ _ hgap]
          exact ih _ (by omega) ⟨lineBegin, rfl, hline⟩ _ rfl
        by_cases hcomment : t.kind = .comment
        · cases hd : Directive.ofComment? t.content with
          | none =>
            rw [read_remark _ _ _ _ hcomment hd, read_remark _ _ _ _ hcomment hd]
            exact ih _ (by omega) (.inLine c lineBegin) _ rfl
          | some d =>
            have hle := skipLineBreak_length_le ts
            have hturn : ({ c with lineBegin } : Capture).turn d.kind = c.turn d.kind := rfl
            rw [read_directive _ _ _ _ hcomment hd, read_directive _ _ _ _ hcomment hd, hcut,
              skipLineBreak_merge, hturn]
            dsimp only
            rw [offsetOf_merge]
            cases c.turn d.kind with
            | ignore => exact ih _ (by omega) (.inLine c lineBegin) _ rfl
            | nest =>
              exact ih _ (by omega) (.inLine { c with depth := c.depth + 1 } lineBegin) _ rfl
            | leave =>
              exact ih _ (by omega) (.inLine { c with depth := c.depth - 1 } lineBegin) _ rfl
            | finish =>
              dsimp only
              rw [close_lineBegin source c lineBegin]
              rfl
            | openArg =>
              dsimp only
              cases d.args.head? with
              | none => rfl
              | some name => exact ih _ (by omega) (.refl _) _ rfl
            | closeArg =>
              dsimp only
              rw [close_lineBegin source c lineBegin]
              exact ih _ (by omega) (.refl _) _ rfl
        · rw [read_other _ _ _ _ hbreak hgap hcomment, read_other _ _ _ _ hbreak hgap hcomment]
          exact ih _ (by omega) (.inLine c lineBegin) _ rfl

/-- A definition is captured from the joined tokens as from the tokens that were joined. -/
theorem block_merge (header : Directive) (docs : List String) (line : Nat) (ts : List Token) :
    block source lines header docs line (mergeConcatenations ts) =
      (block source lines header docs line ts).map fun p => (p.1, mergeConcatenations p.2) := by
  have hread := read_merge source lines (.refl (begin (offsetOf (Chars.byteSize source) ts))) ts
  rw [block, block, offsetOf_merge]
  revert hread
  generalize read source lines _ (mergeConcatenations ts) = joined
  generalize read source lines _ ts = single
  intro hread
  rcases joined with e | (_ | ⟨c, rest⟩) <;> rcases single with e' | (_ | ⟨c', rest'⟩) <;>
    simp_all [summary, Except.map]

end Capture

end CampaignMarkup
