import CampaignMarkup.Token.Concatenation
import Mathlib.Data.List.Chain
import Mathlib.Data.List.Forall2
import Mathlib.Data.List.TakeWhile

/-! # What a chain takes in

A chain goes on over a `+` and the spacing around it, and it ends where nothing of the sort follows.
Where no chain can go on, joining leaves the tokens as they are. -/
namespace CampaignMarkup

namespace Token

theorem isPlus_iff {t : Token} : t.isPlus ↔ t.kind = .text ∧ t.content = "+" := by
  simp [isPlus]

theorem isWhitespace_eq_false_of_isPlus {t : Token} (h : t.isPlus) : t.isWhitespace = false := by
  simp [isWhitespace, (isPlus_iff.mp h).1]

theorem isOperand_eq_false_of_isPlus {t : Token} (h : t.isPlus) : t.isOperand = false := by
  simp [isOperand, (isPlus_iff.mp h).1, h]

theorem kind_of_isOperand {t : Token} (h : t.isOperand) : t.kind = .text ∨ t.kind = .quoted := by
  unfold isOperand at h
  split at h
  · next hk => exact .inr hk
  · next hk => exact .inl hk
  · cases h

theorem isSpacing_eq_false_of_isOperand {t : Token} (h : t.isOperand) : t.isSpacing = false := by
  rcases kind_of_isOperand h with hk | hk <;> simp [isSpacing, isWhitespace, isLineBreak, hk]

/-- The way from the end of a chain to its next operand. -/
structure Bridge (gap : List Token) (plus : Token) (spacing : List Token) (operand : Token) :
    Prop where
  gap_isWhitespace : ∀ t ∈ gap, t.isWhitespace
  isPlus : plus.isPlus
  spacing_isSpacing : ∀ t ∈ spacing, t.isSpacing
  isOperand : operand.isOperand

theorem Bridge.nextOperand?_eq {gap spacing : List Token} {plus operand : Token}
    (h : Bridge gap plus spacing operand) (rest : List Token) :
    nextOperand? (gap ++ plus :: (spacing ++ operand :: rest)) = some (operand, rest) := by
  have hplus := isWhitespace_eq_false_of_isPlus h.isPlus
  have hoperand := isSpacing_eq_false_of_isOperand h.isOperand
  rw [nextOperand?, List.dropWhile_append_of_pos h.gap_isWhitespace]
  simp only [List.dropWhile_cons, hplus, h.isPlus, if_true, Bool.false_eq_true, if_false]
  rw [List.dropWhile_append_of_pos h.spacing_isSpacing]
  simp only [List.dropWhile_cons, hoperand, h.isOperand, if_true, Bool.false_eq_true, if_false]

theorem exists_bridge {tokens rest : List Token} {operand : Token}
    (h : nextOperand? tokens = some (operand, rest)) : ∃ gap plus spacing,
      Bridge gap plus spacing operand ∧ tokens = gap ++ plus :: (spacing ++ operand :: rest) := by
  unfold nextOperand? at h
  split at h
  next plus afterPlus hplus =>
    split at h
    next hp =>
      split at h
      next op more hop =>
        split at h
        next ho =>
          cases h
          refine ⟨tokens.takeWhile isWhitespace, plus, afterPlus.takeWhile isSpacing,
            ⟨fun t ht => List.mem_takeWhile_imp ht, hp, fun t ht => List.mem_takeWhile_imp ht, ho⟩,
            ?_⟩
          rw [← hop, List.takeWhile_append_dropWhile, ← hplus, List.takeWhile_append_dropWhile]
        next => cases h
      next => cases h
    next => cases h
  next => cases h

/-- Whether an operand comes behind the spacing. -/
def operandAhead (tokens : List Token) : Bool :=
  (tokens.dropWhile isSpacing).head?.any isOperand

theorem nextOperand?_whitespace {t : Token} (h : t.isWhitespace) (ts : List Token) :
    nextOperand? (t :: ts) = nextOperand? ts := by
  rw [nextOperand?, nextOperand?, List.dropWhile_cons_of_pos h]

theorem isSome_nextOperand?_plus {t : Token} (h : t.isPlus) (ts : List Token) :
    (nextOperand? (t :: ts)).isSome = operandAhead ts := by
  have hgap := isWhitespace_eq_false_of_isPlus h
  rw [nextOperand?, operandAhead, List.dropWhile_cons_of_neg (by simp [hgap])]
  simp only [h, if_true]
  cases ts.dropWhile isSpacing with
  | nil => rfl
  | cons u us => cases hu : u.isOperand <;> simp [hu]

theorem nextOperand?_other {t : Token} (hgap : t.isWhitespace = false) (hplus : t.isPlus = false)
    (ts : List Token) : nextOperand? (t :: ts) = none := by
  rw [nextOperand?, List.dropWhile_cons_of_neg (by simp [hgap])]
  simp [hplus]

theorem operandAhead_spacing {t : Token} (h : t.isSpacing) (ts : List Token) :
    operandAhead (t :: ts) = operandAhead ts := by
  rw [operandAhead, operandAhead, List.dropWhile_cons_of_pos h]

theorem operandAhead_other {t : Token} (h : t.isSpacing = false) (ts : List Token) :
    operandAhead (t :: ts) = t.isOperand := by
  rw [operandAhead, List.dropWhile_cons_of_neg (by simp [h])]
  rfl

theorem extend_of_none {chain : Token} {last : TokenKind} {ts : List Token}
    (h : nextOperand? ts = none) : extend chain last ts = (chain, ts) := by
  unfold extend
  split
  · next hsome =>
    rw [h] at hsome
    cases hsome
  · rfl

theorem extend_of_some {chain operand : Token} {last : TokenKind} {ts rest : List Token}
    (h : nextOperand? ts = some (operand, rest)) :
    extend chain last ts = extend (append chain last operand) operand.kind rest := by
  rw [extend]
  split
  · next hsome =>
    rw [h] at hsome
    cases hsome
    rfl
  · next hnone =>
    rw [h] at hnone
    cases hnone

/-- No chain can go on anywhere. -/
def Settled : List Token → Prop
  | [] => True
  | t :: ts => (t.isOperand → nextOperand? ts = none) ∧ Settled ts

end Token

open Token

theorem merge_operand {t : Token} (h : t.isOperand) (ts : List Token) :
    mergeConcatenations (t :: ts) =
      (extend t t.kind ts).1 :: mergeConcatenations (extend t t.kind ts).2 := by
  rw [mergeConcatenations, if_pos h]

theorem merge_other {t : Token} (h : t.isOperand = false) (ts : List Token) :
    mergeConcatenations (t :: ts) = t :: mergeConcatenations ts := by
  rw [mergeConcatenations, if_neg (by simp [h])]

theorem merge_of_settled {ts : List Token} (h : Settled ts) : mergeConcatenations ts = ts := by
  induction ts with
  | nil => rw [mergeConcatenations]
  | cons t ts ih =>
    obtain ⟨ht, hts⟩ := h
    cases hop : t.isOperand with
    | true => rw [merge_operand hop, extend_of_none (ht hop), ih hts]
    | false => rw [merge_other hop, ih hts]

/-! ## Two lists joined in step -/

namespace Token

/-- Joining cannot tell the tokens apart. -/
structure Alike (a b : Token) : Prop where
  kind : a.kind = b.kind
  isPlus : a.isPlus = b.isPlus

namespace Alike

variable {a b : Token}

theorem symm (h : Alike a b) : Alike b a :=
  ⟨h.kind.symm, h.isPlus.symm⟩

theorem isOperand (h : Alike a b) : a.isOperand = b.isOperand := by
  rw [Token.isOperand, Token.isOperand, h.kind, h.isPlus]

theorem isWhitespace (h : Alike a b) : a.isWhitespace = b.isWhitespace := by
  rw [Token.isWhitespace, Token.isWhitespace, h.kind]

theorem isSpacing (h : Alike a b) : a.isSpacing = b.isSpacing := by
  rw [Token.isSpacing, Token.isSpacing, h.isWhitespace, isLineBreak, isLineBreak, h.kind]

end Alike

section Related

variable {R : Token → Token → Prop} {as bs : List Token}

theorem forall₂_split {cs : List Token} (h : List.Forall₂ R (as ++ cs) bs) :
    ∃ as' cs', bs = as' ++ cs' ∧ List.Forall₂ R as as' ∧ List.Forall₂ R cs cs' := by
  induction as generalizing bs with
  | nil => exact ⟨[], bs, rfl, .nil, h⟩
  | cons a as ih =>
    obtain ⟨b, bs, hab, hrest, rfl⟩ := List.forall₂_cons_left_iff.mp h
    obtain ⟨as', cs', rfl, has, hcs⟩ := ih hrest
    exact ⟨b :: as', cs', rfl, .cons hab has, hcs⟩

theorem forall_mem_of_forall₂ {p : Token → Bool} (hp : ∀ a b, R a b → p a = p b)
    (h : List.Forall₂ R as bs) (has : ∀ t ∈ as, p t) : ∀ t ∈ bs, p t := by
  induction h with
  | nil => simp
  | cons hab _ ih =>
    obtain ⟨ha, has⟩ := List.forall_mem_cons.mp has
    exact List.forall_mem_cons.mpr ⟨hp _ _ hab ▸ ha, ih has⟩

/-- Where a chain goes on, a like one goes on with a related operand. -/
theorem exists_nextOperand? (hR : ∀ a b, R a b → Alike a b) (h : List.Forall₂ R as bs) {x : Token}
    {rest : List Token} (hnext : nextOperand? as = some (x, rest)) :
    ∃ between between' y rest', as = between ++ x :: rest ∧ List.Forall₂ R between between' ∧
      R x y ∧ List.Forall₂ R rest rest' ∧ (∀ t ∈ between, t.isSpacing ∨ t.isPlus) ∧ x.isOperand ∧
      nextOperand? bs = some (y, rest') := by
  obtain ⟨gap, plus, spacing, hbridge, rfl⟩ := exists_bridge hnext
  obtain ⟨gap', _, rfl, hgap, hfromPlus⟩ := forall₂_split h
  obtain ⟨plus', _, hplus, hafterPlus, rfl⟩ := List.forall₂_cons_left_iff.mp hfromPlus
  obtain ⟨spacing', _, rfl, hspacing, hfromOperand⟩ := forall₂_split hafterPlus
  obtain ⟨y, rest', hxy, hrest, rfl⟩ := List.forall₂_cons_left_iff.mp hfromOperand
  have hbridge' : Bridge gap' plus' spacing' y :=
    ⟨forall_mem_of_forall₂ (fun a b hab => (hR a b hab).isWhitespace) hgap
        hbridge.gap_isWhitespace,
      (hR _ _ hplus).isPlus ▸ hbridge.isPlus,
      forall_mem_of_forall₂ (fun a b hab => (hR a b hab).isSpacing) hspacing
        hbridge.spacing_isSpacing,
      (hR _ _ hxy).isOperand ▸ hbridge.isOperand⟩
  refine ⟨gap ++ plus :: spacing, gap' ++ plus' :: spacing', y, rest', by simp,
    List.rel_append hgap (.cons hplus hspacing), hxy, hrest, ?_, hbridge.isOperand,
    hbridge'.nextOperand?_eq rest'⟩
  intro t ht
  rcases List.mem_append.mp ht with ht | ht
  · exact .inl (by simp [isSpacing, hbridge.gap_isWhitespace t ht])
  · rcases List.mem_cons.mp ht with rfl | ht
    · exact .inr hbridge.isPlus
    · exact .inl (hbridge.spacing_isSpacing t ht)

theorem nextOperand?_eq_none (hR : ∀ a b, R a b → Alike a b) (h : List.Forall₂ R as bs)
    (hnext : nextOperand? as = none) : nextOperand? bs = none := by
  cases hq : nextOperand? bs with
  | none => rfl
  | some q =>
    have hflip : ∀ b a, flip R b a → Alike b a := fun b a hab => (hR a b hab).symm
    obtain ⟨-, -, y, rest, -, -, -, -, -, -, hsome⟩ :=
      exists_nextOperand? hflip (List.Forall₂.flip (R := flip R) h) hq
    rw [hnext] at hsome
    cases hsome

end Related

/-- A relation that joining respects, where neighbours in the first list are as `C` has it. -/
structure Joinable (C R : Token → Token → Prop) : Prop where
  alike : ∀ a b, R a b → Alike a b
  neighbour : ∀ {a x r last}, C x r → C (append a last x) r
  append : ∀ {a b x y between between' last}, R a b → List.Forall₂ R between between' → R x y →
    (a :: (between ++ [x])).IsChain C → a.kind = .text ∨ a.kind = .quoted →
    (∀ t ∈ between, t.isSpacing ∨ t.isPlus) → x.isOperand → R (append a last x) (append b last y)

namespace Joinable

variable {C R : Token → Token → Prop} {as bs : List Token}

theorem isChain_append (hR : Joinable C R) {a x : Token} {last : TokenKind}
    {between rest : List Token} (h : (a :: (between ++ x :: rest)).IsChain C) :
    (a :: (between ++ [x])).IsChain C ∧ (Token.append a last x :: rest).IsChain C := by
  have hsplit : (a :: (between ++ [x]) ++ rest).IsChain C := by simpa using h
  have hlast : (a :: (between ++ [x])).getLast? = some x := by
    rw [← List.cons_append, List.getLast?_concat]
  obtain ⟨hfront, hrest, hjoin⟩ := List.isChain_append.mp hsplit
  refine ⟨hfront, List.isChain_cons.mpr ⟨fun r hr => hR.neighbour ?_, hrest⟩⟩
  exact hjoin x hlast r hr

theorem extend_related (hR : Joinable C R) {a b : Token} {last : TokenKind} (hab : R a b)
    (hkind : a.kind = .text ∨ a.kind = .quoted) (hchain : (a :: as).IsChain C)
    (h : List.Forall₂ R as bs) :
    R (extend a last as).1 (extend b last bs).1 ∧
      List.Forall₂ R (extend a last as).2 (extend b last bs).2 ∧
      (extend a last as).2.IsChain C := by
  fun_induction extend a last as generalizing b bs with
  | case1 a last as x rest hnext _ ih =>
    obtain ⟨between, between', y, rest', rfl, hbetween, hxy, hrest, hskip, hoperand, hnext'⟩ :=
      exists_nextOperand? hR.alike h hnext
    obtain ⟨hfront, hback⟩ := hR.isChain_append hchain
    have hkind' :
        (Token.append a last x).kind = .text ∨ (Token.append a last x).kind = .quoted := by
      by_cases hx : x.kind = .quoted
      · exact .inr (if_pos hx)
      · have hsame : (Token.append a last x).kind = a.kind := if_neg hx
        rwa [hsame]
    rw [extend_of_some hnext', ← (hR.alike x y hxy).kind]
    exact ih (hR.append hab hbetween hxy hfront hkind hskip hoperand) hkind' hback hrest
  | case2 a last as hnext =>
    rw [extend_of_none (nextOperand?_eq_none hR.alike h hnext)]
    exact ⟨hab, h, (List.isChain_cons.mp hchain).2⟩

/-- Related tokens are joined in the same places, into related tokens. -/
theorem merge_related (hR : Joinable C R) (hchain : as.IsChain C) (h : List.Forall₂ R as bs) :
    List.Forall₂ R (mergeConcatenations as) (mergeConcatenations bs) := by
  induction hn : as.length using Nat.strong_induction_on generalizing as bs with
  | _ n ih =>
    cases h with
    | nil => rw [mergeConcatenations]; exact .nil
    | @cons a b as bs hab hrest =>
      rw [List.length_cons] at hn
      have hlike := hR.alike a b hab
      cases hop : a.isOperand with
      | true =>
        have hle := extend_length_le a a.kind as
        obtain ⟨hjoined, hafter, hleft⟩ :=
          hR.extend_related hab (kind_of_isOperand hop) hchain hrest
        rw [merge_operand hop, merge_operand (hlike.isOperand ▸ hop), ← hlike.kind]
        exact .cons hjoined (ih _ (by omega) hleft hafter rfl)
      | false =>
        rw [merge_other hop, merge_other (hlike.isOperand ▸ hop)]
        exact .cons hab (ih _ (by omega) (List.isChain_cons.mp hchain).2 hrest rfl)

end Joinable

end Token

end CampaignMarkup
