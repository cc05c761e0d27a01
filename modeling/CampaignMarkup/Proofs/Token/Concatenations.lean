import CampaignMarkup.Proofs.Token.Joins

/-! # Each maximal chain becomes one token

A list of tokens is cut into the chains that reach as far as they can and the tokens that are no
operands. Joining puts one token in the place of each such chain and leaves the others as they are,
and in what comes out nothing is left to join. -/
namespace CampaignMarkup

namespace Token

/-- A `+` between its spacing, and the operand behind it. -/
structure Bond where
  gap : List Token
  plus : Token
  spacing : List Token
  operand : Token
  bridge : Bridge gap plus spacing operand

namespace Bond

def tokens (b : Bond) : List Token :=
  b.gap ++ b.plus :: (b.spacing ++ [b.operand])

theorem tokens_append (b : Bond) (rest : List Token) :
    b.tokens ++ rest = b.gap ++ b.plus :: (b.spacing ++ b.operand :: rest) := by
  simp [tokens]

theorem nextOperand?_eq (b : Bond) (rest : List Token) :
    nextOperand? (b.tokens ++ rest) = some (b.operand, rest) := by
  rw [tokens_append]
  exact b.bridge.nextOperand?_eq rest

theorem length_tokens (b : Bond) : 2 ≤ b.tokens.length := by
  simp [tokens]
  omega

/-- What stands in front of the operand. -/
def sign (b : Bond) : List Token :=
  b.gap ++ b.plus :: b.spacing

theorem tokens_eq (b : Bond) : b.tokens = b.sign ++ [b.operand] := by
  simp [tokens, sign]

theorem isOperand_of_mem_sign {b : Bond} {t : Token} (h : t ∈ b.sign) : t.isOperand = false := by
  by_contra hop
  have hop : t.isOperand = true := by simpa using hop
  have hspacing := isSpacing_eq_false_of_isOperand hop
  rcases List.mem_append.mp h with hgap | h
  · simp [isSpacing, b.bridge.gap_isWhitespace t hgap] at hspacing
  · rcases List.mem_cons.mp h with rfl | h
    · rw [isOperand_eq_false_of_isPlus b.bridge.isPlus] at hop
      cases hop
    · rw [b.bridge.spacing_isSpacing t h] at hspacing
      cases hspacing

theorem takeWhile_tokens (b : Bond) : b.tokens.takeWhile isWhitespace = b.gap := by
  have hplus := isWhitespace_eq_false_of_isPlus b.bridge.isPlus
  rw [tokens, List.takeWhile_append_of_pos b.bridge.gap_isWhitespace,
    List.takeWhile_cons_of_neg (by simp [hplus]), List.append_nil]

/-- A bond is read in one way. -/
theorem tokens_inj {b b' : Bond} {rest rest' : List Token}
    (h : b.tokens ++ rest = b'.tokens ++ rest') : b = b' ∧ rest = rest' := by
  have hnext := b.nextOperand?_eq rest
  rw [h, b'.nextOperand?_eq] at hnext
  obtain ⟨hoperand, hrest⟩ := Prod.mk.inj (Option.some.inj hnext)
  subst hrest
  have htokens := List.append_cancel_right h
  have hgap : b.gap = b'.gap := by
    rw [← b.takeWhile_tokens, ← b'.takeWhile_tokens, htokens]
  rw [tokens, tokens, hgap] at htokens
  obtain ⟨hplus, hspacing⟩ := List.cons.inj (List.append_cancel_left htokens)
  obtain ⟨gap, plus, spacing, operand, _⟩ := b
  obtain ⟨gap', plus', spacing', operand', _⟩ := b'
  obtain rfl : gap = gap' := hgap
  obtain rfl : plus = plus' := hplus
  obtain rfl : operand' = operand := hoperand
  obtain rfl : spacing = spacing' := List.append_cancel_right hspacing
  exact ⟨rfl, rfl⟩

end Bond

theorem nextOperand?_eq_none_iff {ts : List Token} :
    nextOperand? ts = none ↔ ∀ (b : Bond) (rest : List Token), ts ≠ b.tokens ++ rest := by
  constructor
  · rintro h b rest rfl
    rw [b.nextOperand?_eq] at h
    cases h
  · intro h
    cases hnext : nextOperand? ts with
    | none => rfl
    | some next =>
      obtain ⟨operand, rest⟩ := next
      obtain ⟨gap, plus, spacing, hbridge, heq⟩ := exists_bridge hnext
      exact absurd (heq.trans (Bond.tokens_append ⟨_, _, _, _, hbridge⟩ rest).symm) (h _ _)

theorem exists_bonds (ts : List Token) :
    ∃ (bonds : List Bond) (rest : List Token),
      ts = bonds.flatMap Bond.tokens ++ rest ∧ nextOperand? rest = none := by
  induction hn : ts.length using Nat.strong_induction_on generalizing ts with
  | _ n ih =>
    cases hnext : nextOperand? ts with
    | none => exact ⟨[], ts, rfl, hnext⟩
    | some next =>
      obtain ⟨operand, after⟩ := next
      have hlt := nextOperand?_length_lt hnext
      obtain ⟨gap, plus, spacing, hbridge, rfl⟩ := exists_bridge hnext
      obtain ⟨bonds, rest, rfl, hrest⟩ := ih after.length (hn ▸ hlt) after rfl
      refine ⟨⟨gap, plus, spacing, operand, hbridge⟩ :: bonds, rest, ?_, hrest⟩
      rw [← Bond.tokens_append ⟨gap, plus, spacing, operand, hbridge⟩, List.flatMap_cons,
        List.append_assoc]

/-- Bonds that no further one follows are read in one way. -/
theorem bonds_inj {bonds bonds' : List Bond} {rest rest' : List Token}
    (hrest : nextOperand? rest = none) (hrest' : nextOperand? rest' = none)
    (h : bonds.flatMap Bond.tokens ++ rest = bonds'.flatMap Bond.tokens ++ rest') :
    bonds = bonds' ∧ rest = rest' := by
  induction bonds generalizing bonds' with
  | nil =>
    cases bonds' with
    | nil => exact ⟨rfl, h⟩
    | cons b' bonds' =>
      rw [List.flatMap_cons, List.append_assoc] at h
      exact absurd h (nextOperand?_eq_none_iff.mp hrest b' _)
  | cons b bonds ih =>
    cases bonds' with
    | nil =>
      rw [List.flatMap_cons, List.append_assoc] at h
      exact absurd h.symm (nextOperand?_eq_none_iff.mp hrest' b _)
    | cons b' bonds' =>
      simp only [List.flatMap_cons, List.append_assoc] at h
      obtain ⟨rfl, hmore⟩ := Bond.tokens_inj h
      obtain ⟨rfl, rfl⟩ := ih hmore
      exact ⟨rfl, rfl⟩

/-- An operand among bonds is the one that one of them ends with. -/
theorem exists_bonds_of_operand {bonds : List Bond} {front back : List Token} {t : Token}
    (ht : t.isOperand) (h : bonds.flatMap Bond.tokens = front ++ t :: back) :
    ∃ done todo, bonds = done ++ todo ∧ front ++ [t] = done.flatMap Bond.tokens ∧
      back = todo.flatMap Bond.tokens := by
  induction bonds generalizing front with
  | nil => simp at h
  | cons b bonds ih =>
    have hnot : t ∉ b.sign := by
      intro hmem
      rw [Bond.isOperand_of_mem_sign hmem] at ht
      cases ht
    rw [List.flatMap_cons, Bond.tokens_eq, List.append_assoc, List.singleton_append] at h
    obtain ⟨more, rfl, hmore⟩ | ⟨more, hsign, hmore⟩ := List.append_eq_append_iff.mp h
    · cases more with
      | nil =>
        obtain ⟨rfl, rfl⟩ := List.cons.inj hmore
        exact ⟨[b], bonds, rfl, by simp [Bond.tokens_eq], rfl⟩
      | cons u more =>
        obtain ⟨rfl, hbonds⟩ := List.cons.inj hmore
        obtain ⟨done, todo, rfl, hdone, rfl⟩ := ih hbonds
        refine ⟨b :: done, todo, rfl, ?_, rfl⟩
        simp [Bond.tokens_eq, ← hdone]
    · cases more with
      | nil =>
        obtain ⟨rfl, rfl⟩ := List.cons.inj hmore
        refine ⟨[b], bonds, rfl, ?_, rfl⟩
        simp [Bond.tokens_eq, hsign]
      | cons u more =>
        obtain ⟨rfl, -⟩ := List.cons.inj hmore
        exact absurd (hsign ▸ by simp) hnot

/-- Operands with nothing but bonds between them. -/
structure Concatenation where
  first : Token
  bonds : List Bond
  first_isOperand : first.isOperand

/-- What the operands behind `t` say, each after a blank where it and the one before it are both
texts. -/
def continued (t : Token) : List Token → String
  | [] => ""
  | u :: us => (if t.kind = .text ∧ u.kind = .text then " " else "") ++ u.content ++ continued u us

namespace Concatenation

def tokens (c : Concatenation) : List Token :=
  c.first :: c.bonds.flatMap Bond.tokens

def operands (c : Concatenation) : List Token :=
  c.first :: c.bonds.map Bond.operand

/-- The one token that stands for all operands. -/
def joined (c : Concatenation) : Token where
  kind := if c.operands.any (·.kind = .quoted) then .quoted else .text
  content := c.first.content ++ continued c.first (c.bonds.map Bond.operand)
  span := ⟨c.first.span.start, (c.operands.getLast (List.cons_ne_nil _ _)).span.stop⟩

/-- Between these tokens the chain cannot be made longer at either end. -/
structure Maximal (before : List Token) (c : Concatenation) (after : List Token) : Prop where
  left : ∀ (front : List Token) (t : Token) (b : Bond), t.isOperand →
    before ++ [c.first] ≠ front ++ t :: b.tokens
  right : ∀ (b : Bond) (back : List Token), after ≠ b.tokens ++ back

/-- Up to one of its operands, and behind it, a chain is made of bonds. -/
theorem exists_split {c : Concatenation} {front back : List Token} {t : Token} (ht : t.isOperand)
    (h : c.tokens = front ++ t :: back) : ∃ done todo, c.bonds = done ++ todo ∧
      front ++ [t] = c.first :: done.flatMap Bond.tokens ∧ back = todo.flatMap Bond.tokens := by
  cases front with
  | nil =>
    obtain ⟨rfl, rfl⟩ := List.cons.inj h
    exact ⟨[], c.bonds, rfl, rfl, rfl⟩
  | cons u front =>
    obtain ⟨rfl, hbonds⟩ := List.cons.inj h
    obtain ⟨done, todo, heq, hdone, hback⟩ := exists_bonds_of_operand ht hbonds
    exact ⟨done, todo, heq, congrArg (c.first :: ·) hdone, hback⟩

/-- Bonds that follow an operand follow the operand of the last of them. -/
theorem exists_last_operand {t : Token} (ht : t.isOperand) (bonds : List Bond) :
    ∃ front u, t :: bonds.flatMap Bond.tokens = front ++ [u] ∧ u.isOperand := by
  induction bonds using List.reverseRecOn with
  | nil => exact ⟨[], t, rfl, ht⟩
  | append_singleton bonds b _ =>
    refine ⟨t :: (bonds.flatMap Bond.tokens ++ b.sign), b.operand, ?_, b.bridge.isOperand⟩
    simp [Bond.tokens_eq]

end Concatenation

/-! ## The joined token -/

theorem extend_bonds (chain t : Token) (hstop : chain.span.stop = t.span.stop) (bonds : List Bond)
    {rest : List Token} (hrest : nextOperand? rest = none) :
    extend chain t.kind (bonds.flatMap Bond.tokens ++ rest) =
      (⟨if (bonds.map Bond.operand).any (·.kind = .quoted) then .quoted else chain.kind,
        chain.content ++ continued t (bonds.map Bond.operand),
        ⟨chain.span.start,
          ((t :: bonds.map Bond.operand).getLast (List.cons_ne_nil _ _)).span.stop⟩⟩, rest) := by
  induction bonds generalizing chain t with
  | nil =>
    obtain ⟨kind, content, start, stop⟩ := chain
    obtain rfl : stop = t.span.stop := hstop
    rw [List.flatMap_nil, List.nil_append, extend_of_none hrest]
    simp [continued]
  | cons b bonds ih =>
    rw [List.flatMap_cons, List.append_assoc, extend_of_some (b.nextOperand?_eq _),
      ih (append chain t.kind b.operand) b.operand rfl]
    by_cases hkind : b.operand.kind = .quoted
    · simp [append, continued, hkind, String.append_assoc]
    · by_cases hspace : t.kind = .text ∧ b.operand.kind = .text
      · simp [append, continued, hspace, String.append_assoc]
      · simp [append, continued, hkind, hspace, String.append_assoc]

namespace Concatenation

theorem extend_first (c : Concatenation) {rest : List Token} (hrest : nextOperand? rest = none) :
    extend c.first c.first.kind (c.bonds.flatMap Bond.tokens ++ rest) = (c.joined, rest) := by
  rw [extend_bonds c.first c.first rfl c.bonds hrest]
  rcases kind_of_isOperand c.first_isOperand with hkind | hkind <;> simp [joined, operands, hkind]

theorem joined_alone {t : Token} (h : t.isOperand) :
    (⟨t, [], h⟩ : Concatenation).joined = t := by
  obtain ⟨kind, content, span⟩ := t
  rcases kind_of_isOperand h with rfl | rfl <;> simp [joined, operands, continued]

theorem kind_of_mem {c : Concatenation} {t : Token} (ht : t ∈ c.operands) :
    t.kind = .text ∨ t.kind = .quoted := by
  rcases List.mem_cons.mp ht with rfl | ht
  · exact kind_of_isOperand c.first_isOperand
  · obtain ⟨b, -, rfl⟩ := List.mem_map.mp ht
    exact kind_of_isOperand b.bridge.isOperand

/-- Two texts have a blank between them, so no text that was joined is a bare `+`. -/
theorem content_joined_ne_plus {c : Concatenation} (h : ∀ t ∈ c.operands, t.kind = .text) :
    c.joined.content ≠ "+" := by
  obtain ⟨first, bonds, hfirst⟩ := c
  have htext : first.kind = .text := h first List.mem_cons_self
  cases bonds with
  | nil => simpa [isOperand, htext, isPlus, joined, continued] using hfirst
  | cons b bonds =>
    have hnext : b.operand.kind = .text := h b.operand (by simp [operands])
    intro hplus
    have hblank : ' ' ∈ "+".toList := by
      rw [← hplus]
      simp [joined, continued, htext, hnext]
    exact absurd hblank (by decide)

/-- A joined token is an operand again. -/
theorem isOperand_joined (c : Concatenation) : c.joined.isOperand := by
  by_cases hquoted : c.operands.any (·.kind = .quoted)
  · have hkind : c.joined.kind = .quoted := if_pos hquoted
    simp [isOperand, hkind]
  · have hkind : c.joined.kind = .text := if_neg hquoted
    have htext : ∀ t ∈ c.operands, t.kind = .text := by
      intro t ht
      refine (kind_of_mem ht).resolve_right fun hq => hquoted ?_
      exact List.any_eq_true.mpr ⟨t, ht, by simp [hq]⟩
    simp [isOperand, hkind, isPlus, content_joined_ne_plus htext]

end Concatenation

/-! ## The parts of a list -/

/-- A token that is no operand, or a chain. -/
inductive Part where
  | other (t : Token) (h : t.isOperand = false)
  | chain (c : Concatenation)

namespace Part

def tokens : Part → List Token
  | .other t _ => [t]
  | .chain c => c.tokens

/-- The token that stands for the part. -/
def token : Part → Token
  | .other t _ => t
  | .chain c => c.joined

theorem tokens_of_not_operand {p : Part} (h : p.token.isOperand = false) :
    p.tokens = [p.token] := by
  cases p with
  | other t ht => rfl
  | chain c =>
    have hop : c.joined.isOperand = false := h
    rw [c.isOperand_joined] at hop
    cases hop

theorem exists_chain {p : Part} (h : p.token.isOperand) : ∃ c, p = .chain c := by
  cases p with
  | other t ht =>
    have hop : t.isOperand = true := h
    rw [ht] at hop
    cases hop
  | chain c => exact ⟨c, rfl⟩

end Part

/-- The tokens of a list of parts. -/
def flat (ps : List Part) : List Token :=
  ps.flatMap Part.tokens

@[simp] theorem flat_nil : flat [] = [] := rfl

@[simp] theorem flat_other {t : Token} (h : t.isOperand = false) (ps : List Part) :
    flat (.other t h :: ps) = t :: flat ps := rfl

@[simp] theorem flat_chain (c : Concatenation) (ps : List Part) :
    flat (.chain c :: ps) = c.tokens ++ flat ps := rfl

theorem flat_append (ps qs : List Part) : flat (ps ++ qs) = flat ps ++ flat qs :=
  List.flatMap_append

/-- No chain goes on behind its end. -/
def Ended : List Part → Prop
  | [] => True
  | .other _ _ :: ps => Ended ps
  | .chain _ :: ps => nextOperand? (flat ps) = none ∧ Ended ps

theorem Ended.of_append {ps qs : List Part} (h : Ended (ps ++ qs)) : Ended qs := by
  induction ps with
  | nil => exact h
  | cons p ps ih =>
    cases p with
    | other t ht => exact ih h
    | chain c => exact ih h.2

theorem Ended.right {ps qs : List Part} {c : Concatenation} (h : Ended (ps ++ .chain c :: qs))
    (b : Bond) (back : List Token) : flat qs ≠ b.tokens ++ back :=
  nextOperand?_eq_none_iff.mp h.of_append.1 b back

/-- Where a chain begins no operand is bonded to it: that operand would stand in a part before, and
the bond would lead out of it. -/
theorem Ended.left {ps qs : List Part} {c : Concatenation} (h : Ended (ps ++ .chain c :: qs))
    (front : List Token) (t : Token) (b : Bond) (ht : t.isOperand) :
    flat ps ++ [c.first] ≠ front ++ t :: b.tokens := by
  induction ps generalizing front with
  | nil =>
    intro heq
    have hlength := congrArg List.length heq
    have hlong := b.length_tokens
    simp at hlength
    omega
  | cons p ps ih =>
    cases p with
    | other u hu =>
      intro heq
      cases front with
      | nil =>
        obtain ⟨rfl, -⟩ := List.cons.inj heq
        rw [hu] at ht
        cases ht
      | cons v front => exact ih h front (List.cons.inj heq).2
    | chain d =>
      have hbehind := h.1
      intro heq
      rw [flat_chain, List.append_assoc] at heq
      obtain ⟨more, rfl, hmore⟩ | ⟨more, hd, hmore⟩ := List.append_eq_append_iff.mp heq
      · exact ih h.2 more hmore
      · cases more with
        | nil => exact ih h.2 [] hmore.symm
        | cons u more =>
          obtain rfl : t = u := (List.cons.inj hmore).1
          have hbond : b.tokens = more ++ (flat ps ++ [c.first]) := (List.cons.inj hmore).2
          obtain ⟨done, todo, -, -, rfl⟩ := Concatenation.exists_split ht hd
          cases todo with
          | nil =>
            refine nextOperand?_eq_none_iff.mp hbehind b (c.bonds.flatMap Bond.tokens ++ flat qs) ?_
            rw [hbond]
            simp [flat_append, Concatenation.tokens]
          | cons b' todo =>
            rw [← List.append_nil b.tokens, List.flatMap_cons, List.append_assoc] at hbond
            have hnone := (Bond.tokens_inj hbond).2
            simp at hnone

theorem Ended.maximal {ps qs : List Part} {c : Concatenation} (h : Ended (ps ++ .chain c :: qs)) :
    c.Maximal (flat ps) (flat qs) :=
  ⟨h.left, h.right⟩

namespace Concatenation

theorem Maximal.of_append {front before after : List Token} {c : Concatenation}
    (h : c.Maximal (front ++ before) after) : c.Maximal before after := by
  refine ⟨fun more t b ht heq => ?_, h.right⟩
  exact h.left (front ++ more) t b ht (by rw [List.append_assoc, heq, List.append_assoc])

/-- A chain that cannot be made longer does not begin behind the bonds of another. -/
theorem Maximal.eq_nil {before after : List Token} {c d : Concatenation} {done : List Bond}
    (h : c.Maximal before after)
    (hfront : before ++ [c.first] = d.first :: done.flatMap Bond.tokens) : done = [] := by
  rcases List.eq_nil_or_concat done with rfl | ⟨done, b, rfl⟩
  · rfl
  · obtain ⟨front, t, hlast, ht⟩ := exists_last_operand d.first_isOperand done
    refine absurd ?_ (h.left front t b ht)
    rw [hfront, List.concat_eq_append, List.flatMap_append, List.flatMap_singleton,
      ← List.cons_append, hlast, List.append_assoc, List.singleton_append]

end Concatenation

/-- Every chain that cannot be made longer is a part. -/
theorem Ended.exists_part {ps : List Part} (h : Ended ps) {before after : List Token}
    {c : Concatenation} (heq : flat ps = before ++ (c.tokens ++ after))
    (hmax : c.Maximal before after) :
    ∃ pre post, ps = pre ++ .chain c :: post ∧ flat pre = before ∧ flat post = after := by
  induction ps generalizing before with
  | nil => simp [Concatenation.tokens] at heq
  | cons p ps ih =>
    cases p with
    | other u hu =>
      cases before with
      | nil =>
        have hop := c.first_isOperand
        rw [← (List.cons.inj heq).1, hu] at hop
        cases hop
      | cons v before =>
        obtain ⟨rfl, hrest⟩ := List.cons.inj heq
        have hbehind : c.Maximal ([u] ++ before) after := hmax
        obtain ⟨pre, post, rfl, rfl, rfl⟩ := ih h hrest hbehind.of_append
        exact ⟨.other u hu :: pre, post, rfl, rfl, rfl⟩
    | chain d =>
      rw [flat_chain] at heq
      obtain ⟨more, rfl, hmore⟩ | ⟨more, hd, hmore⟩ := List.append_eq_append_iff.mp heq
      · obtain ⟨pre, post, rfl, rfl, rfl⟩ := ih h.2 hmore hmax.of_append
        exact ⟨.chain d :: pre, post, rfl, rfl, rfl⟩
      · cases more with
        | nil =>
          rw [List.append_nil] at hd
          subst hd
          rw [← List.append_nil d.tokens] at hmax
          have hstart : flat ps = [] ++ (c.tokens ++ after) := hmore.symm
          obtain ⟨pre, post, rfl, hpre, rfl⟩ := ih h.2 hstart hmax.of_append
          exact ⟨.chain d :: pre, post, rfl, by rw [flat_chain, hpre, List.append_nil], rfl⟩
        | cons u more =>
          obtain rfl : c.first = u := (List.cons.inj hmore).1
          have hbonds : c.bonds.flatMap Bond.tokens ++ after = more ++ flat ps :=
            (List.cons.inj hmore).2
          obtain ⟨done, todo, hdone, hfront, rfl⟩ :=
            Concatenation.exists_split c.first_isOperand hd
          obtain rfl := hmax.eq_nil hfront
          obtain ⟨rfl, hfirst⟩ : before = [] ∧ c.first = d.first := by
            simpa [List.append_eq_singleton_iff] using hfront
          obtain ⟨htodo, rfl⟩ := bonds_inj (nextOperand?_eq_none_iff.mpr hmax.right) h.1 hbonds
          obtain rfl : c = d := by
            obtain ⟨first, bonds, hc⟩ := c
            obtain ⟨first', bonds', hd⟩ := d
            obtain rfl : first = first' := hfirst
            obtain rfl : bonds = bonds' := htodo.trans hdone.symm
            rfl
          exact ⟨[], ps, rfl, rfl, rfl⟩

/-- A list cut into its chains and the tokens that are no operands: the chains are just those that
stand in it and cannot be made longer. -/
structure Cut (ts : List Token) (ps : List Part) : Prop where
  flat_eq : flat ps = ts
  chain_iff : ∀ before c after,
    (∃ pre post, ps = pre ++ .chain c :: post ∧ flat pre = before ∧ flat post = after) ↔
      ts = before ++ (c.tokens ++ after) ∧ c.Maximal before after

theorem Ended.cut {ps : List Part} (h : Ended ps) : Cut (flat ps) ps := by
  refine ⟨rfl, fun before c after => ⟨?_, fun ⟨heq, hmax⟩ => h.exists_part heq hmax⟩⟩
  rintro ⟨pre, post, rfl, rfl, rfl⟩
  exact ⟨by rw [flat_append, flat_chain], h.maximal⟩

end Token

open Token

theorem merge_concatenation (c : Concatenation) {rest : List Token}
    (hrest : nextOperand? rest = none) :
    mergeConcatenations (c.tokens ++ rest) = c.joined :: mergeConcatenations rest := by
  rw [Concatenation.tokens, List.cons_append, merge_operand c.first_isOperand,
    c.extend_first hrest]

theorem merge_flat {ps : List Part} (h : Ended ps) :
    mergeConcatenations (flat ps) = ps.map Part.token := by
  induction ps with
  | nil => rw [flat_nil, mergeConcatenations, List.map_nil]
  | cons p ps ih =>
    cases p with
    | other t ht => rw [flat_other, merge_other ht, ih h, List.map_cons, Part.token]
    | chain c => rw [flat_chain, merge_concatenation c h.1, ih h.2, List.map_cons, Part.token]

theorem exists_ended (ts : List Token) : ∃ ps, flat ps = ts ∧ Ended ps := by
  induction hn : ts.length using Nat.strong_induction_on generalizing ts with
  | _ n ih =>
    cases ts with
    | nil => exact ⟨[], rfl, trivial⟩
    | cons t ts =>
      cases hop : t.isOperand with
      | false =>
        obtain ⟨ps, rfl, hps⟩ := ih ts.length (by simp [← hn]) ts rfl
        exact ⟨.other t hop :: ps, rfl, hps⟩
      | true =>
        obtain ⟨bonds, rest, rfl, hrest⟩ := exists_bonds ts
        have hlength : rest.length < n := by
          rw [← hn, List.length_cons, List.length_append]
          omega
        obtain ⟨ps, rfl, hps⟩ := ih rest.length hlength rest rfl
        exact ⟨.chain ⟨t, bonds, hop⟩ :: ps, rfl, hrest, hps⟩

/-! ## What is left to join -/

namespace Token

theorem exists_others {ps : List Part} {us vs : List Token} (hus : ∀ u ∈ us, u.isOperand = false)
    (h : ps.map Part.token = us ++ vs) :
    ∃ qs, flat ps = us ++ flat qs ∧ qs.map Part.token = vs := by
  induction us generalizing ps with
  | nil => exact ⟨ps, rfl, h⟩
  | cons u us ih =>
    obtain ⟨hu, hrest⟩ := List.forall_mem_cons.mp hus
    obtain ⟨p, ps, rfl, rfl, hps⟩ := List.map_eq_cons_iff.mp h
    obtain ⟨qs, hflat, hqs⟩ := ih hrest hps
    refine ⟨qs, ?_, hqs⟩
    rw [flat, List.flatMap_cons, Part.tokens_of_not_operand hu, ← flat, hflat]
    rfl

/-- A bond between joined tokens is one between the operands they begin with. -/
theorem nextOperand?_map_token {ps : List Part} (h : nextOperand? (flat ps) = none) :
    nextOperand? (ps.map Part.token) = none := by
  rw [nextOperand?_eq_none_iff] at h ⊢
  intro b rest heq
  rw [Bond.tokens_eq, List.append_assoc] at heq
  obtain ⟨qs, hflat, hqs⟩ := exists_others (fun u => Bond.isOperand_of_mem_sign) heq
  obtain ⟨q, qs, rfl, hq, -⟩ := List.map_eq_cons_iff.mp hqs
  obtain ⟨c, rfl⟩ := Part.exists_chain (hq ▸ b.bridge.isOperand)
  let bond : Bond := { b with
    operand := c.first
    bridge := { b.bridge with isOperand := c.first_isOperand } }
  apply h bond (c.bonds.flatMap Bond.tokens ++ flat qs)
  rw [hflat, flat_chain, bond.tokens_eq, List.append_assoc]
  rfl

theorem Ended.settled {ps : List Part} (h : Ended ps) : Settled (ps.map Part.token) := by
  induction ps with
  | nil => trivial
  | cons p ps ih =>
    cases p with
    | other t ht =>
      refine ⟨fun hop => ?_, ih h⟩
      rw [show (Part.other t ht).token = t from rfl, ht] at hop
      cases hop
    | chain c => exact ⟨fun _ => nextOperand?_map_token h.1, ih h.2⟩

theorem Settled.no_bond {ts : List Token} (h : Settled ts) (front : List Token) {t : Token}
    (ht : t.isOperand) (b : Bond) (back : List Token) : ts ≠ front ++ t :: (b.tokens ++ back) := by
  induction front generalizing ts with
  | nil =>
    rintro rfl
    exact nextOperand?_eq_none_iff.mp (h.1 ht) b back rfl
  | cons u front ih =>
    rintro rfl
    exact ih h.2 rfl

end Token

/-- Any list of tokens is cut into the chains that cannot be made longer and the tokens that are no
operands. Joining puts one token in the place of each chain, which says what the operands say, is
quoted if one of them is and spans them all, and leaves the other tokens and an operand by itself as
they are. In the list that comes out no operand is bonded to another, and joining it again changes
nothing. -/
theorem each_maximal_chain_is_joined (ts : List Token) :
    (∃ ps, Cut ts ps ∧ mergeConcatenations ts = ps.map Part.token) ∧
      (∀ c : Concatenation, c.bonds = [] → c.joined = c.first) ∧
      (¬ ∃ (front : List Token) (t : Token) (b : Bond) (back : List Token),
        t.isOperand ∧ mergeConcatenations ts = front ++ t :: (b.tokens ++ back)) ∧
      mergeConcatenations (mergeConcatenations ts) = mergeConcatenations ts := by
  obtain ⟨ps, rfl, hps⟩ := exists_ended ts
  have hmerge := merge_flat hps
  have hsettled : Settled (mergeConcatenations (flat ps)) := hmerge ▸ hps.settled
  refine ⟨⟨ps, hps.cut, hmerge⟩, ?_, ?_, merge_of_settled hsettled⟩
  · rintro ⟨t, bonds, h⟩ rfl
    exact Concatenation.joined_alone h
  · rintro ⟨front, t, b, back, ht, heq⟩
    exact hsettled.no_bond front ht b back heq

end CampaignMarkup
