import CampaignMarkup.Proofs.Document.Places

/-! # How definitions nest

A definition goes from its `#define` to the `#enddef` that brings its nesting back to nothing. The
nesting is a matter of the kinds of the tokens and their lines alone, and reading a definition
follows it: it ends where the nesting does, well or for an `#arg` without a name, or never. -/
namespace CampaignMarkup

open Token

/-- The directive that a token is. -/
def Token.directive? (t : Token) : Option Directive :=
  if t.kind = .comment then Directive.ofComment? t.content else none

theorem Token.directive?_eq_some {t : Token} {d : Directive} :
    t.directive? = some d ↔ t.kind = .comment ∧ Directive.ofComment? t.content = some d := by
  unfold directive?
  split <;> simp_all

theorem Token.isLineBreak_behind {t u : Token} {ts : List Token} (h : CommentsEnd (t :: u :: ts))
    (hkind : t.kind = .comment) : u.isLineBreak ∧ u.kind = .endOfLine := by
  have hu : u.isLineBreak := (List.isChain_cons_cons.mp h).1 hkind
  exact ⟨hu, by simpa [isLineBreak] using hu⟩

theorem Token.not_comment_before {t u : Token} {ts : List Token} (h : CommentsEnd (t :: u :: ts))
    (hkind : u.kind = .comment) : t.kind ≠ .comment := by
  intro ht
  have hu := (isLineBreak_behind h ht).2
  rw [hkind] at hu
  cases hu

/-- How far the tokens of a definition are nested: at first behind its `#define`. -/
structure Enclosure where
  depth : Nat := 1
  /-- Nothing but white space stands in the line so far. -/
  atLineStart : Bool := false
  /-- An `#arg` waits for its `#endarg`. -/
  inArg : Bool := false
deriving DecidableEq, Repr, Inhabited

namespace Enclosure

/-- At the start of a line a `#define` opens a level, and every `#enddef` closes one. Of the outer
level are the `#arg` at the start of a line and every `#endarg`. -/
def step (n : Enclosure) (t : Token) : Enclosure :=
  if t.isLineBreak then { n with atLineStart := true }
  else if t.isWhitespace then n
  else
    let inLine := { n with atLineStart := false }
    match t.directive?.map Directive.kind with
    | some .define => if n.atLineStart then { inLine with depth := n.depth + 1 } else inLine
    | some .enddef => { inLine with depth := n.depth - 1 }
    | some .arg => if n.atLineStart && n.depth == 1 then { inLine with inArg := true } else inLine
    | some .endarg => if n.depth == 1 then { inLine with inArg := false } else inLine
    | _ => inLine

def after (n : Enclosure) (ts : List Token) : Enclosure :=
  ts.foldl step n

/-- Here the token is the `#enddef` that closes the definition. -/
def Closes (n : Enclosure) (t : Token) : Prop :=
  n.depth = 1 ∧ ∃ d ∈ t.directive?, d.kind = DirectiveKind.enddef

/-- Here the token is an `#arg` that needs a name and has none. -/
def Faults (n : Enclosure) (t : Token) : Prop :=
  n.atLineStart ∧ n.depth = 1 ∧ n.inArg = false ∧
    ∃ d ∈ t.directive?, d.kind = .arg ∧ d.args = []

/-- None of the tokens closes the definition or is at fault. -/
def Stays (n : Enclosure) (ts : List Token) : Prop :=
  ∀ front t back, ts = front ++ t :: back →
    (n.after (front ++ [t])).depth ≠ 0 ∧ ¬ (n.after front).Faults t

theorem stays_nil (n : Enclosure) : n.Stays [] := by
  intro front t back h
  simp at h

theorem stays_cons {n : Enclosure} {t : Token} {ts : List Token} :
    n.Stays (t :: ts) ↔ (n.step t).depth ≠ 0 ∧ ¬ n.Faults t ∧ (n.step t).Stays ts := by
  constructor
  · intro h
    obtain ⟨hdepth, hfault⟩ := h [] t ts rfl
    refine ⟨hdepth, hfault, ?_⟩
    rintro front u back rfl
    exact h (t :: front) u back rfl
  · rintro ⟨hdepth, hfault, hrest⟩ front u back h
    cases front with
    | nil =>
      obtain ⟨rfl, rfl⟩ := List.cons.inj h
      exact ⟨hdepth, hfault⟩
    | cons v front =>
      obtain ⟨rfl, rfl⟩ := List.cons.inj h
      exact hrest front u back rfl

instance (n : Enclosure) (t : Token) : Decidable (n.Faults t) :=
  inferInstanceAs (Decidable (_ ∧ _ ∧ _ ∧ _))

instance (n : Enclosure) (t : Token) : Decidable (n.Closes t) :=
  inferInstanceAs (Decidable (_ ∧ _))

instance decidableStays : (n : Enclosure) → (ts : List Token) → Decidable (n.Stays ts)
  | n, [] => .isTrue n.stays_nil
  | n, t :: ts =>
    have := decidableStays (n.step t) ts
    decidable_of_iff _ stays_cons.symm

/-- The token at which a definition ends, well or badly. -/
def Ends (n : Enclosure) (t : Token) : Prop :=
  (n.step t).depth = 0 ∨ n.Faults t

section Steps

variable (n : Enclosure) {t : Token}

theorem step_break (h : t.kind = .endOfLine) : n.step t = { n with atLineStart := true } := by
  simp [step, isLineBreak, h]

theorem step_gap (h : t.kind = .whitespace) : n.step t = n := by
  simp [step, isLineBreak, isWhitespace, h]

theorem step_plain (h₁ : t.kind ≠ .endOfLine) (h₂ : t.kind ≠ .whitespace)
    (h₃ : t.directive? = none) : n.step t = { n with atLineStart := false } := by
  simp [step, isLineBreak, isWhitespace, h₁, h₂, h₃]

theorem step_directive {d : Directive} (h : t.directive? = some d) :
    n.step t =
      let inLine := { n with atLineStart := false }
      match d.kind with
      | .define => if n.atLineStart then { inLine with depth := n.depth + 1 } else inLine
      | .enddef => { inLine with depth := n.depth - 1 }
      | .arg => if n.atLineStart && n.depth == 1 then { inLine with inArg := true } else inLine
      | .endarg => if n.depth == 1 then { inLine with inArg := false } else inLine
      | _ => inLine := by
  have hkind := (directive?_eq_some.mp h).1
  simp only [step, isLineBreak, isWhitespace, hkind, h, Option.map_some]
  cases d.kind <;> rfl

/-- What is no directive opens and closes nothing. -/
theorem step_of_none (h : t.directive? = none) :
    (n.step t).depth = n.depth ∧ (n.step t).inArg = n.inArg := by
  by_cases hbreak : t.kind = .endOfLine
  · rw [n.step_break hbreak]
    exact ⟨rfl, rfl⟩
  by_cases hgap : t.kind = .whitespace
  · rw [n.step_gap hgap]
    exact ⟨rfl, rfl⟩
  · rw [n.step_plain hbreak hgap h]
    exact ⟨rfl, rfl⟩

end Steps

/-- Only an `#enddef` takes a definition to its end. -/
theorem closes_of_depth {n : Enclosure} {t : Token} (h : n.depth ≠ 0)
    (hzero : (n.step t).depth = 0) : n.Closes t := by
  cases hd : t.directive? with
  | none =>
    rw [(n.step_of_none hd).1] at hzero
    exact absurd hzero h
  | some d =>
    rw [n.step_directive hd] at hzero
    cases hk : d.kind <;> rw [hk] at hzero <;> dsimp only at hzero
    case enddef => exact ⟨by omega, d, hd, hk⟩
    case define =>
      split at hzero <;> simp_all
    case arg => split at hzero <;> exact absurd hzero h
    case endarg => split at hzero <;> exact absurd hzero h
    all_goals exact absurd hzero h

theorem Stays.depth_ne {n : Enclosure} {ts : List Token} (h : n.Stays ts) (hn : n.depth ≠ 0) :
    (n.after ts).depth ≠ 0 := by
  induction ts generalizing n with
  | nil => exact hn
  | cons t ts ih =>
    obtain ⟨hdepth, -, hrest⟩ := stays_cons.mp h
    exact ih hrest hdepth

end Enclosure

namespace Capture

/-- A capture and the nesting that it has followed. -/
structure Follows (c : Capture) (n : Enclosure) : Prop where
  depth : c.depth = n.depth
  atLineStart : c.atLineStart = n.atLineStart
  inArg : c.openArg.isSome = n.inArg

variable {c : Capture} {n : Enclosure} {t : Token} {d : Directive}

theorem Follows.begins (offset : Nat) : Follows (begin offset) { atLineStart := true } :=
  ⟨rfl, rfl, rfl⟩

theorem Follows.newLine (h : Follows c n) (offset : Nat) :
    Follows (c.newLine offset) { n with atLineStart := true } :=
  ⟨h.depth, rfl, h.inArg⟩

theorem Follows.inLine (h : Follows c n) : Follows c.inLine { n with atLineStart := false } :=
  ⟨h.depth, rfl, h.inArg⟩

/-- What a directive does to a body, in terms of the nesting. -/
theorem Follows.turn_cases (h : Follows c n) (hd : t.directive? = some d) :
    match c.turn d.kind with
    | .ignore => n.step t = { n with atLineStart := false }
    | .nest => n.step t = { n with atLineStart := false, depth := n.depth + 1 }
    | .leave => n.step t = { n with atLineStart := false, depth := n.depth - 1 }
    | .finish => (n.step t).depth = 0
    | .openArg =>
      n.step t = { n with atLineStart := false, inArg := true } ∧ (d.args = [] → n.Faults t)
    | .closeArg => n.step t = { n with atLineStart := false, inArg := false } := by
  obtain ⟨hdepth, hstart, harg⟩ := h
  rw [n.step_directive hd]
  unfold turn
  cases hk : d.kind with
  | define =>
    dsimp only
    rw [hstart]
    cases n.atLineStart <;> rfl
  | enddef =>
    by_cases hlast : c.depth ≤ 1
    · simp only [hlast, if_true]
      omega
    · simp only [hlast, if_false]
  | arg =>
    cases ho : c.openArg with
    | some p =>
      rw [ho] at harg
      dsimp only
      rw [← harg]
      split <;> rfl
    | none =>
      rw [ho] at harg
      dsimp only
      rw [hstart, hdepth]
      by_cases houter : n.atLineStart && n.depth == 1
      · obtain ⟨hs, hone⟩ : n.atLineStart = true ∧ n.depth = 1 := by simpa using houter
        simp only [houter, if_true]
        exact ⟨trivial, fun hargs => ⟨hs, hone, harg.symm, d, hd, hk, hargs⟩⟩
      · simp only [houter]
        rfl
  | endarg =>
    cases ho : c.openArg with
    | some p =>
      dsimp only
      rw [hdepth]
      cases n.depth == 1 <;> rfl
    | none =>
      rw [ho] at harg
      dsimp only
      rw [← harg]
      split <;> rfl
  | _ => cases c.openArg <;> rfl

theorem Follows.close {source : List Char} (h : Follows c n) (cut offset : Nat) :
    Follows { (c.close source cut).newLine offset with cursor := offset }
      { n with atLineStart := true, inArg := false } := by
  unfold Capture.close
  cases ho : c.openArg with
  | none => exact ⟨h.depth, rfl, congrArg Option.isSome ho⟩
  | some p => exact ⟨h.depth, rfl, rfl⟩

variable (source : List Char) (lines : LineMap)

/-- Reading goes on from a token that does not end the definition with the next one or, behind the
opening and the closing of an `#arg` block, with the next line. -/
theorem Follows.read_cons (h : Follows c n) (hdepth : (n.step t).depth ≠ 0) (hfault : ¬ n.Faults t)
    (rest : List Token) :
    (∃ c', Follows c' (n.step t) ∧ read source lines c (t :: rest) = read source lines c' rest) ∨
    t.kind = .comment ∧ ∃ c', Follows c' { n.step t with atLineStart := true } ∧
      read source lines c (t :: rest) = read source lines c' (skipLineBreak rest) := by
  by_cases hbreak : t.kind = .endOfLine
  · refine .inl ⟨_, ?_, read_endOfLine _ _ _ _ hbreak⟩
    rw [n.step_break hbreak]
    exact h.newLine _
  by_cases hgap : t.kind = .whitespace
  · refine .inl ⟨_, ?_, read_whitespace _ _ _ _ hgap⟩
    rw [n.step_gap hgap]
    exact h
  cases hd : t.directive? with
  | none =>
    refine .inl ⟨c.inLine, ?_, ?_⟩
    · rw [n.step_plain hbreak hgap hd]
      exact h.inLine
    · by_cases hcomment : t.kind = .comment
      · exact read_remark _ _ _ _ hcomment (by simpa [directive?, hcomment] using hd)
      · exact read_other _ _ _ _ hbreak hgap hcomment
  | some d =>
    obtain ⟨hcomment, hsome⟩ := directive?_eq_some.mp hd
    have hturn := h.turn_cases hd
    rw [read_directive _ _ _ _ hcomment hsome]
    cases hk : c.turn d.kind with
    | ignore =>
      simp only [hk] at hturn
      rw [hturn]
      exact .inl ⟨_, h.inLine, rfl⟩
    | nest =>
      simp only [hk] at hturn
      rw [hturn]
      refine .inl ⟨_, ?_, rfl⟩
      exact ⟨congrArg (· + 1) h.depth, rfl, h.inArg⟩
    | leave =>
      simp only [hk] at hturn
      rw [hturn]
      refine .inl ⟨_, ?_, rfl⟩
      exact ⟨congrArg (· - 1) h.depth, rfl, h.inArg⟩
    | finish =>
      simp only [hk] at hturn
      exact absurd hturn hdepth
    | openArg =>
      simp only [hk] at hturn
      obtain ⟨hat, hnameless⟩ := hturn
      rw [hat]
      dsimp only
      cases hname : d.args.head? with
      | none => exact absurd (hnameless (List.head?_eq_none_iff.mp hname)) hfault
      | some name =>
        refine .inr ⟨hcomment, _, ?_, rfl⟩
        exact ⟨h.depth, rfl, rfl⟩
    | closeArg =>
      simp only [hk] at hturn
      rw [hturn]
      exact .inr ⟨hcomment, _, h.close _ _, rfl⟩

/-- Tokens that do not end a definition only bring its capture on. Behind them stands a comment, or
nothing. -/
theorem read_stays {front rest : List Token} (h : Follows c n) (hend : CommentsEnd (front ++ rest))
    (hstays : n.Stays front) (hrest : ∀ t ∈ rest.head?, t.kind = .comment) :
    ∃ c', (rest ≠ [] → Follows c' (n.after front)) ∧
      read source lines c (front ++ rest) = read source lines c' rest := by
  induction hn : front.length using Nat.strong_induction_on generalizing c n front with
  | _ k ih =>
    cases front with
    | nil => exact ⟨c, fun _ => h, rfl⟩
    | cons t front =>
      obtain ⟨hdepth, hfault, hstays⟩ := Enclosure.stays_cons.mp hstays
      have hmore : CommentsEnd (front ++ rest) := @CommentsEnd.right [t] (front ++ rest) hend
      rw [List.length_cons] at hn
      change ∃ c', (rest ≠ [] → Follows c' ((n.step t).after front)) ∧
        read source lines c (t :: (front ++ rest)) = read source lines c' rest
      rcases h.read_cons source lines hdepth hfault (front ++ rest) with
        ⟨c', hc', heq⟩ | ⟨hcomment, c', hc', heq⟩
      · rw [heq]
        exact ih front.length (by omega) hc' hmore hstays rfl
      · rw [heq]
        -- the line break that is passed over is one of these tokens, or there is nothing left
        cases front with
        | nil =>
          cases rest with
          | nil => exact ⟨c', fun hne => absurd rfl hne, rfl⟩
          | cons u rest => exact absurd hcomment (not_comment_before hend (hrest u rfl))
        | cons u front =>
          obtain ⟨hu, hkind⟩ := isLineBreak_behind hend hcomment
          obtain ⟨-, -, hlater⟩ := Enclosure.stays_cons.mp hstays
          simp only [List.cons_append, skipLineBreak, hu, if_true]
          change ∃ c', (rest ≠ [] → Follows c' (((n.step t).step u).after front)) ∧ _
          rw [(n.step t).step_break hkind] at hlater ⊢
          rw [List.length_cons] at hn
          exact ih front.length (by omega) hc' (@CommentsEnd.right [u] (front ++ rest) hmore)
            hlater rfl

/-- The tokens behind a `#define` begin with the rest of its line. -/
theorem read_behind {header : Token} {front rest : List Token}
    (hend : CommentsEnd (header :: (front ++ rest))) (hheader : header.kind = .comment)
    (hstays : ({} : Enclosure).Stays front) (hrest : ∀ t ∈ rest.head?, t.kind = .comment)
    (offset : Nat) :
    ∃ c', (rest ≠ [] → Follows c' (({} : Enclosure).after front)) ∧
      read source lines (begin offset) (skipLineBreak (front ++ rest)) =
        read source lines c' rest := by
  cases front with
  | nil =>
    cases rest with
    | nil => exact ⟨begin offset, fun hne => absurd rfl hne, rfl⟩
    | cons u rest => exact absurd hheader (not_comment_before hend (hrest u rfl))
  | cons u front =>
    obtain ⟨hu, hkind⟩ := isLineBreak_behind hend hheader
    obtain ⟨-, -, hlater⟩ := Enclosure.stays_cons.mp hstays
    have hstep := ({} : Enclosure).step_break hkind
    rw [hstep] at hlater
    simp only [List.cons_append, skipLineBreak, hu, if_true]
    change ∃ c', (rest ≠ [] → Follows c' ((({} : Enclosure).step u).after front)) ∧ _
    rw [hstep]
    exact read_stays source lines (.begins offset) (@CommentsEnd.right [header, u] _ hend) hlater
      hrest

section Outcomes

variable {header : Token} {front back : List Token} (d : Directive) (docs : List String)
  (line : Nat)

/-- A definition with the token that ends it. -/
theorem read_ends {d : Directive} (hend : CommentsEnd (header :: (front ++ t :: back)))
    (hheader : header.kind = .comment) (hstays : ({} : Enclosure).Stays front)
    (hd : t.directive? = some d) (offset : Nat) :
    ∃ c, Follows c (({} : Enclosure).after front) ∧
      read source lines (begin offset) (skipLineBreak (front ++ t :: back)) =
        read source lines c (t :: back) := by
  have hkind := (directive?_eq_some.mp hd).1
  obtain ⟨c, hc, hread⟩ := read_behind source lines hend hheader hstays
    (by simp [hkind]) offset
  exact ⟨c, hc (List.cons_ne_nil _ _), hread⟩

theorem block_of_closes (hend : CommentsEnd (header :: (front ++ t :: back)))
    (hheader : header.kind = .comment) (hstays : ({} : Enclosure).Stays front)
    (hcloses : (({} : Enclosure).after front).Closes t) :
    ∃ body defaults, block source lines d docs line (skipLineBreak (front ++ t :: back)) =
      .ok (⟨d, body, defaults, Node.joinDocs docs, line⟩, skipLineBreak back) := by
  obtain ⟨hdepth, close, hd, hkind⟩ := hcloses
  obtain ⟨c, hc, hread⟩ := read_ends source lines hend hheader hstays hd
    (offsetOf (Chars.byteSize source) (skipLineBreak (front ++ t :: back)))
  obtain ⟨hcomment, hsome⟩ := directive?_eq_some.mp hd
  have hturn : c.turn close.kind = .finish := by
    simp [turn, hkind, hc.depth, hdepth]
  rw [block, hread, read_directive _ _ _ _ hcomment hsome, hturn]
  exact ⟨_, _, rfl⟩

end Outcomes

end Capture

end CampaignMarkup
