import CampaignMarkup.Document.Node
import CampaignMarkup.Directive.Conditional

/-! # Blocks

The nodes of a text put together by its conditionals. A list of nodes is well nested if every
`#else` and `#endif` belongs to a conditional opened in the list, no conditional has two `#else`
and all are closed. These are the lists that fall into blocks, and the blocks written out are the
list again. -/
namespace CampaignMarkup

/-- What a conditional's directive holds besides its keyword. -/
structure Mark where
  args : List String
  rest : String
  line : Nat
deriving DecidableEq, Repr, Inhabited

/-- What a node is to the nesting of conditionals. -/
inductive Role where
  | plain
  | opening (kind : ConditionalKind) (mark : Mark)
  | alternative (mark : Mark)
  | closing (mark : Mark)
deriving DecidableEq, Repr, Inhabited

namespace Node

def role : Node → Role
  | .directive d line =>
    match ConditionalKind.ofDirective? d.kind with
    | some kind => .opening kind ⟨d.args, d.rest, line⟩
    | none =>
      match d.kind with
      | .elseBranch => .alternative ⟨d.args, d.rest, line⟩
      | .endif => .closing ⟨d.args, d.rest, line⟩
      | _ => .plain
  | _ => .plain

def opening (kind : ConditionalKind) (m : Mark) : Node :=
  .directive ⟨kind.directive, m.args, m.rest⟩ m.line

def alternative (m : Mark) : Node :=
  .directive ⟨.elseBranch, m.args, m.rest⟩ m.line

def closing (m : Mark) : Node :=
  .directive ⟨.endif, m.args, m.rest⟩ m.line

end Node

theorem ConditionalKind.ofDirective?_directive (kind : ConditionalKind) :
    ofDirective? kind.directive = some kind := by
  obtain ⟨question, negated⟩ := kind
  cases question <;> cases negated <;> rfl

namespace Node

@[simp] theorem role_opening (kind : ConditionalKind) (m : Mark) :
    (opening kind m).role = .opening kind m := by
  simp [opening, role, ConditionalKind.ofDirective?_directive]

@[simp] theorem role_alternative (m : Mark) : (alternative m).role = .alternative m := rfl

@[simp] theorem role_closing (m : Mark) : (closing m).role = .closing m := rfl

/-- The role of a node that is not plain holds all there is to the node. -/
theorem eq_of_role (n : Node) :
    match n.role with
    | .plain => True
    | .opening kind m => n = opening kind m
    | .alternative m => n = alternative m
    | .closing m => n = closing m := by
  cases n with
  | directive d line =>
    obtain ⟨kind, args, rest⟩ := d
    cases kind <;> trivial
  | token t => trivial
  | call call raw line => trivial
  | define block => trivial

/-- Reads nodes while conditionals are open, innermost first, each with whether its `#else` has
been seen. Gives what is open at the end. -/
def unclosed? : List Bool → List Node → Option (List Bool)
  | opened, [] => some opened
  | opened, n :: ns =>
    match n.role, opened with
    | .plain, _ => unclosed? opened ns
    | .opening _ _, _ => unclosed? (false :: opened) ns
    | .alternative _, false :: outer => unclosed? (true :: outer) ns
    | .alternative _, _ => none
    | .closing _, _ :: outer => unclosed? outer ns
    | .closing _, [] => none

def WellNested (ns : List Node) : Prop :=
  unclosed? [] ns = some []

instance (ns : List Node) : Decidable (WellNested ns) :=
  inferInstanceAs (Decidable (_ = _))

end Node

/-- Nodes put together by their conditionals, up to the end of a branch. -/
inductive Blocks where
  | nil
  | plain (n : Node) (h : n.role = .plain) (rest : Blocks)
  | ifThen (kind : ConditionalKind) (mark : Mark) (body : Blocks) (closing : Mark)
      (rest : Blocks)
  | ifThenElse (kind : ConditionalKind) (mark : Mark) (body : Blocks) (alternative : Mark)
      (other : Blocks) (closing : Mark) (rest : Blocks)
deriving Inhabited

namespace Blocks

def flatten : Blocks → List Node
  | .nil => []
  | .plain n _ rest => n :: rest.flatten
  | .ifThen kind mark body closing rest =>
    Node.opening kind mark :: (body.flatten ++ Node.closing closing :: rest.flatten)
  | .ifThenElse kind mark body alternative other closing rest =>
    Node.opening kind mark :: (body.flatten ++ Node.alternative alternative ::
      (other.flatten ++ Node.closing closing :: rest.flatten))

/-- The part of a conditional that follows its first branch, and what follows the conditional. -/
structure Remainder where
  other : Option (Mark × Blocks)
  closing : Mark
  rest : Blocks

/-- The whole conditional, with its opening and its first branch put in front. -/
def Remainder.conditional (kind : ConditionalKind) (mark : Mark) (body : Blocks) :
    Remainder → Blocks
  | ⟨none, closing, rest⟩ => .ifThen kind mark body closing rest
  | ⟨some (alternative, other), closing, rest⟩ =>
    .ifThenElse kind mark body alternative other closing rest

/-- Blocks read from the end of a text: those before the next directive of a conditional that is
opened further ahead, and what remains of such conditionals, innermost first. -/
structure Partial where
  current : Blocks
  pending : List Remainder

/-- One more node, in front of what has been read. -/
def Partial.before (n : Node) (p : Partial) : Option Partial :=
  match h : n.role, p.pending with
  | .plain, pending => some ⟨.plain n h p.current, pending⟩
  | .opening kind mark, r :: pending => some ⟨r.conditional kind mark p.current, pending⟩
  | .alternative mark, ⟨none, closing, rest⟩ :: pending =>
    some ⟨.nil, ⟨some (mark, p.current), closing, rest⟩ :: pending⟩
  | .closing mark, pending => some ⟨.nil, ⟨none, mark, p.current⟩ :: pending⟩
  | _, _ => none

def read : List Node → Option Partial
  | [] => some ⟨.nil, []⟩
  | n :: ns => (read ns).bind (Partial.before n)

/-- The blocks of a text, if it is well nested. -/
def ofNodes? (ns : List Node) : Option Blocks :=
  match read ns with
  | some ⟨bs, []⟩ => some bs
  | _ => none

def Remainder.flatten : Remainder → List Node
  | ⟨none, closing, rest⟩ => Node.closing closing :: rest.flatten
  | ⟨some (alternative, other), closing, rest⟩ =>
    Node.alternative alternative :: (other.flatten ++ Node.closing closing :: rest.flatten)

def Partial.flatten (p : Partial) : List Node :=
  p.current.flatten ++ p.pending.flatMap Remainder.flatten

theorem flatten_conditional (kind : ConditionalKind) (mark : Mark) (body : Blocks)
    (r : Remainder) :
    (r.conditional kind mark body).flatten =
      Node.opening kind mark :: (body.flatten ++ r.flatten) := by
  obtain ⟨other, closing, rest⟩ := r
  cases other <;> rfl

theorem flatten_before {n : Node} {p q : Partial} (h : p.before n = some q) :
    q.flatten = n :: p.flatten := by
  have hn := n.eq_of_role
  obtain ⟨current, pending⟩ := p
  unfold Partial.before at h
  split at h
  · cases h
    rfl
  · next kind mark r pending hr hp =>
    cases h
    cases hp
    rw [hr] at hn
    simp [Partial.flatten, flatten_conditional, hn]
  · next mark closing rest pending hr hp =>
    cases h
    cases hp
    rw [hr] at hn
    simp [Partial.flatten, Remainder.flatten, flatten, hn]
  · next mark pending hr =>
    cases h
    rw [hr] at hn
    simp [Partial.flatten, Remainder.flatten, flatten, hn]
  · cases h

theorem flatten_read {ns : List Node} {p : Partial} (h : read ns = some p) :
    p.flatten = ns := by
  induction ns generalizing p with
  | nil =>
    cases h
    rfl
  | cons n ns ih =>
    obtain ⟨q, hq, hp⟩ := Option.bind_eq_some_iff.mp h
    rw [flatten_before hp, ih hq]

theorem flatten_of_ofNodes? {ns : List Node} {bs : Blocks} (h : ofNodes? ns = some bs) :
    bs.flatten = ns := by
  unfold ofNodes? at h
  split at h
  · next hr =>
    cases h
    simpa [Partial.flatten] using flatten_read hr
  · cases h

/-- The conditionals open ahead of some nodes and what remains of them there: one that has had its
`#else` has no second. -/
inductive Fits : List Bool → List Remainder → Prop where
  | nil : Fits [] []
  | cons {seen opened r pending} : (seen = true → r.other = none) → Fits opened pending →
      Fits (seen :: opened) (r :: pending)

section

variable {n : Node} {mark : Mark} (current : Blocks) (pending : List Remainder)

theorem before_plain (h : n.role = .plain) :
    (⟨current, pending⟩ : Partial).before n = some ⟨.plain n h current, pending⟩ := by
  unfold Partial.before
  split <;> grind

theorem before_opening {kind : ConditionalKind} (h : n.role = .opening kind mark)
    (r : Remainder) :
    (⟨current, r :: pending⟩ : Partial).before n =
      some ⟨r.conditional kind mark current, pending⟩ := by
  unfold Partial.before
  split <;> grind

theorem before_alternative (h : n.role = .alternative mark) (closing : Mark) (rest : Blocks) :
    (⟨current, ⟨none, closing, rest⟩ :: pending⟩ : Partial).before n =
      some ⟨.nil, ⟨some (mark, current), closing, rest⟩ :: pending⟩ := by
  unfold Partial.before
  split <;> grind

theorem before_closing (h : n.role = .closing mark) :
    (⟨current, pending⟩ : Partial).before n =
      some ⟨.nil, ⟨none, mark, current⟩ :: pending⟩ := by
  unfold Partial.before
  split <;> grind

end

/-- Reading from the end keeps step with the nesting counted from the start. -/
theorem read_of_unclosed? {ns : List Node} {opened : List Bool}
    (h : Node.unclosed? opened ns = some []) :
    ∃ p, read ns = some p ∧ Fits opened p.pending := by
  induction ns generalizing opened with
  | nil =>
    cases h
    exact ⟨_, rfl, .nil⟩
  | cons n ns ih =>
    unfold Node.unclosed? at h
    rw [read]
    split at h
    · next hr =>
      obtain ⟨⟨current, pending⟩, hp, hf⟩ := ih h
      rw [hp]
      exact ⟨_, before_plain current pending hr, hf⟩
    · next kind mark hr =>
      obtain ⟨⟨current, pending⟩, hp, hf⟩ := ih h
      cases hf with
      | @cons _ _ r pending _ hf =>
        rw [hp]
        exact ⟨_, before_opening current pending hr r, hf⟩
    · next mark outer hr =>
      obtain ⟨⟨current, pending⟩, hp, hf⟩ := ih h
      cases hf with
      | @cons _ _ r pending ho hf =>
        obtain ⟨other, closing, rest⟩ := r
        obtain rfl : other = none := ho rfl
        rw [hp]
        exact ⟨_, before_alternative current pending hr closing rest, .cons (by simp) hf⟩
    · cases h
    · next mark seen outer hr =>
      obtain ⟨⟨current, pending⟩, hp, hf⟩ := ih h
      rw [hp]
      exact ⟨_, before_closing current pending hr, .cons (fun _ => rfl) hf⟩
    · cases h

/-- Blocks close whatever they open. -/
theorem unclosed?_flatten (bs : Blocks) (opened : List Bool) (tail : List Node) :
    Node.unclosed? opened (bs.flatten ++ tail) = Node.unclosed? opened tail := by
  induction bs generalizing opened tail with
  | nil => rfl
  | plain n hn rest ih => simp [flatten, Node.unclosed?, hn, ih]
  | ifThen kind mark body closing rest ihb ihr => simp [flatten, Node.unclosed?, ihb, ihr]
  | ifThenElse kind mark body alternative other closing rest ihb iho ihr =>
    simp [flatten, Node.unclosed?, ihb, iho, ihr]

theorem wellNested_iff {ns : List Node} :
    Node.WellNested ns ↔ ∃ bs, ofNodes? ns = some bs := by
  constructor
  · intro h
    obtain ⟨⟨bs, pending⟩, hp, hf⟩ := read_of_unclosed? h
    cases hf with
    | nil => exact ⟨bs, by rw [ofNodes?, hp]⟩
  · rintro ⟨bs, hbs⟩
    have h := bs.unclosed?_flatten [] []
    rwa [List.append_nil, flatten_of_ofNodes? hbs] at h

end Blocks

end CampaignMarkup
