import CampaignMarkup.Proofs.Conditional.Blocks
import CampaignMarkup.Proofs.Preprocess.Underneath

/-! # Conditionals without a stack

Blocks are evaluated by asking each conditional once, when it is reached, and going through the
branch that the answer picks; the other branch is not looked at. No stack of open conditionals is
needed for that. The nodes of a well nested text, evaluated one by one with the stack, come to the
same outcome. -/
namespace CampaignMarkup

namespace Evaluation

/-- A plain node, evaluated because the branch it stands in is. -/
def plainly (env : Environment) (deeper : Option Runner) (origin : Origin) (e : Evaluation) :
    Node → Outcome
  | .token t => proceed { e with output := e.output.writeToken t }
  | .call call raw line => e.expand env deeper origin call raw (origin.site line)
  | .define block => e.define origin block
  | .directive d line => e.obey d (origin.site line)

/-- Asks a conditional, and goes on with the answer, turned over for the `n` forms. -/
def ask (env : Environment) (origin : Origin) (kind : ConditionalKind) (mark : Mark)
    (e : Evaluation) (branch : Bool → Evaluation → Outcome) : Outcome :=
  match e.test env origin kind.question ⟨kind.directive, mark.args, mark.rest⟩
      (origin.site mark.line) with
  | .ok answer => branch (answer != kind.negated) e.collectBinaryPaths
  | .error f => e.fail f

end Evaluation

open Evaluation

namespace Blocks

/-- Binary paths that have been written count from the next block on. -/
def evaluate (env : Environment) (deeper : Option Runner) (origin : Origin) :
    Blocks → Evaluation → Outcome
  | .nil, e => e.proceed
  | .plain n _ rest, e =>
    andThen (e.plainly env deeper origin n) fun e =>
      rest.evaluate env deeper origin e.collectBinaryPaths
  | .ifThen kind mark body _ rest, e =>
    e.ask env origin kind mark fun chosen e =>
      andThen (if chosen then body.evaluate env deeper origin e else e.proceed) fun e =>
        rest.evaluate env deeper origin e.collectBinaryPaths
  | .ifThenElse kind mark body _ other _ rest, e =>
    e.ask env origin kind mark fun chosen e =>
      andThen
        (if chosen then body.evaluate env deeper origin e else other.evaluate env deeper origin e)
        fun e => rest.evaluate env deeper origin e.collectBinaryPaths

end Blocks

namespace Evaluation

/-- The runner below a text, if there is one: it gives its stack back and cannot tell what lies
underneath. -/
structure Detached (deeper : Option Runner) : Prop where
  restores : ∀ run ∈ deeper, Restores run
  raises : ∀ base : Frames, base.all (·.active) → ∀ run ∈ deeper, Raises base run

theorem collectBinaryPaths_setConditionals (e : Evaluation) (c : Conditionals) :
    (e.setConditionals c).collectBinaryPaths = e.collectBinaryPaths.setConditionals c := by
  simp only [collectBinaryPaths_eq]
  rfl

@[simp] theorem collectBinaryPaths_idem (e : Evaluation) :
    e.collectBinaryPaths.collectBinaryPaths = e.collectBinaryPaths := by
  simp only [collectBinaryPaths_eq]
  rfl

theorem plainly_restored (env : Environment) {deeper : Option Runner} (hd : Detached deeper)
    (origin : Origin) (n : Node) (e : Evaluation) :
    Restored e (e.plainly env deeper origin n).1 := by
  cases n with
  | token t => exact ⟨rfl, rfl, rfl⟩
  | call call raw line => exact expand_restored env hd.restores origin call raw _ e
  | define block => exact define_restored e origin block
  | directive d line => exact obey_restored e d _

theorem plainly_under (env : Environment) {deeper : Option Runner} (hd : Detached deeper)
    (origin : Origin) (n : Node) (base : Frames) (hb : base.all (·.active)) (e : Evaluation) :
    (e.under base).plainly env deeper origin n = raised base (e.plainly env deeper origin n) := by
  cases n with
  | token t => rfl
  | call call raw line => exact expand_under env (hd.raises base hb) origin call raw _ e
  | define block => exact define_under base e origin block
  | directive d line => exact obey_under base e d _

theorem ask_invariant {P : Evaluation → Prop} {env : Environment} {origin : Origin}
    {kind : ConditionalKind} {mark : Mark} {e : Evaluation}
    {branch : Bool → Evaluation → Outcome} (he : P e)
    (hb : ∀ chosen, P (branch chosen e.collectBinaryPaths).1) :
    P (e.ask env origin kind mark branch).1 := by
  unfold ask
  split
  · exact hb _
  · exact he

theorem evaluate_restored (env : Environment) {deeper : Option Runner} (hd : Detached deeper)
    (origin : Origin) (bs : Blocks) (e : Evaluation) :
    Restored e (bs.evaluate env deeper origin e).1 := by
  induction bs generalizing e with
  | nil => exact .refl e
  | plain n h rest ih =>
    exact andThen_invariant (P := Restored e) (plainly_restored env hd origin n e)
      (fun e' he => (he.trans (collectBinaryPaths_restored e')).trans (ih _))
  | ifThen kind mark body closing rest ihb ihr =>
    refine ask_invariant (P := Restored e) (.refl e) (fun chosen => ?_)
    refine andThen_invariant (P := Restored e) ?_
      (fun e' he => (he.trans (collectBinaryPaths_restored e')).trans (ihr _))
    split
    · exact (collectBinaryPaths_restored e).trans (ihb _)
    · exact collectBinaryPaths_restored e
  | ifThenElse kind mark body alternative other closing rest ihb iho ihr =>
    refine ask_invariant (P := Restored e) (.refl e) (fun chosen => ?_)
    refine andThen_invariant (P := Restored e) ?_
      (fun e' he => (he.trans (collectBinaryPaths_restored e')).trans (ihr _))
    split
    · exact (collectBinaryPaths_restored e).trans (ihb _)
    · exact (collectBinaryPaths_restored e).trans (iho _)

section

variable (env : Environment) {deeper : Option Runner} (origin : Origin) (floor : Nat)

theorem directive_plain {d : Directive} {line : Nat} (hn : (Node.directive d line).role = .plain)
    (e : Evaluation) (site : Site) :
    e.directive env origin floor d site =
      if e.session.conditionals.isActive then e.obey d site else e.proceed := by
  obtain ⟨kind, args, rest⟩ := d
  cases kind <;> simp [Node.role, ConditionalKind.ofDirective?] at hn <;> rfl

theorem node_active {n : Node} (hn : n.role = .plain) {e : Evaluation}
    (ha : e.session.conditionals.isActive) :
    e.node env deeper origin floor n = e.plainly env deeper origin n := by
  cases n with
  | token t => simp [node, plainly, ha]
  | call call raw line => simp [node, plainly, ha]
  | define block => simp [node, plainly, ha]
  | directive d line => simp [node, plainly, directive_plain env origin floor hn, ha]

theorem node_skipped {n : Node} (hn : n.role = .plain) {e : Evaluation}
    (ha : e.session.conditionals.isActive = false) :
    e.node env deeper origin floor n = e.proceed := by
  cases n with
  | token t => simp [node, ha]
  | call call raw line => simp [node, ha]
  | define block => simp [node, ha]
  | directive d line => simp [node, directive_plain env origin floor hn, ha]

theorem node_opening (kind : ConditionalKind) (m : Mark) (e : Evaluation) :
    e.node env deeper origin floor (Node.opening kind m) =
      e.openConditional env origin kind ⟨kind.directive, m.args, m.rest⟩ (origin.site m.line) := by
  simp [node, Node.opening, directive, ConditionalKind.ofDirective?_directive]

/-- Nodes one by one, with the stack. -/
def walk (env : Environment) (deeper : Option Runner) (origin : Origin) (floor : Nat)
    (ns : List Node) (e : Evaluation) : Outcome :=
  each (nodeAndPaths env deeper origin floor) ns e

theorem walk_cons (n : Node) (ns : List Node) (e : Evaluation) :
    walk env deeper origin floor (n :: ns) e =
      andThen (e.node env deeper origin floor n) fun e =>
        walk env deeper origin floor ns e.collectBinaryPaths := by
  rw [walk, each_cons, nodeAndPaths_eq]
  obtain ⟨e', failure⟩ := e.node env deeper origin floor n
  cases failure <;> rfl

variable {floor}

/-- An `#else` turns over the frame that its conditional pushed. -/
theorem walk_alternative (m : Mark) {c : Conditionals} (hf : floor ≤ c.depth)
    (kind : ConditionalKind) (active : Bool) (site : Site) (ns : List Node) (e : Evaluation) :
    walk env deeper origin floor (Node.alternative m :: ns)
        (e.setConditionals (c.push ⟨kind, active, false, site⟩)) =
      walk env deeper origin floor ns
        (e.collectBinaryPaths.setConditionals (c.push ⟨kind, !active, true, site⟩)) := by
  have hd : ¬ (c.push ⟨kind, active, false, site⟩).depth ≤ floor := by
    rw [Conditionals.depth_push]
    omega
  rw [walk_cons, ← collectBinaryPaths_setConditionals]
  simp only [node, Node.alternative, directive, ConditionalKind.ofDirective?, setConditionals, hd,
    if_false]
  rfl

/-- An `#endif` takes the frame away that its conditional pushed. -/
theorem walk_closing (m : Mark) {c : Conditionals} (hf : floor ≤ c.depth)
    (frame : ConditionalFrame) (ns : List Node) (e : Evaluation) :
    walk env deeper origin floor (Node.closing m :: ns) (e.setConditionals (c.push frame)) =
      walk env deeper origin floor ns (e.collectBinaryPaths.setConditionals c) := by
  have hd : ¬ (c.push frame).depth ≤ floor := by
    rw [Conditionals.depth_push]
    omega
  rw [walk_cons, ← collectBinaryPaths_setConditionals]
  simp only [node, Node.closing, directive, ConditionalKind.ofDirective?, setConditionals, hd,
    if_false]
  rfl

theorem walk_opening_skipped (kind : ConditionalKind) (m : Mark) {c : Conditionals}
    (hc : c.isActive = false) (ns : List Node) (e : Evaluation) :
    walk env deeper origin floor (Node.opening kind m :: ns) (e.setConditionals c) =
      walk env deeper origin floor ns (e.collectBinaryPaths.setConditionals
        (c.push ⟨kind, false, false, origin.site m.line⟩)) := by
  rw [walk_cons, node_opening, ← collectBinaryPaths_setConditionals]
  simp [openConditional, setConditionals, hc]
  rfl

/-- In a skipped region nothing happens, whatever its blocks hold: its conditionals come and go,
and a frame below them stays inactive all the while. -/
theorem walk_skipped (bs : Blocks) {c : Conditionals} (hc : c.isActive = false)
    (hf : floor ≤ c.depth) (tail : List Node) (e : Evaluation) :
    walk env deeper origin floor (bs.flatten ++ tail) (e.collectBinaryPaths.setConditionals c) =
      walk env deeper origin floor tail (e.collectBinaryPaths.setConditionals c) := by
  induction bs generalizing c tail with
  | nil => rfl
  | plain n hn rest ih =>
    rw [Blocks.flatten, List.cons_append, walk_cons, node_skipped env origin floor hn hc]
    change walk env deeper origin floor _
      (e.collectBinaryPaths.setConditionals c).collectBinaryPaths = _
    rw [collectBinaryPaths_setConditionals, collectBinaryPaths_idem]
    exact ih hc hf tail
  | ifThen kind mark body closing rest ihb ihr =>
    have hi : (c.push ⟨kind, false, false, origin.site mark.line⟩).isActive = false := by simp
    simp only [Blocks.flatten, List.cons_append, List.append_assoc]
    rw [walk_opening_skipped env origin kind mark hc, collectBinaryPaths_idem,
      ihb hi (by simp; omega), walk_closing env origin closing hf, collectBinaryPaths_idem]
    exact ihr hc hf tail
  | ifThenElse kind mark body alternative other closing rest ihb iho ihr =>
    have hi (active seen : Bool) :
        (c.push ⟨kind, active, seen, origin.site mark.line⟩).isActive = false := by simp [hc]
    simp only [Blocks.flatten, List.cons_append, List.append_assoc]
    rw [walk_opening_skipped env origin kind mark hc, collectBinaryPaths_idem,
      ihb (hi _ _) (by simp; omega), walk_alternative env origin alternative hf,
      collectBinaryPaths_idem, iho (hi _ _) (by simp; omega), walk_closing env origin closing hf,
      collectBinaryPaths_idem]
    exact ihr hc hf tail

theorem test_setConditionals (e : Evaluation) (c : Conditionals) (question : Question)
    (d : Directive) (site : Site) :
    (e.setConditionals c).test env origin question d site = e.test env origin question d site := by
  cases question <;> rfl

/-- Once the stack is cut back, a failure leaves what it leaves without a stack. -/
theorem finish_fail {base c : Conditionals} (hs : base.frames <:+ c.frames) {e : Evaluation}
    (he : e.session.conditionals = base) (f : Failure) :
    finish base.depth (e.setConditionals c, some f) = (e, some f) := by
  have ht : c.truncate base.depth = e.session.conditionals := by
    rw [Conditionals.truncate_of_suffix hs, he]
  simp only [finish, setConditionals, ht]
  rfl

theorem finish_proceed (e : Evaluation) :
    finish e.session.conditionals.depth e.proceed = e.proceed := by
  have ht : e.session.conditionals.truncate e.session.conditionals.depth =
      e.session.conditionals := Conditionals.truncate_of_suffix (List.suffix_refl _)
  have ho : e.session.conditionals.openAbove? e.session.conditionals.depth = none := by
    simp [Conditionals.openAbove?, Conditionals.depth]
  simp only [finish, proceed, ht, ho]
  rfl

theorem node_setConditionals (hd : Detached deeper) {n : Node} (hn : n.role = .plain)
    {e : Evaluation} (he : e.session.conditionals.isActive) {c : Conditionals}
    (hc : c.isActive) :
    (e.setConditionals c).node env deeper origin floor n =
      ((e.plainly env deeper origin n).1.setConditionals c,
        (e.plainly env deeper origin n).2) := by
  rw [node_active env origin floor hn hc]
  exact of_setConditionals (plainly_restored env hd origin n) (plainly_under env hd origin n) he hc

/-- A conditional that counts: the test is made, and its answer is the frame. -/
theorem walk_opening (kind : ConditionalKind) (m : Mark) {c : Conditionals} (hc : c.isActive)
    (ns : List Node) (e : Evaluation) :
    walk env deeper origin floor (Node.opening kind m :: ns) (e.setConditionals c) =
      match e.test env origin kind.question ⟨kind.directive, m.args, m.rest⟩
        (origin.site m.line) with
      | .ok answer => walk env deeper origin floor ns (e.collectBinaryPaths.setConditionals
          (c.push ⟨kind, answer != kind.negated, false, origin.site m.line⟩))
      | .error f => (e.setConditionals c, some f) := by
  have ha : (e.setConditionals c).session.conditionals.isActive = true := hc
  rw [walk_cons, node_opening]
  simp only [openConditional, ha, if_true, test_setConditionals]
  cases e.test env origin kind.question ⟨kind.directive, m.args, m.rest⟩ (origin.site m.line) with
  | ok answer =>
    dsimp only
    rw [← collectBinaryPaths_setConditionals]
    rfl
  | error f => rfl

end

/-- The invariant of the walk through blocks: everything on the stack is active, and at the bottom
stands what was open before the text. Then the walk does what evaluating the blocks does. -/
def Agrees (env : Environment) (deeper : Option Runner) (origin : Origin) (base : Conditionals)
    (bs : Blocks) : Prop :=
  ∀ c : Conditionals, c.isActive → base.frames <:+ c.frames →
    ∀ (tail : List Node) (e : Evaluation), e.session.conditionals = base →
      finish base.depth
          (walk env deeper origin base.depth (bs.flatten ++ tail) (e.setConditionals c)) =
        andThen (bs.evaluate env deeper origin e) fun e =>
          finish base.depth (walk env deeper origin base.depth tail (e.setConditionals c))

section

variable {env : Environment} {deeper : Option Runner} {origin : Origin} {base : Conditionals}

theorem collected {e : Evaluation} (h : e.session.conditionals = base) :
    e.collectBinaryPaths.session.conditionals = base :=
  (collectBinaryPaths_restored e).conditionals.trans h

theorem evaluated (hd : Detached deeper) (bs : Blocks) {e : Evaluation}
    (h : e.session.conditionals = base) :
    (bs.evaluate env deeper origin e).1.session.conditionals = base :=
  (evaluate_restored env hd origin bs e).conditionals.trans h

theorem agrees_plain (hd : Detached deeper) (hb : base.isActive) {n : Node}
    (hn : n.role = .plain) {rest : Blocks} (hr : Agrees env deeper origin base rest) :
    Agrees env deeper origin base (.plain n hn rest) := by
  intro c hc hs tail e he
  have hp := (plainly_restored env hd origin n e).conditionals.trans he
  rw [Blocks.flatten, List.cons_append, walk_cons,
    node_setConditionals env origin hd hn (he ▸ hb) hc, Blocks.evaluate, andThen_assoc]
  generalize e.plainly env deeper origin n = outcome at hp
  obtain ⟨e', failure⟩ := outcome
  cases failure with
  | some f => exact finish_fail hs hp f
  | none =>
    simp only [andThen_proceed, collectBinaryPaths_setConditionals]
    exact hr c hc hs tail _ (collected hp)

/-- Behind the `#endif` of a conditional the walk goes on as if there had been none. -/
theorem agrees_closing {rest : Blocks} (hr : Agrees env deeper origin base rest)
    {c : Conditionals} (hc : c.isActive) (hs : base.frames <:+ c.frames) (m : Mark)
    (frame : ConditionalFrame) (tail : List Node) {e : Evaluation}
    (he : e.session.conditionals = base) :
    finish base.depth (walk env deeper origin base.depth
        (Node.closing m :: (rest.flatten ++ tail)) (e.setConditionals (c.push frame))) =
      andThen (rest.evaluate env deeper origin e.collectBinaryPaths) fun e =>
        finish base.depth (walk env deeper origin base.depth tail (e.setConditionals c)) := by
  rw [walk_closing env origin m (Conditionals.depth_le_of_suffix hs)]
  exact hr c hc hs tail _ (collected he)

theorem agrees_ifThen (hd : Detached deeper) (kind : ConditionalKind) (mark closing : Mark)
    {body rest : Blocks} (hbody : Agrees env deeper origin base body)
    (hrest : Agrees env deeper origin base rest) :
    Agrees env deeper origin base (.ifThen kind mark body closing rest) := by
  intro c hc hs tail e he
  have hf (frame : ConditionalFrame) : base.depth ≤ (c.push frame).depth :=
    Conditionals.depth_le_of_suffix (Conditionals.suffix_push hs frame)
  simp only [Blocks.flatten, List.cons_append, List.append_assoc]
  rw [walk_opening env origin kind mark hc, Blocks.evaluate, ask]
  cases e.test env origin kind.question ⟨kind.directive, mark.args, mark.rest⟩
      (origin.site mark.line) with
  | error f => exact finish_fail hs he f
  | ok answer =>
    dsimp only
    rw [andThen_assoc]
    cases answer != kind.negated with
    | true =>
      rw [hbody _ (by simpa using hc) (Conditionals.suffix_push hs _) _ _ (collected he)]
      exact andThen_congr (agrees_closing hrest hc hs closing _ tail
        (evaluated hd body (collected he)))
    | false =>
      rw [walk_skipped env origin body (by simp) (hf _)]
      exact agrees_closing hrest hc hs closing _ tail (collected he)

theorem agrees_ifThenElse (hd : Detached deeper) (kind : ConditionalKind)
    (mark alternative closing : Mark) {body other rest : Blocks}
    (hbody : Agrees env deeper origin base body) (hother : Agrees env deeper origin base other)
    (hrest : Agrees env deeper origin base rest) :
    Agrees env deeper origin base
      (.ifThenElse kind mark body alternative other closing rest) := by
  intro c hc hs tail e he
  have hc' (seen : Bool) (site : Site) : (c.push ⟨kind, true, seen, site⟩).isActive := by
    simpa using hc
  have hf (frame : ConditionalFrame) : base.depth ≤ (c.push frame).depth :=
    Conditionals.depth_le_of_suffix (Conditionals.suffix_push hs frame)
  simp only [Blocks.flatten, List.cons_append, List.append_assoc]
  rw [walk_opening env origin kind mark hc, Blocks.evaluate, ask]
  cases e.test env origin kind.question ⟨kind.directive, mark.args, mark.rest⟩
      (origin.site mark.line) with
  | error f => exact finish_fail hs he f
  | ok answer =>
    dsimp only
    rw [andThen_assoc]
    cases answer != kind.negated with
    | true =>
      rw [hbody _ (hc' _ _) (Conditionals.suffix_push hs _) _ _ (collected he)]
      apply andThen_congr
      rw [walk_alternative env origin alternative (Conditionals.depth_le_of_suffix hs),
        walk_skipped env origin other (by simp) (hf _),
        agrees_closing hrest hc hs closing _ tail
          (collected (evaluated hd body (collected he))),
        collectBinaryPaths_idem]
    | false =>
      rw [walk_skipped env origin body (by simp) (hf _),
        walk_alternative env origin alternative (Conditionals.depth_le_of_suffix hs),
        collectBinaryPaths_idem]
      simp only [Bool.not_false]
      rw [hother _ (hc' _ _) (Conditionals.suffix_push hs _) _ _ (collected he)]
      exact andThen_congr (agrees_closing hrest hc hs closing _ tail
        (evaluated hd other (collected he)))

end

theorem agrees (env : Environment) {deeper : Option Runner} (hd : Detached deeper)
    (origin : Origin) {base : Conditionals} (hb : base.isActive) (bs : Blocks) :
    Agrees env deeper origin base bs := by
  induction bs with
  | nil =>
    intro c _ _ tail e _
    rfl
  | plain n hn rest ih => exact agrees_plain hd hb hn ih
  | ifThen kind mark body closing rest ihb ihr =>
    exact agrees_ifThen hd kind mark closing ihb ihr
  | ifThenElse kind mark body alternative other closing rest ihb iho ihr =>
    exact agrees_ifThenElse hd kind mark alternative closing ihb iho ihr

theorem nodes_eq_evaluate (env : Environment) {deeper : Option Runner} (hd : Detached deeper)
    (origin : Origin) (bs : Blocks) {e : Evaluation} (ha : e.session.conditionals.isActive) :
    e.nodes env deeper origin bs.flatten = bs.evaluate env deeper origin e := by
  have h := agrees env hd origin ha bs e.session.conditionals ha (List.suffix_refl _) [] e rfl
  have hr := (evaluate_restored env hd origin bs e).conditionals
  rw [List.append_nil] at h
  refine h.trans (Eq.trans (andThen_congr ?_) (andThen_self _))
  rw [← hr]
  exact finish_proceed _

end Evaluation

namespace Blocks

/-- Evaluates a text by its blocks; one that is not well nested has none and is walked. -/
def text (env : Environment) (deeper : Option Runner) : Runner := fun origin source e =>
  match Node.ofSource source with
  | .error error => e.fail (structureFailure origin error)
  | .ok ns =>
    match ofNodes? ns with
    | some bs => bs.evaluate env deeper origin e
    | none => e.nodes env deeper origin ns

/-- Evaluates a text by its blocks, and so the texts below it. -/
def run (env : Environment) : Nat → Runner
  | 0 => text env none
  | levels + 1 => text env (some (run env levels))

def deeper (env : Environment) : Nat → Option Runner
  | 0 => none
  | levels + 1 => some (run env levels)

end Blocks

namespace Evaluation

/-- Runners that do the same where everything open is active, which is where texts are run. -/
inductive Alike : Option Runner → Option Runner → Prop where
  | none : Alike none none
  | some {run run' : Runner} : Restores run →
      (∀ origin source (e : Evaluation), e.session.conditionals.isActive →
        run' origin source e = run origin source e) → Alike (some run) (some run')

theorem each_congr {α : Type} {P : Evaluation → Prop} {step step' : α → Evaluation → Outcome}
    (hs : ∀ x e, P e → step' x e = step x e) (hp : ∀ x e, P e → P (step x e).1) (xs : List α)
    {e : Evaluation} (he : P e) : each step' xs e = each step xs e := by
  induction xs generalizing e with
  | nil => rfl
  | cons x xs ih =>
    rw [each_cons, each_cons, hs x e he]
    exact andThen_congr (ih (hp x e he))

section

variable (env : Environment) {deeper deeper' : Option Runner} (hd : Alike deeper deeper')

include hd

theorem expand_congr (origin : Origin) (call : MacroCall) (raw : String) (site : Site)
    {e : Evaluation} (he : e.session.conditionals.isActive) :
    e.expand env deeper' origin call raw site = e.expand env deeper origin call raw site := by
  cases hd with
  | none => rfl
  | @some run run' hr hs =>
    have file (path : Path) (e : Evaluation) (he : e.session.conditionals.isActive) :
        e.includeFile env run' site path = e.includeFile env run site path := by
      have hx (text : String) := hs { file := some path } text
        (e.enterFile (path.identity env.tree.workdir)) he
      simp only [includeFile_eq, hx]
    have kept (path : Path) (e : Evaluation) (he : e.session.conditionals.isActive) :
        (e.includeFile env run site path).1.session.conditionals.isActive :=
      (includeFile_restored env hr site path e).active he
    have place (path : Path) :
        e.includePath env run' site path = e.includePath env run site path := by
      rw [includePath_eq, includePath_eq]
      cases env.filesAt path with
      | error f => rfl
      | ok paths => exact each_congr file kept paths he
    have body (origin : Origin) (text : String) := hs origin text e he
    simp only [expand, place, body]

theorem plainly_congr (origin : Origin) (n : Node) {e : Evaluation}
    (he : e.session.conditionals.isActive) :
    e.plainly env deeper' origin n = e.plainly env deeper origin n := by
  cases n with
  | token t => rfl
  | call call raw line => exact expand_congr env hd origin call raw _ he
  | define block => rfl
  | directive d line => rfl

theorem nodes_congr (origin : Origin) (ns : List Node) (e : Evaluation) :
    e.nodes env deeper' origin ns = e.nodes env deeper origin ns := by
  have step (floor : Nat) (n : Node) (e : Evaluation) :
      e.nodeAndPaths env deeper' origin floor n = e.nodeAndPaths env deeper origin floor n := by
    rw [nodeAndPaths_eq, nodeAndPaths_eq]
    congr 1
    cases n with
    | token t => rfl
    | call call raw line =>
      simp only [node]
      split
      · next ha => exact expand_congr env hd origin call raw _ ha
      · rfl
    | define block => rfl
    | directive d line => rfl
  rw [nodes_eq_finish, nodes_eq_finish,
    each_congr (P := fun _ => True) (fun n e _ => step _ n e) (fun _ _ _ => trivial) ns trivial]

theorem evaluate_congr (hdet : Detached deeper) (origin : Origin) (bs : Blocks) {e : Evaluation}
    (he : e.session.conditionals.isActive) :
    bs.evaluate env deeper' origin e = bs.evaluate env deeper origin e := by
  have collect {e : Evaluation} (h : e.session.conditionals.isActive) :
      e.collectBinaryPaths.session.conditionals.isActive :=
    (collectBinaryPaths_restored e).active h
  have after (part : Blocks) {e : Evaluation} (h : e.session.conditionals.isActive) :
      (part.evaluate env deeper origin e).1.session.conditionals.isActive :=
    (evaluate_restored env hdet origin part e).active h
  induction bs generalizing e with
  | nil => rfl
  | plain n hn rest ih =>
    simp only [Blocks.evaluate, plainly_congr env hd origin n he]
    apply andThen_congr
    exact ih (collect ((plainly_restored env hdet origin n e).active he))
  | ifThen kind mark body closing rest ihb ihr =>
    simp only [Blocks.evaluate, ask]
    split
    · rw [ihb (collect he)]
      apply andThen_congr
      apply ihr
      apply collect
      split
      · exact after body (collect he)
      · exact collect he
    · rfl
  | ifThenElse kind mark body alternative other closing rest ihb iho ihr =>
    simp only [Blocks.evaluate, ask]
    split
    · rw [ihb (collect he), iho (collect he)]
      apply andThen_congr
      apply ihr
      apply collect
      split
      · exact after body (collect he)
      · exact after other (collect he)
    · rfl

end

theorem detached_below (env : Environment) (levels : Nat) : Detached (below env levels) := by
  cases levels with
  | zero => exact ⟨by simp [below], by simp [below]⟩
  | succ levels =>
    exact ⟨by simpa [below] using run_restores env levels,
      fun base hb => by simpa [below] using run_raises hb env levels⟩

theorem text_eq_structured (env : Environment) {deeper deeper' : Option Runner}
    (hdet : Detached deeper) (hd : Alike deeper deeper') (origin : Origin) (source : String)
    {e : Evaluation} (he : e.session.conditionals.isActive) :
    Blocks.text env deeper' origin source e = text env deeper origin source e := by
  unfold Blocks.text text
  cases Node.ofSource source with
  | error error => rfl
  | ok ns =>
    dsimp only
    split
    · next bs hbs =>
      rw [evaluate_congr env hd hdet origin bs he, ← nodes_eq_evaluate env hdet origin bs he,
        Blocks.flatten_of_ofNodes? hbs]
    · exact nodes_congr env hd origin ns e

theorem alike_below (env : Environment) (levels : Nat) :
    Alike (below env levels) (Blocks.deeper env levels) := by
  induction levels with
  | zero => exact .none
  | succ levels ih =>
    refine .some (run_restores env levels) (fun origin source e he => ?_)
    have h := text_eq_structured env (detached_below env levels) ih origin source he
    rw [run_eq_text, ← h]
    cases levels <;> rfl

end Evaluation

/-- A well nested text falls into blocks, and walking its nodes with the stack of conditionals is
evaluating the blocks without one, in the texts below it as well. -/
theorem flat_evaluation_is_structured (env : Environment) (levels : Nat) (origin : Origin)
    {ns : List Node} (hn : Node.WellNested ns) {e : Evaluation}
    (ha : e.session.conditionals.isActive) :
    ∃ bs, Blocks.ofNodes? ns = some bs ∧ bs.flatten = ns ∧
      e.nodes env (below env levels) origin ns =
        bs.evaluate env (Blocks.deeper env levels) origin e ∧
      ∀ source, Node.ofSource source = .ok ns →
        run env levels origin source e = bs.evaluate env (Blocks.deeper env levels) origin e := by
  obtain ⟨bs, hbs⟩ := Blocks.wellNested_iff.1 hn
  have hflat := Blocks.flatten_of_ofNodes? hbs
  have hnodes : e.nodes env (below env levels) origin ns =
      bs.evaluate env (Blocks.deeper env levels) origin e := by
    rw [evaluate_congr env (alike_below env levels) (detached_below env levels) origin bs ha,
      ← nodes_eq_evaluate env (detached_below env levels) origin bs ha, hflat]
  refine ⟨bs, hbs, hflat, hnodes, ?_⟩
  intro source hsource
  rw [run_eq_text, Evaluation.text, hsource]
  exact hnodes

/-- A skipped branch that holds a version nobody can read, a call of nothing and an `#error`. -/
def troubleSkipped : List Node :=
  [.opening ⟨.defined, false⟩ ⟨["NOWHERE"], "NOWHERE", 0⟩,
    .opening ⟨.version, true⟩ ⟨["bogus"], "bogus", 1⟩,
    .call ⟨"ABSENT", []⟩ "ABSENT" 2,
    .closing ⟨[], "", 3⟩,
    .directive ⟨.error, ["trouble"], "trouble"⟩ 4,
    .alternative ⟨[], "", 5⟩,
    .directive ⟨.textdomain, ["wesnoth"], "wesnoth"⟩ 6,
    .closing ⟨[], "", 7⟩]

theorem trouble_skipped_is_structured :
    Node.WellNested troubleSkipped ∧ (default : Evaluation).session.conditionals.isActive ∧
      ∃ bs, Blocks.ofNodes? troubleSkipped = some bs ∧ bs.flatten = troubleSkipped ∧
        (default : Evaluation).nodes default (below default 2) {} troubleSkipped =
          bs.evaluate default (Blocks.deeper default 2) {} default ∧
        ∀ source, Node.ofSource source = .ok troubleSkipped →
          run default 2 {} source default =
            bs.evaluate default (Blocks.deeper default 2) {} default :=
  ⟨by decide, rfl, flat_evaluation_is_structured default 2 {} (by decide) rfl⟩

end CampaignMarkup
