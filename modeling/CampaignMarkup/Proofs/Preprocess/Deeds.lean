import CampaignMarkup.Proofs.Conditional.Blocks
import CampaignMarkup.Proofs.Preprocess.Stepwise

/-! # What a node does at once

Before anything deeper is evaluated, a node leaves table, binary paths, conditionals and open files
alone, or does one of a few things to them, or fails. A failure, a definition and a conditional
carry the site of the node and no other. -/
namespace CampaignMarkup

/-- The line a node is reported at. Tokens are written and never reported. -/
def Node.line? : Node → Option Nat
  | .token _ => none
  | .call _ _ line => some line
  | .directive _ line => some line
  | .define block => some block.line

/-- The conditionals open behind a node, innermost first, by kind and line. -/
def Node.leaveOpen (opened : List (ConditionalKind × Nat)) (n : Node) :
    List (ConditionalKind × Nat) :=
  match n.role with
  | .opening kind mark => (kind, mark.line) :: opened
  | .closing _ => opened.tail
  | .plain | .alternative _ => opened

/-- The conditionals that nodes open and do not close. -/
def Node.leftOpen (ns : List Node) : List (ConditionalKind × Nat) :=
  ns.foldl leaveOpen []

/-- Frames of the conditionals that nodes of a text have opened. -/
def Origin.Opened (origin : Origin) (frames : List ConditionalFrame)
    (opened : List (ConditionalKind × Nat)) : Prop :=
  frames.map (fun frame => (frame.kind, frame.site)) =
    opened.map fun p => (p.1, origin.site p.2)

namespace Evaluation

/-- Table, binary paths, conditionals and open files are those of before. -/
structure Undisturbed (e e' : Evaluation) : Prop where
  macros : e'.session.macros = e.session.macros
  binaryPaths : e'.session.binaryPaths = e.session.binaryPaths
  conditionals : e'.session.conditionals = e.session.conditionals
  includes : e'.session.includes = e.session.includes

theorem Undisturbed.refl (e : Evaluation) : Undisturbed e e :=
  ⟨rfl, rfl, rfl, rfl⟩

end Evaluation

/-- A failure of a node at this site. No node fails for a cycle, files do, and none for what is
left open, texts do. -/
structure Failure.Befalls (f : Failure) (site : Site) : Prop where
  site : f.site? = some site
  acyclic : ∀ path source, f ≠ .includeCycle path source
  closed : ∀ kind source, f ≠ .unterminatedConditional kind source

open Evaluation in
/-- What a node can do, where the conditionals up to `floor` are out of its reach. -/
inductive Deed (origin : Origin) (floor : Nat) (n : Node) (e : Evaluation) : Outcome → Prop where
  | nothing {e'} : n.role = .plain → Undisturbed e e' → Deed origin floor n e e'.proceed
  | failure {f line} : n.line? = some line → f.Befalls (origin.site line) →
      Deed origin floor n e (e.fail f)
  | opening {kind mark active} : n.role = .opening kind mark →
      Deed origin floor n e (proceed (e.setConditionals
        (e.session.conditionals.push ⟨kind, active, false, origin.site mark.line⟩)))
  | turning {mark flipped} : n.role = .alternative mark → floor < e.session.conditionals.depth →
      e.session.conditionals.flip? = some flipped →
      Deed origin floor n e (proceed (e.setConditionals flipped))
  | closing {mark} : n.role = .closing mark → floor < e.session.conditionals.depth →
      Deed origin floor n e (proceed (e.setConditionals e.session.conditionals.pop))
  | undefining {name} : n.role = .plain → Deed origin floor n e (proceed
      { e with session := { e.session with macros := e.session.macros.undef name } })
  | defining {block} {definition : Definition} : n = .define block →
      definition.site = origin.site block.line →
      Deed origin floor n e (proceed
        { e with session := { e.session with macros := e.session.macros.define definition } })

namespace Evaluation

variable {origin : Origin} {floor : Nat} {e : Evaluation}

theorem argument_error {d : Directive} {expected : Expectation} {site : Site} {f : Failure}
    (h : argument d expected site = .error f) : f.Befalls site := by
  unfold argument at h
  split at h
  · cases h
  · cases h
    exact ⟨rfl, by simp, by simp⟩

theorem testVersion_error {env : Environment} {d : Directive} {site : Site} {f : Failure}
    (h : e.testVersion env d site = .error f) : f.Befalls site := by
  have compared : ∀ answer : Except VersionError Bool,
      answer.mapError (Failure.invalidVersion · site) = .error f → f.Befalls site := by
    intro answer ha
    cases answer with
    | ok b => cases ha
    | error error =>
      cases ha
      exact ⟨rfl, by simp, by simp⟩
  unfold testVersion at h
  dsimp only at h
  split at h
  · exact compared _ h
  · split at h
    · exact compared _ h
    · cases h
  · cases h
    exact ⟨rfl, by simp, by simp⟩

theorem test_error {env : Environment} {question : Question} {d : Directive} {site : Site}
    {f : Failure} (h : e.test env origin question d site = .error f) : f.Befalls site := by
  have asked : ∀ {expected : Expectation} {answer : String → Bool},
      (do let arg ← argument d expected site; return answer arg : Except Failure Bool) = .error f →
        f.Befalls site := by
    intro expected answer ha
    cases harg : argument d expected site with
    | ok arg =>
      rw [harg] at ha
      cases ha
    | error g =>
      rw [harg] at ha
      cases ha
      exact argument_error harg
  cases question with
  | defined => exact asked h
  | present => exact asked h
  | version => exact testVersion_error h

theorem define_deed (origin : Origin) (floor : Nat) (e : Evaluation) (block : DefineBlock) :
    Deed origin floor (.define block) e (e.define origin block) := by
  unfold define
  split
  · exact .failure rfl ⟨rfl, by simp, by simp⟩
  · exact .defining rfl rfl

section

variable (d : Directive) (line : Nat)

theorem openConditional_deed (env : Environment) {kind : ConditionalKind}
    (hk : ConditionalKind.ofDirective? d.kind = some kind) :
    Deed origin floor (.directive d line) e
      (e.openConditional env origin kind d (origin.site line)) := by
  have hrole : (Node.directive d line).role = .opening kind ⟨d.args, d.rest, line⟩ := by
    simp only [Node.role, hk]
  unfold openConditional
  split
  · split
    · exact .opening hrole
    · next hf => exact .failure rfl (test_error hf)
  · exact .opening hrole

theorem obey_deed (hplain : (Node.directive d line).role = .plain) :
    Deed origin floor (.directive d line) e (e.obey d (origin.site line)) := by
  have failed : ∀ {f : Failure}, f.Befalls (origin.site line) →
      Deed origin floor (.directive d line) e (e.fail f) := fun hf => .failure rfl hf
  unfold obey
  split
  · split
    · exact .undefining hplain
    · next hf => exact failed (argument_error hf)
  · split
    · exact .nothing hplain ⟨rfl, rfl, rfl, rfl⟩
    · next hf => exact failed (argument_error hf)
  · exact failed ⟨rfl, by simp, by simp⟩
  · exact .nothing hplain ⟨rfl, rfl, rfl, rfl⟩
  · exact .nothing hplain ⟨rfl, rfl, rfl, rfl⟩
  · exact failed ⟨rfl, by simp, by simp⟩
  · exact failed ⟨rfl, by simp, by simp⟩
  · exact failed ⟨rfl, by simp, by simp⟩
  · exact failed ⟨rfl, by simp, by simp⟩
  all_goals exact .nothing hplain (.refl e)

theorem directive_deed (env : Environment) :
    Deed origin floor (.directive d line) e
      (e.directive env origin floor d (origin.site line)) := by
  have stray : Deed origin floor (.directive d line) e
      (e.fail (.strayDirective d.kind (origin.site line))) := .failure rfl ⟨rfl, by simp, by simp⟩
  unfold directive
  split
  · next hk => exact openConditional_deed d line env hk
  · next hk =>
    split
    · next hd =>
      split
      · exact stray
      · next hdepth =>
        split
        · next hflip =>
          have hrole : (Node.directive d line).role = .alternative ⟨d.args, d.rest, line⟩ := by
            simp only [Node.role, hd]
            rfl
          exact .turning hrole (Nat.not_le.mp hdepth) hflip
        · exact stray
    · next hd =>
      split
      · exact stray
      · next hdepth =>
        have hrole : (Node.directive d line).role = .closing ⟨d.args, d.rest, line⟩ := by
          simp only [Node.role, hd]
          rfl
        exact .closing hrole (Nat.not_le.mp hdepth)
    · next helse hendif =>
      have hrole : (Node.directive d line).role = .plain := by
        simp only [Node.role, hk]
      split
      · exact obey_deed d line hrole
      · exact .nothing hrole (.refl e)

end

/-- A call that comes to nothing deeper writes, or fails at its own site. -/
theorem settled_deed {env : Environment} {depth : Nat} {call : MacroCall} {raw : String}
    {line : Nat} {outcome : Outcome}
    (h : e.expansion env depth origin call raw (origin.site line) = .settled outcome) :
    Deed origin floor (.call call raw line) e outcome := by
  have failed : ∀ {f : Failure}, f.Befalls (origin.site line) →
      Deed origin floor (.call call raw line) e (e.fail f) := fun hf => .failure rfl hf
  unfold expansion at h
  split at h
  · cases h
    exact .nothing rfl ⟨rfl, rfl, rfl, rfl⟩
  split at h
  · cases h
    exact failed ⟨rfl, by simp, by simp⟩
  split at h
  · split at h
    · cases h
      exact failed ⟨rfl, by simp, by simp⟩
    · cases h
  · dsimp only at h
    split at h
    · cases h
    · cases h
      unfold leaveUndefined
      split
      · exact failed ⟨rfl, by simp, by simp⟩
      · exact .nothing rfl ⟨rfl, rfl, rfl, rfl⟩

end Evaluation

theorem Job.performNode_deed (env : Environment) (a : Activation) (e : Evaluation) (n : Node) :
    Deed a.origin a.outer.depth n e (Job.performNode env a e n).2 := by
  cases n with
  | token t =>
    simp only [Job.performNode, Evaluation.node]
    split
    · exact .nothing rfl ⟨rfl, rfl, rfl, rfl⟩
    · exact .nothing rfl (.refl e)
  | define block =>
    simp only [Job.performNode, Evaluation.node]
    split
    · exact Evaluation.define_deed a.origin _ e block
    · exact .nothing rfl (.refl e)
  | directive d line => exact Evaluation.directive_deed d line env
  | call call raw line =>
    simp only [Job.performNode]
    split
    · cases hx : e.expansion env a.depth a.origin call raw (a.origin.site line) with
      | settled outcome => exact Evaluation.settled_deed hx
      | text inner source => exact .nothing rfl (.refl e)
      | place target => exact .nothing rfl (.refl e)
    · exact .nothing rfl (.refl e)

/-- The text that a call is replaced by is known by the place of the call. -/
theorem Evaluation.expansion_text {env : Environment} {depth : Nat} {origin inner : Origin}
    {call : MacroCall} {raw source : String} {site : Site} {e : Evaluation}
    (h : e.expansion env depth origin call raw site = .text inner source) :
    inner = ⟨origin.file, some site.line⟩ := by
  unfold expansion at h
  split at h
  · cases h
  split at h
  · cases h
  split at h
  · split at h
    · cases h
    · cases h
      rfl
  · dsimp only at h
    split at h <;> cases h

/-- What is left to be done before the next node: nothing, or what a call stands for. -/
theorem Job.performNode_jobs (env : Environment) (a : Activation) (e : Evaluation) (n : Node) :
    (Job.performNode env a e n).1 = [] ∨ ∃ call raw line, n = .call call raw line ∧
      ((∃ source, (Job.performNode env a e n).1 =
          [.enter (a.depth + 1) ⟨a.origin.file, some (a.origin.site line).line⟩ source]) ∨
        ∃ target, (Job.performNode env a e n).1 =
          [.walk (a.depth + 1) (a.origin.site line) target]) := by
  cases n with
  | token t => exact .inl rfl
  | define block => exact .inl rfl
  | directive d line => exact .inl rfl
  | call call raw line =>
    simp only [Job.performNode]
    split
    · cases hx : e.expansion env a.depth a.origin call raw (a.origin.site line) with
      | settled outcome => exact .inl rfl
      | text inner source =>
        rw [Evaluation.expansion_text hx]
        exact .inr ⟨call, raw, line, rfl, .inl ⟨source, rfl⟩⟩
      | place target => exact .inr ⟨call, raw, line, rfl, .inr ⟨target, rfl⟩⟩
    · exact .inl rfl

/-- A text fails at its end for the first of the conditionals that it has left open. -/
theorem Evaluation.finish_failure (floor : Nat) (e : Evaluation) :
    (finish floor e.proceed).2 = (e.session.conditionals.openAbove? floor).map fun frame =>
      .unterminatedConditional frame.kind frame.site := by
  simp only [finish, proceed]
  cases e.session.conditionals.openAbove? floor <;> rfl

namespace Deed

variable {origin : Origin} {floor : Nat} {n : Node} {e : Evaluation} {outcome : Outcome}

theorem includes (h : Deed origin floor n e outcome) :
    outcome.1.session.includes = e.session.includes := by
  cases h with
  | nothing _ hu => exact hu.includes
  | failure _ _ => rfl
  | opening _ => rfl
  | turning _ _ _ => rfl
  | closing _ _ => rfl
  | undefining _ => rfl
  | defining _ _ => rfl

theorem binaryPaths (h : Deed origin floor n e outcome) :
    outcome.1.session.binaryPaths = e.session.binaryPaths := by
  cases h with
  | nothing _ hu => exact hu.binaryPaths
  | failure _ _ => rfl
  | opening _ => rfl
  | turning _ _ _ => rfl
  | closing _ _ => rfl
  | undefining _ => rfl
  | defining _ _ => rfl

theorem befalls {f : Failure} (h : Deed origin floor n e outcome) (hf : outcome.2 = some f) :
    ∃ line, n.line? = some line ∧ f.Befalls (origin.site line) := by
  cases h with
  | failure hline hb =>
    cases hf
    exact ⟨_, hline, hb⟩
  | nothing _ _ => cases hf
  | opening _ => cases hf
  | turning _ _ _ => cases hf
  | closing _ _ => cases hf
  | undefining _ => cases hf
  | defining _ _ => cases hf

theorem macros (h : Deed origin floor n e outcome) :
    outcome.1.session.macros = e.session.macros ∨
    (∃ name, outcome.1.session.macros = e.session.macros.undef name) ∨
    ∃ block definition, n = .define block ∧ definition.site = origin.site block.line ∧
      outcome.1.session.macros = e.session.macros.define definition := by
  cases h with
  | nothing _ hu => exact .inl hu.macros
  | failure _ _ => exact .inl rfl
  | opening _ => exact .inl rfl
  | turning _ _ _ => exact .inl rfl
  | closing _ _ => exact .inl rfl
  | undefining _ => exact .inr (.inl ⟨_, rfl⟩)
  | defining hn hsite => exact .inr (.inr ⟨_, _, hn, hsite, rfl⟩)

/-- The frames above the floor keep step with the conditionals that the nodes have opened, as long
as nothing fails. -/
theorem frames {outer : Conditionals} {top : List ConditionalFrame}
    {opened : List (ConditionalKind × Nat)} (h : Deed origin outer.depth n e outcome)
    (htop : e.session.conditionals.frames = top ++ outer.frames)
    (hopened : origin.Opened top opened) :
    ∃ top', outcome.1.session.conditionals.frames = top' ++ outer.frames ∧
      (outcome.2 = none → origin.Opened top' (n.leaveOpen opened)) := by
  have kept : n.role = .plain → origin.Opened top (n.leaveOpen opened) := by
    intro hrole
    simpa only [Node.leaveOpen, hrole] using hopened
  -- where the node may turn or close, there is a frame above the floor
  have first : outer.depth < e.session.conditionals.depth → ∃ frame rest, top = frame :: rest := by
    intro hdepth
    cases top with
    | nil =>
      rw [Conditionals.depth, Conditionals.depth, htop, List.nil_append] at hdepth
      exact absurd hdepth (Nat.lt_irrefl _)
    | cons frame rest => exact ⟨frame, rest, rfl⟩
  cases h with
  | nothing hrole hu =>
    exact ⟨top, by rw [← htop]; exact congrArg _ hu.conditionals, fun _ => kept hrole⟩
  | failure _ _ => exact ⟨top, htop, fun hnone => by cases hnone⟩
  | undefining hrole => exact ⟨top, htop, fun _ => kept hrole⟩
  | defining hn _ =>
    subst hn
    exact ⟨top, htop, fun _ => kept rfl⟩
  | @opening kind mark active hrole =>
    refine ⟨⟨kind, active, false, origin.site mark.line⟩ :: top, ?_, fun _ => ?_⟩
    · change _ :: e.session.conditionals.frames = _
      rw [htop, List.cons_append]
    · simp only [Node.leaveOpen, hrole]
      exact congrArg (_ :: ·) hopened
  | closing hrole hdepth =>
    obtain ⟨frame, rest, rfl⟩ := first hdepth
    refine ⟨rest, ?_, fun _ => ?_⟩
    · change e.session.conditionals.frames.tail = _
      rw [htop]
      rfl
    · simp only [Node.leaveOpen, hrole, Origin.Opened, List.map_tail]
      exact congrArg List.tail hopened
  | @turning mark flipped hrole hdepth hflip =>
    obtain ⟨frame, rest, rfl⟩ := first hdepth
    simp only [Conditionals.flip?, htop, List.cons_append] at hflip
    split at hflip
    · cases hflip
    · cases hflip
      refine ⟨_ :: rest, rfl, fun _ => ?_⟩
      simp only [Node.leaveOpen, hrole]
      exact hopened

end Deed

end CampaignMarkup
