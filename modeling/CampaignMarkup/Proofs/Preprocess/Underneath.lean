import CampaignMarkup.Proofs.Preprocess.Stacks

/-! # Conditionals open around a text

A text cannot tell how many conditionals are open around it, so long as all of them are active:
evaluated on top of one such stack or of another it does the same. -/
namespace CampaignMarkup

abbrev Frames := List ConditionalFrame

namespace Conditionals

/-- The stack with further frames put underneath. -/
def under (base : Frames) (c : Conditionals) : Conditionals :=
  ⟨c.frames ++ base⟩

@[simp] theorem depth_under (base : Frames) (c : Conditionals) :
    (c.under base).depth = c.depth + base.length := by
  simp [under, depth]

theorem isActive_under {base : Frames} (hb : base.all (·.active)) (c : Conditionals) :
    (c.under base).isActive = c.isActive := by
  simp [under, isActive, List.all_append, hb]

theorem pop_under (base : Frames) {c : Conditionals} (h : 0 < c.depth) :
    (c.under base).pop = c.pop.under base := by
  obtain ⟨frames⟩ := c
  cases frames with
  | nil => exact absurd h (Nat.lt_irrefl 0)
  | cons frame frames => rfl

theorem flip?_under (base : Frames) {c : Conditionals} (h : 0 < c.depth) :
    (c.under base).flip? = c.flip?.map (under base) := by
  obtain ⟨frames⟩ := c
  cases frames with
  | nil => exact absurd h (Nat.lt_irrefl 0)
  | cons frame frames =>
    simp only [flip?, under, List.cons_append]
    split <;> rfl

theorem truncate_under (base : Frames) (floor : Nat) (c : Conditionals) :
    (c.under base).truncate (floor + base.length) = (c.truncate floor).under base := by
  have hl : c.frames.length + base.length - (floor + base.length) = c.frames.length - floor := by
    omega
  simp only [truncate, under, List.length_append, hl]
  rw [List.drop_append_of_le_length (Nat.sub_le _ _)]

theorem openAbove?_under (base : Frames) (floor : Nat) (c : Conditionals) :
    (c.under base).openAbove? (floor + base.length) = c.openAbove? floor := by
  have hl : c.frames.length + base.length - (floor + base.length) = c.frames.length - floor := by
    omega
  simp only [openAbove?, under, List.length_append, hl]
  rw [List.take_append_of_le_length (Nat.sub_le _ _)]

end Conditionals

namespace Evaluation

def under (base : Frames) (e : Evaluation) : Evaluation :=
  e.setConditionals (e.session.conditionals.under base)

@[simp] theorem macros_under (base : Frames) (e : Evaluation) :
    (e.under base).session.macros = e.session.macros := rfl

@[simp] theorem binaryPaths_under (base : Frames) (e : Evaluation) :
    (e.under base).session.binaryPaths = e.session.binaryPaths := rfl

@[simp] theorem isReading_under (base : Frames) (e : Evaluation) (identity : Path) :
    (e.under base).session.isReading identity = e.session.isReading identity := rfl

@[simp] theorem enterFile_under (base : Frames) (e : Evaluation) (identity : Path) :
    (e.under base).enterFile identity = (e.enterFile identity).under base := rfl

def raised (base : Frames) (outcome : Outcome) : Outcome :=
  (outcome.1.under base, outcome.2)

theorem raised_andThen (base : Frames) {outcome : Outcome} {k k' : Evaluation → Outcome}
    (h : ∀ e, k' (e.under base) = raised base (k e)) :
    andThen (raised base outcome) k' = raised base (andThen outcome k) := by
  obtain ⟨e, failure⟩ := outcome
  cases failure with
  | none => exact h e
  | some f => rfl

theorem collectBinaryPaths_under (base : Frames) (e : Evaluation) :
    (e.under base).collectBinaryPaths = e.collectBinaryPaths.under base := by
  simp only [collectBinaryPaths_eq]
  rfl

theorem define_under (base : Frames) (e : Evaluation) (origin : Origin) (block : DefineBlock) :
    (e.under base).define origin block = raised base (e.define origin block) := by
  unfold define
  split <;> rfl

theorem obey_under (base : Frames) (e : Evaluation) (d : Directive) (site : Site) :
    (e.under base).obey d site = raised base (e.obey d site) := by
  unfold obey
  split
  · split <;> rfl
  · split <;> rfl
  all_goals rfl

theorem leaveUndefined_under (base : Frames) (env : Environment) (e : Evaluation)
    (call : MacroCall) (raw : String) (site : Site) :
    (e.under base).leaveUndefined env call raw site =
      raised base (e.leaveUndefined env call raw site) := by
  unfold leaveUndefined
  split <;> rfl

theorem test_under (base : Frames) (env : Environment) (e : Evaluation) (origin : Origin)
    (question : Question) (d : Directive) (site : Site) :
    (e.under base).test env origin question d site = e.test env origin question d site := by
  cases question <;> rfl

theorem each_under {α : Type} (base : Frames) {step step' : α → Evaluation → Outcome}
    (h : ∀ x e, step' x (e.under base) = raised base (step x e)) (xs : List α) (e : Evaluation) :
    each step' xs (e.under base) = raised base (each step xs e) := by
  induction xs generalizing e with
  | nil => rfl
  | cons x xs ih =>
    rw [each_cons, each_cons, h x e]
    exact raised_andThen base ih

section

variable {base : Frames} (hb : base.all (·.active)) (env : Environment)

include hb

omit env in
theorem active_under (e : Evaluation) :
    (e.under base).session.conditionals.isActive = e.session.conditionals.isActive :=
  Conditionals.isActive_under hb _

theorem openConditional_under (e : Evaluation) (origin : Origin) (kind : ConditionalKind)
    (d : Directive) (site : Site) :
    (e.under base).openConditional env origin kind d site =
      raised base (e.openConditional env origin kind d site) := by
  have ha := active_under hb e
  simp only [openConditional, ha, test_under]
  split
  · split <;> rfl
  · rfl

/-- The floor is raised by as much as the stack, so `#else` and `#endif` reach the same frames. -/
theorem directive_under (e : Evaluation) (origin : Origin) (floor : Nat) (d : Directive)
    (site : Site) :
    (e.under base).directive env origin (floor + base.length) d site =
      raised base (e.directive env origin floor d site) := by
  have ha := active_under hb e
  have hd : (e.under base).session.conditionals.depth ≤ floor + base.length ↔
      e.session.conditionals.depth ≤ floor := by
    change (e.session.conditionals.under base).depth ≤ _ ↔ _
    rw [Conditionals.depth_under]
    omega
  unfold directive
  split
  · exact openConditional_under hb env e origin _ d site
  · split
    · by_cases hf : e.session.conditionals.depth ≤ floor
      · simp only [hd, hf, if_true]
        rfl
      · have hs : (e.under base).session.conditionals.flip? =
            e.session.conditionals.flip?.map (Conditionals.under base) :=
          Conditionals.flip?_under base (by omega)
        simp only [hd, hf, if_false, hs]
        cases e.session.conditionals.flip? <;> rfl
    · by_cases hf : e.session.conditionals.depth ≤ floor
      · simp only [hd, hf, if_true]
        rfl
      · have hs : (e.under base).session.conditionals.pop =
            e.session.conditionals.pop.under base :=
          Conditionals.pop_under base (by omega)
        simp only [hd, hf, if_false, hs]
        rfl
    · simp only [ha]
      split
      · exact obey_under base e d site
      · rfl

end

/-- A runner that cannot tell what lies underneath. -/
def Raises (base : Frames) (run : Runner) : Prop :=
  ∀ origin source e, run origin source (e.under base) = raised base (run origin source e)

section

variable {base : Frames} (env : Environment)

theorem includeFile_under {run : Runner} (hr : Raises base run) (source : Site) (path : Path)
    (e : Evaluation) :
    (e.under base).includeFile env run source path =
      raised base (e.includeFile env run source path) := by
  rw [includeFile_eq, includeFile_eq]
  simp only [isReading_under, enterFile_under, hr _ _ _]
  split
  · rfl
  · split <;> rfl

theorem includePath_under {run : Runner} (hr : Raises base run) (source : Site) (path : Path)
    (e : Evaluation) :
    (e.under base).includePath env run source path =
      raised base (e.includePath env run source path) := by
  rw [includePath_eq, includePath_eq]
  cases env.filesAt path with
  | error f => rfl
  | ok paths => exact each_under base (fun p e => includeFile_under env hr source p e) paths e

theorem expand_under {deeper : Option Runner} (hr : ∀ run ∈ deeper, Raises base run)
    (origin : Origin) (call : MacroCall) (raw : String) (site : Site) (e : Evaluation) :
    (e.under base).expand env deeper origin call raw site =
      raised base (e.expand env deeper origin call raw site) := by
  simp only [expand, macros_under, binaryPaths_under]
  split
  · rfl
  · cases deeper with
    | none => rfl
    | some run =>
      have hr := hr run rfl
      cases e.session.macros.lookup call.name with
      | some definition =>
        dsimp only
        split
        · rfl
        · exact hr _ _ e
      | none =>
        by_cases ht : (call.args.isEmpty && env.tree.has (env.resolver.resolve env.tree
            e.session.binaryPaths origin.current call.name)) = true
        · simp only [ht, if_true]
          exact includePath_under env hr site _ e
        · simp only [ht]
          exact leaveUndefined_under base env e call raw site

theorem node_under (hb : base.all (·.active)) {deeper : Option Runner}
    (hr : ∀ run ∈ deeper, Raises base run) (origin : Origin) (floor : Nat) (n : Node)
    (e : Evaluation) :
    (e.under base).node env deeper origin (floor + base.length) n =
      raised base (e.node env deeper origin floor n) := by
  have ha := active_under hb e
  simp only [node, ha]
  cases n with
  | token t => dsimp only; split <;> rfl
  | call call raw line =>
    dsimp only
    split
    · exact expand_under env hr origin call raw _ e
    · rfl
  | define block =>
    dsimp only
    split
    · exact define_under base e origin block
    · rfl
  | directive d line => exact directive_under hb env e origin floor d _

theorem nodeAndPaths_under (hb : base.all (·.active)) {deeper : Option Runner}
    (hr : ∀ run ∈ deeper, Raises base run) (origin : Origin) (floor : Nat) (n : Node)
    (e : Evaluation) :
    (e.under base).nodeAndPaths env deeper origin (floor + base.length) n =
      raised base (e.nodeAndPaths env deeper origin floor n) := by
  rw [nodeAndPaths_eq, nodeAndPaths_eq, node_under env hb hr]
  apply raised_andThen
  intro e'
  rw [collectBinaryPaths_under]
  rfl

end

theorem finish_under (base : Frames) (floor : Nat) (outcome : Outcome) :
    finish (floor + base.length) (raised base outcome) = raised base (finish floor outcome) := by
  obtain ⟨e, failure⟩ := outcome
  have ho : (e.under base).session.conditionals.openAbove? (floor + base.length) =
      e.session.conditionals.openAbove? floor := Conditionals.openAbove?_under base floor _
  have ht : (e.under base).session.conditionals.truncate (floor + base.length) =
      (e.session.conditionals.truncate floor).under base :=
    Conditionals.truncate_under base floor _
  simp only [finish, raised, ho, ht]
  cases failure with
  | some f => rfl
  | none => cases e.session.conditionals.openAbove? floor <;> rfl

theorem text_raises {base : Frames} (hb : base.all (·.active)) (env : Environment)
    {deeper : Option Runner} (hr : ∀ run ∈ deeper, Raises base run) :
    Raises base (text env deeper) := by
  intro origin source e
  unfold text
  split
  · rfl
  · next ns _ =>
    have hf : (e.under base).session.conditionals.depth =
        e.session.conditionals.depth + base.length := Conditionals.depth_under base _
    rw [nodes_eq_finish, nodes_eq_finish, hf,
      each_under base (fun n e => nodeAndPaths_under env hb hr origin _ n e)]
    exact finish_under base _ _

theorem run_raises {base : Frames} (hb : base.all (·.active)) (env : Environment)
    (levels : Nat) : Raises base (run env levels) :=
  run_induction (fun _ => text_raises hb env) levels

/-- What restores the stack and cannot tell what lies underneath does the same on any two active
stacks: both are the empty stack with frames put underneath. -/
theorem of_setConditionals {f : Evaluation → Outcome} (hs : ∀ e, Restored e (f e).1)
    (hu : ∀ base : Frames, base.all (·.active) → ∀ e, f (e.under base) = raised base (f e))
    {e : Evaluation} (he : e.session.conditionals.isActive) {c : Conditionals}
    (hc : c.isActive) : f (e.setConditionals c) = ((f e).1.setConditionals c, (f e).2) := by
  let bare := e.setConditionals {}
  have hbare : (f bare).1.session.conditionals = {} := (hs bare).conditionals
  have h₁ : f (e.setConditionals c) = raised c.frames (f bare) := hu c.frames hc bare
  have h₂ : f e = raised e.session.conditionals.frames (f bare) :=
    hu e.session.conditionals.frames he bare
  rw [h₁, h₂]
  simp only [raised, under, hbare]
  rfl

end Evaluation

end CampaignMarkup
