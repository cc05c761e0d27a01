import CampaignMarkup.Proofs.Conditional.Structured
import CampaignMarkup.Proofs.Directive.VersionOrder

/-! # Branches that versions decide

`#ifver` and `#ifnver` ask the same question, and the answer is turned over for the one of them. So
with the same arguments they go through opposite branches, and where there is no answer both
fail. -/
namespace CampaignMarkup

/-- `#ifver`, or `#ifnver` if it is negated. -/
abbrev ConditionalKind.versions (negated : Bool) : ConditionalKind :=
  ⟨.version, negated⟩

/-- The failure, told of a directive of that kind. -/
def Failure.toldOf (kind : DirectiveKind) : Failure → Failure
  | .invalidDirective _ expected site => .invalidDirective kind expected site
  | failure => failure

open ConditionalKind

namespace Evaluation

/-- The arguments say what to compare, and the comparison comes out so. A macro that is not defined
fails every comparison. -/
inductive ComparesTo (env : Environment) (e : Evaluation) : List String → Bool → Prop
  | reference {operator version : String} {op : Comparison} {w : Version}
      (hop : Comparison.read operator = .ok op) (hversion : Version.read version = .ok w) :
      ComparesTo env e [operator, version] (op.holds env.options.referenceVersion w)
  | defined {name operator version : String} {d : Definition} {v w : Version} {op : Comparison}
      (hname : e.session.macros.lookup name = some d) (hbody : Version.read d.body = .ok v)
      (hop : Comparison.read operator = .ok op) (hversion : Version.read version = .ok w) :
      ComparesTo env e [name, operator, version] (op.holds v w)
  | absent {name : String} (operator version : String)
      (hname : e.session.macros.lookup name = none) :
      ComparesTo env e [name, operator, version] false

variable {env : Environment} {e : Evaluation} {origin : Origin} {m : Mark} {answer : Bool}

/-- The answer to the question about versions, as `#ifver` gets it. -/
def versionAnswer (env : Environment) (e : Evaluation) (origin : Origin) (m : Mark) :
    Except Failure Bool :=
  e.testVersion env ⟨.ifver, m.args, m.rest⟩ (origin.site m.line)

theorem compared_eq_ok {lhs : Except VersionError Version} {operator version : String}
    {site : Site} {answer : Bool} :
    ((do
      let v ← lhs
      let op ← Comparison.read operator
      let w ← Version.read version
      return op.holds v w : Except VersionError Bool).mapError
        (Failure.invalidVersion · site) = .ok answer) ↔
      ∃ v op w, lhs = .ok v ∧ Comparison.read operator = .ok op ∧ Version.read version = .ok w ∧
        op.holds v w = answer := by
  cases lhs <;> cases Comparison.read operator <;> cases Version.read version <;>
    simp [Except.mapError, bind, Except.bind, pure, Except.pure]

theorem versionAnswer_eq_ok :
    e.versionAnswer env origin m = .ok answer ↔ e.ComparesTo env m.args answer := by
  constructor
  · intro h
    unfold versionAnswer testVersion at h
    dsimp only at h
    split at h
    · next hargs =>
      obtain ⟨v, op, w, hv, hop, hw, rfl⟩ := compared_eq_ok.mp h
      cases hv
      rw [hargs]
      exact .reference hop hw
    · next hargs =>
      rw [hargs]
      split at h
      · next hname =>
        obtain ⟨v, op, w, hv, hop, hw, rfl⟩ := compared_eq_ok.mp h
        exact .defined hname hv hop hw
      · next hname =>
        cases h
        exact .absent _ _ hname
    · cases h
  · intro h
    unfold versionAnswer testVersion
    dsimp only
    generalize m.args = args at h
    cases h with
    | reference hop hversion => exact compared_eq_ok.mpr ⟨_, _, _, rfl, hop, hversion, rfl⟩
    | defined hname hbody hop hversion =>
      dsimp only
      rw [hname]
      exact compared_eq_ok.mpr ⟨_, _, _, hbody, hop, hversion, rfl⟩
    | absent operator version hname =>
      dsimp only
      rw [hname]

theorem exists_versionAnswer_error (origin : Origin) (h : ∀ answer, ¬ e.ComparesTo env m.args answer) :
    ∃ f, e.versionAnswer env origin m = .error f := by
  cases hanswer : e.versionAnswer env origin m with
  | ok answer => exact absurd (versionAnswer_eq_ok.mp hanswer) (h answer)
  | error f => exact ⟨f, rfl⟩

/-- Both kinds of conditional get the same answer, or fail alike. -/
theorem test_versions (negated : Bool) :
    e.test env origin .version ⟨(versions negated).directive, m.args, m.rest⟩
        (origin.site m.line) =
      (e.versionAnswer env origin m).mapError (Failure.toldOf (versions negated).directive) := by
  have hread : ∀ answer : Except VersionError Bool,
      answer.mapError (Failure.invalidVersion · (origin.site m.line)) =
        (answer.mapError (Failure.invalidVersion · (origin.site m.line))).mapError
          (Failure.toldOf (versions negated).directive) := by
    intro answer
    cases answer <;> rfl
  unfold test versionAnswer testVersion
  dsimp only
  split
  · exact hread _
  · split
    · exact hread _
    · rfl
  · rfl

/-- The conditional is opened, and what follows counts or does not. -/
def openedVersions (e : Evaluation) (origin : Origin) (m : Mark) (negated active : Bool) :
    Outcome :=
  proceed (e.setConditionals (e.session.conditionals.push
    ⟨versions negated, active, false, origin.site m.line⟩))

section

variable (env : Environment) (deeper : Option Runner) (origin : Origin) (floor : Nat) {m : Mark}
  {e : Evaluation} {answer : Bool} {f : Failure}

theorem node_opening_skipped (ha : e.session.conditionals.isActive = false) (negated : Bool) :
    e.node env deeper origin floor (Node.opening (versions negated) m) =
      e.openedVersions origin m negated false := by
  rw [node_opening, openConditional, ha]
  rfl

theorem node_opening_answered (ha : e.session.conditionals.isActive)
    (h : e.ComparesTo env m.args answer) (negated : Bool) :
    e.node env deeper origin floor (Node.opening (versions negated) m) =
      e.openedVersions origin m negated (answer != negated) := by
  rw [node_opening, openConditional, ha, test_versions negated, versionAnswer_eq_ok.mpr h]
  rfl

theorem node_opening_unanswered (ha : e.session.conditionals.isActive)
    (h : e.versionAnswer env origin m = .error f) (negated : Bool) :
    e.node env deeper origin floor (Node.opening (versions negated) m) =
      e.fail (f.toldOf (versions negated).directive) := by
  rw [node_opening, openConditional, ha, test_versions negated, h]
  rfl

/-- The branch that the answer picks is evaluated, and the other is not. -/
theorem evaluate_answered (h : e.ComparesTo env m.args answer) (negated : Bool)
    (first second rest : Blocks) (alternative closing : Mark) :
    (Blocks.ifThenElse (versions negated) m first alternative second closing rest).evaluate env
        deeper origin e =
      andThen ((if answer != negated then first else second).evaluate env deeper origin
          e.collectBinaryPaths)
        fun e => rest.evaluate env deeper origin e.collectBinaryPaths := by
  rw [Blocks.evaluate, ask, test_versions negated, versionAnswer_eq_ok.mpr h]
  cases hchosen : answer != negated <;> simp [Except.mapError, hchosen]

theorem evaluate_unanswered (h : e.versionAnswer env origin m = .error f) (negated : Bool)
    (first second rest : Blocks) (alternative closing : Mark) :
    (Blocks.ifThenElse (versions negated) m first alternative second closing rest).evaluate env
        deeper origin e = e.fail (f.toldOf (versions negated).directive) := by
  rw [Blocks.evaluate, ask, test_versions negated, h]
  rfl

end

end Evaluation

open Evaluation Version

/-- Comparison is a total order up to zeros at the end. The first place where two versions differ
decides, and they are the same if they are without those zeros. To turn a pair around turns the
order, orders follow one another, and zeros behind a version change no comparison. One of less,
equal and greater holds, and the other three are their opposites. So of `#ifver` and `#ifnver` with
the same arguments one goes through the branch that the other leaves out, unless there is nothing to
compare and both fail. -/
theorem versions_ordered_up_to_zeros :
    (∀ v w : Version, v.compare w = .lt ↔
      ∃ i, (∀ j < i, v.components.getD j 0 = w.components.getD j 0) ∧
        v.components.getD i 0 < w.components.getD i 0) ∧
    (∀ v w : Version, (v.compare w = .eq ↔ v.significant = w.significant) ∧
      (v.same w ↔ v.compare w = .eq)) ∧
    (∀ v w : Version, w.compare v = (v.compare w).swap) ∧
    (∀ u v w : Version, Comparison.le.holds u v → Comparison.le.holds v w →
      Comparison.le.holds u w) ∧
    (∀ (op : Comparison) (v w : Version) (m n : Nat),
      op.holds (v.lengthened m) (w.lengthened n) = op.holds v w) ∧
    (∀ v w : Version, ∃! op, op ∈ [Comparison.lt, .eq, .gt] ∧ op.holds v w) ∧
    (∀ v w : Version, Comparison.le.holds v w = !Comparison.gt.holds v w ∧
      Comparison.ge.holds v w = !Comparison.lt.holds v w ∧
      Comparison.ne.holds v w = !Comparison.eq.holds v w) ∧
    (∀ (env : Environment) (deeper : Option Runner) (origin : Origin) (floor : Nat) (m : Mark)
        (e : Evaluation),
      (e.session.conditionals.isActive = false → ∀ negated,
        e.node env deeper origin floor (Node.opening (versions negated) m) =
          e.openedVersions origin m negated false) ∧
      (e.session.conditionals.isActive → ∀ answer, e.ComparesTo env m.args answer → ∀ negated,
        e.node env deeper origin floor (Node.opening (versions negated) m) =
          e.openedVersions origin m negated (answer != negated)) ∧
      (e.session.conditionals.isActive → (∀ answer, ¬ e.ComparesTo env m.args answer) →
        ∃ f : Failure, ∀ negated,
          e.node env deeper origin floor (Node.opening (versions negated) m) =
            e.fail (f.toldOf (versions negated).directive))) ∧
    ∀ (env : Environment) (levels : Nat) (origin : Origin) (m alternative closing : Mark)
        (rest : Blocks) (e : Evaluation), e.session.conditionals.isActive →
      (∀ answer, e.ComparesTo env m.args answer → ∀ negated first second,
        e.nodes env (below env levels) origin
            (Blocks.ifThenElse (versions negated) m first alternative second closing rest).flatten =
          andThen ((if answer != negated then first else second).evaluate env (below env levels)
              origin e.collectBinaryPaths)
            fun e => rest.evaluate env (below env levels) origin e.collectBinaryPaths) ∧
      ((∀ answer, ¬ e.ComparesTo env m.args answer) → ∃ f : Failure, ∀ negated first second,
        e.nodes env (below env levels) origin
            (Blocks.ifThenElse (versions negated) m first alternative second closing rest).flatten =
          e.fail (f.toldOf (versions negated).directive)) := by
  refine ⟨fun _ _ => compare_eq_lt_iff, fun _ _ => ⟨compare_eq_eq_iff, same_iff⟩,
    fun v w => (swap_compare v w).symm, fun _ _ _ => isLE_compare_trans,
    Comparison.holds_lengthened, Comparison.existsUnique_holds, Comparison.holds_opposite, ?_, ?_⟩
  · intro env deeper origin floor m e
    refine ⟨node_opening_skipped env deeper origin floor, ?_, ?_⟩
    · intro ha answer hanswer
      exact node_opening_answered env deeper origin floor ha hanswer
    · intro ha hnone
      obtain ⟨f, hf⟩ := exists_versionAnswer_error origin hnone
      exact ⟨f, node_opening_unanswered env deeper origin floor ha hf⟩
  · intro env levels origin m alternative closing rest e ha
    simp only [nodes_eq_evaluate env (detached_below env levels) origin _ ha]
    constructor
    · intro answer hanswer negated first second
      exact evaluate_answered env _ origin hanswer negated first second rest alternative closing
    · intro hnone
      obtain ⟨f, hf⟩ := exists_versionAnswer_error origin hnone
      refine ⟨f, ?_⟩
      intro negated first second
      exact evaluate_unanswered env _ origin hf negated first second rest alternative closing

/-- 1.10 comes between 1.9 and 1.10.0.1, and the version 1.18.0 is at least 1.18. -/
theorem reached_version_goes_on :
    let env : Environment := ⟨FileTree.empty ["w"], {}, {}⟩
    let e : Evaluation := {}
    let m : Mark := ⟨[">=", "1.18"], ">= 1.18", 0⟩
    Comparison.le.holds ⟨[1, 9]⟩ ⟨[1, 10]⟩ ∧ Comparison.le.holds ⟨[1, 10]⟩ ⟨[1, 10, 0, 1]⟩ ∧
      Comparison.le.holds ⟨[1, 9]⟩ ⟨[1, 10, 0, 1]⟩ ∧
      e.session.conditionals.isActive ∧ e.ComparesTo env m.args true ∧
      e.node env none {} 0 (Node.opening (versions false) m) = e.openedVersions {} m false true ∧
      e.node env none {} 0 (Node.opening (versions true) m) = e.openedVersions {} m true false := by
  intro env e m
  have hfirst : Comparison.le.holds ⟨[1, 9]⟩ ⟨[1, 10]⟩ := by
    simp [Comparison.holds, Version.compare, Version.compareComponents, Nat.compare_eq_lt.mpr]
  have hsecond : Comparison.le.holds ⟨[1, 10]⟩ ⟨[1, 10, 0, 1]⟩ := by
    simp [Comparison.holds, Version.compare, Version.compareComponents, Nat.compare_eq_lt.mpr]
  have hholds : Comparison.ge.holds env.options.referenceVersion ⟨[1, 18]⟩ = true := by
    simp [Comparison.holds, Version.compare, Version.compareComponents, env]
  have hcompares : e.ComparesTo env m.args true := by
    rw [← hholds]
    exact .reference rfl rfl
  obtain ⟨-, -, -, htrans, -, -, -, hbranches, -⟩ := versions_ordered_up_to_zeros
  obtain ⟨-, hanswered, -⟩ := hbranches env none {} 0 m e
  exact ⟨hfirst, hsecond, htrans _ _ _ hfirst hsecond, rfl, hcompares,
    hanswered rfl true hcompares false, hanswered rfl true hcompares true⟩

end CampaignMarkup
