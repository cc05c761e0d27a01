import CampaignMarkup.Proofs.Preprocess.Stepwise
import Mathlib.Logic.Function.Iterate

/-! # How deep a run nests

A macro may call itself and a file may name itself, and what a call is replaced by is only known
once its arguments are filled in, so that nothing in the texts themselves gets smaller. What ends
every run is the limit alone: the texts open at any moment are numbered 0, 1, 2, … without gaps,
and no number passes the limit. -/
namespace CampaignMarkup

namespace Job

/-- The depth of the text that a job begins or goes on with. -/
def depth? : Job → Option Nat
  | .enter depth _ _ => some depth
  | .resume a => some a.depth
  | _ => none

/-- The depth at which a job stands. -/
def level? : Job → Option Nat
  | .enter depth _ _ => some depth
  | .resume a => some a.depth
  | .walk depth _ _ => some depth
  | .files depth _ _ => some depth
  | _ => none

/-- The depths of the texts among the jobs, innermost first. -/
def depths (jobs : List Job) : List Nat :=
  jobs.filterMap depth?

/-- Every job stands one level above the texts below it, and none above the limit. -/
def Nested (limit : Nat) : List Job → Prop
  | [] => True
  | job :: rest =>
    (∀ d ∈ job.level?, d = (depths rest).length ∧ d ≤ limit) ∧ Nested limit rest

@[simp] theorem depths_nil : depths [] = [] := rfl

@[simp] theorem depths_enter (depth : Nat) (origin : Origin) (source : String)
    (rest : List Job) : depths (.enter depth origin source :: rest) = depth :: depths rest := rfl

@[simp] theorem depths_resume (a : Activation) (rest : List Job) :
    depths (.resume a :: rest) = a.depth :: depths rest := rfl

@[simp] theorem depths_collect (rest : List Job) : depths (.collect :: rest) = depths rest := rfl

@[simp] theorem depths_leave (rest : List Job) : depths (.leave :: rest) = depths rest := rfl

theorem depths_of_nested {limit : Nat} {jobs : List Job} (h : Nested limit jobs) :
    depths jobs = (List.range (depths jobs).length).reverse := by
  induction jobs with
  | nil => rfl
  | cons job rest ih =>
    have hr := ih h.2
    cases job with
    | enter depth origin source =>
      obtain ⟨hd, _⟩ := h.1 depth rfl
      rw [depths_enter, List.length_cons, List.range_succ, List.reverse_append, ← hr, ← hd]
      rfl
    | resume a =>
      obtain ⟨hd, _⟩ := h.1 a.depth rfl
      rw [depths_resume, List.length_cons, List.range_succ, List.reverse_append, ← hr, ← hd]
      rfl
    | collect => exact hr
    | walk depth source path => exact hr
    | files depth source paths => exact hr
    | leave => exact hr

theorem depth_le_of_nested {limit : Nat} {jobs : List Job} (h : Nested limit jobs) :
    ∀ d ∈ depths jobs, d ≤ limit := by
  induction jobs with
  | nil => simp
  | cons job rest ih =>
    have hr := ih h.2
    cases job with
    | enter depth origin source => simpa using ⟨(h.1 depth rfl).2, hr⟩
    | resume a => simpa using ⟨(h.1 a.depth rfl).2, hr⟩
    | collect => exact hr
    | walk depth source path => exact hr
    | files depth source paths => exact hr
    | leave => exact hr

/-- Numbers without gaps from 0, none of them above the limit: there are few. -/
theorem length_depths_of_nested {limit : Nat} {jobs : List Job} (h : Nested limit jobs) :
    (depths jobs).length ≤ limit + 1 := by
  cases hk : (depths jobs).length with
  | zero => omega
  | succ k =>
    have hm : k ∈ depths jobs := by
      rw [depths_of_nested h, hk]
      simp
    have := depth_le_of_nested h k hm
    omega

end Job

open Job Evaluation

/-- A job is followed by jobs of its own level, or of the next one if that is allowed. -/
theorem Performs.nested {env : Environment} {e : Evaluation} {job : Job} {jobs rest : List Job}
    {outcome : Outcome} (hp : Performs env e job jobs outcome)
    (h : Nested env.options.maxDepth (job :: rest)) :
    Nested env.options.maxDepth (jobs ++ rest) := by
  obtain ⟨ht, hr⟩ := h
  cases hp with
  | malformed => exact hr
  | begun => exact ⟨ht, hr⟩
  | ended => exact hr
  | atOnce => exact ⟨by simp [level?], ht, hr⟩
  | @expanded depth _ _ _ _ _ _ _ _ _ hx =>
    obtain ⟨hd, _⟩ := ht depth rfl
    have hl := expansion_deeper (by rw [hx]; simp)
    exact ⟨by simpa [level?, hd] using hd ▸ hl, by simp [level?], ht, hr⟩
  | @included depth _ _ _ _ _ _ _ _ hx =>
    obtain ⟨hd, _⟩ := ht depth rfl
    have hl := expansion_deeper (by rw [hx]; simp)
    exact ⟨by simpa [level?, hd] using hd ▸ hl, by simp [level?], ht, hr⟩
  | collected => exact hr
  | unwalkable => exact hr
  | walked => exact ⟨ht, hr⟩
  | noFile => exact hr
  | cyclic => exact hr
  | unreadable => exact hr
  | opened => exact ⟨ht, by simp [level?], ht, hr⟩
  | left => exact hr

namespace Moment

theorem step_nested {env : Environment} {m m' : Moment} (hs : m.Step env m')
    (h : Nested env.options.maxDepth m.jobs) : Nested env.options.maxDepth m'.jobs := by
  obtain ⟨job, rest, ht, ⟨f, _, rfl⟩ | ⟨_, jobs, outcome, hp, rfl⟩⟩ := step_cases hs
  · rw [ht] at h
    exact h.2
  · rw [ht] at h
    exact hp.nested h

theorem leads_nested {env : Environment} {m m' : Moment} (hl : Leads env m m')
    (h : Nested env.options.maxDepth m.jobs) : Nested env.options.maxDepth m'.jobs := by
  induction hl with
  | refl => exact h
  | tail _ hs ih => exact step_nested hs ih

theorem leads_iterate {env : Environment} {m m' : Moment} (hl : Leads env m m') :
    ∃ steps, (next env)^[steps] m = m' := by
  induction hl with
  | refl => exact ⟨0, rfl⟩
  | tail _ hs ih =>
    obtain ⟨steps, rfl⟩ := ih
    exact ⟨steps + 1, by rw [Function.iterate_succ_apply', hs.2]⟩

end Moment

theorem Request.start_nested (env : Environment) (session : Session) (request : Request) :
    Nested env.options.maxDepth (request.start env session).jobs := by
  cases request with
  | text file source => cases file <;> simp [start, Nested, level?]
  | place path => simp [start, Nested, level?]

/-- The recursion in which texts are evaluated, with the depth counted and no other bound. -/
def CountsDepth (env : Environment) (runner : Nat → Runner) : Prop :=
  ∀ depth, runner depth =
    text env (if depth < env.options.maxDepth then some (runner (depth + 1)) else none)

theorem countsDepth_run (env : Environment) :
    CountsDepth env fun depth => run env (env.options.maxDepth - depth) := by
  intro depth
  by_cases hd : depth < env.options.maxDepth
  · obtain ⟨levels, hl⟩ := Nat.exists_eq_add_of_lt hd
    have h₁ : env.options.maxDepth - depth = levels + 1 := by omega
    have h₂ : env.options.maxDepth - (depth + 1) = levels := by omega
    simp only [hd, if_true, h₁, h₂, run]
  · have h₀ : env.options.maxDepth - depth = 0 := by omega
    simp only [hd, if_false, h₀, run]

/-- By induction on the levels left, which is all the recursion depends on. -/
theorem CountsDepth.eq_run {env : Environment} {runner : Nat → Runner}
    (h : CountsDepth env runner) (levels depth : Nat)
    (hl : env.options.maxDepth - depth = levels) : runner depth = run env levels := by
  induction levels generalizing depth with
  | zero =>
    have hd : ¬ depth < env.options.maxDepth := by omega
    rw [h depth, if_neg hd, run]
  | succ levels ih =>
    have hd : depth < env.options.maxDepth := by omega
    rw [h depth, if_pos hd, ih (depth + 1) (by omega), run]

theorem countsDepth_iff (env : Environment) (runner : Nat → Runner) :
    CountsDepth env runner ↔ runner = fun depth => run env (env.options.maxDepth - depth) := by
  constructor
  · intro h
    funext depth
    exact h.eq_run _ depth rfl
  · rintro rfl
    exact countsDepth_run env

/-- The recursion has one solution, and a request is answered after finitely many steps. The texts
open at any moment are numbered from 0 without gaps and never beyond the limit. -/
theorem every_run_ends_within_limit (env : Environment) (session : Session) (request : Request) :
    (∀ runner, CountsDepth env runner ↔
      runner = fun depth => run env (env.options.maxDepth - depth)) ∧
    (∃ steps outcome,
      (Moment.next env)^[steps] (request.start env session) = Moment.after [] outcome ∧
      request.report env session = Report.ofOutcome env.options outcome) ∧
    ∀ m, request.Reaches env session m →
      depths m.jobs = (List.range (depths m.jobs).length).reverse ∧
      (∀ depth ∈ depths m.jobs, depth ≤ env.options.maxDepth) ∧
      (depths m.jobs).length ≤ env.options.maxDepth + 1 := by
  refine ⟨countsDepth_iff env, ?_, ?_⟩
  · obtain ⟨steps, hs⟩ := Moment.leads_iterate (request.reaches_outcome env session)
    exact ⟨steps, _, hs, request.report_eq env session⟩
  · intro m hm
    have hn := Moment.leads_nested hm (request.start_nested env session)
    exact ⟨depths_of_nested hn, depth_le_of_nested hn, length_depths_of_nested hn⟩

end CampaignMarkup
