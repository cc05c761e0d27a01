import CampaignMarkup.Proofs.Preprocess.Stepwise

/-! # The stacks come back

However a run ends, and however deep in expansions and files a failure arose, the open conditionals
and the files being read are afterwards those of before, and a run that fails adds no records. At
every moment on the way each text finds what was open before it untouched below its own frames. -/
namespace CampaignMarkup

open Evaluation

/-- Under what is open now lies what was open when the innermost text was entered, under that what
was open when the text around it was entered, and so on down to `base`. -/
def Layered (base : Conditionals) : Conditionals → List Job → Prop
  | c, [] => base.frames <:+ c.frames
  | c, .resume a :: rest => a.outer.frames <:+ c.frames ∧ Layered base a.outer rest
  | c, _ :: rest => Layered base c rest

namespace Layered

variable {base c : Conditionals} {jobs rest : List Job}

theorem base_suffix (h : Layered base c jobs) : base.frames <:+ c.frames := by
  induction jobs generalizing c with
  | nil => exact h
  | cons job rest ih =>
    cases job with
    | resume a => exact (ih h.2).trans h.1
    | enter depth origin source => exact ih h
    | collect => exact ih h
    | walk depth source path => exact ih h
    | files depth source paths => exact ih h
    | leave => exact ih h

theorem outer_suffix {a : Activation} (h : Layered base c jobs) (ha : .resume a ∈ jobs) :
    a.outer.frames <:+ c.frames := by
  induction jobs generalizing c with
  | nil => cases ha
  | cons job rest ih =>
    cases job with
    | resume b =>
      rcases List.mem_cons.mp ha with hab | ha
      · cases hab
        exact h.1
      · exact (ih h.2 ha).trans h.1
    | enter depth origin source => exact ih h (by simpa using ha)
    | collect => exact ih h (by simpa using ha)
    | walk depth source path => exact ih h (by simpa using ha)
    | files depth source paths => exact ih h (by simpa using ha)
    | leave => exact ih h (by simpa using ha)

/-- A text given up leaves the stack as it was when the text was entered. -/
theorem abandon {job : Job} {e : Evaluation}
    (h : Layered base e.session.conditionals (job :: rest)) :
    Layered base (job.abandon e).session.conditionals rest := by
  cases job with
  | resume a =>
    change Layered base (e.session.conditionals.truncate a.outer.depth) rest
    rw [Conditionals.truncate_of_suffix h.1]
    exact h.2
  | enter depth origin source => exact h
  | collect => exact h
  | walk depth source path => exact h
  | files depth source paths => exact h
  | leave => exact h

end Layered

theorem idle_restores (env : Environment) (depth : Nat) :
    ∀ run ∈ idle env depth, Restores run := by
  intro run hr
  unfold idle at hr
  split at hr
  · cases hr
  · cases hr
    intro origin source e
    exact .refl e

theorem Performs.layered {env : Environment} {e : Evaluation} {job : Job}
    {jobs rest : List Job} {outcome : Outcome} (hp : Performs env e job jobs outcome)
    {base : Conditionals} (h : Layered base e.session.conditionals (job :: rest)) :
    Layered base outcome.1.session.conditionals (jobs ++ rest) := by
  cases hp with
  | malformed => exact h
  | begun => exact ⟨List.suffix_refl _, h⟩
  | @ended depth origin outer =>
    rw [finish_fst]
    change Layered base (e.session.conditionals.truncate outer.depth) rest
    rw [Conditionals.truncate_of_suffix h.1]
    exact h.2
  | @atOnce depth origin outer n ns =>
    exact ⟨(node_kept env (idle_restores env depth) h.1 origin n).outer, h.2⟩
  | expanded => exact h
  | included => exact h
  | collected =>
    have hc := (collectBinaryPaths_restored e).conditionals
    change Layered base e.collectBinaryPaths.session.conditionals rest
    rw [hc]
    exact h
  | unwalkable => exact h
  | walked => exact h
  | noFile => exact h
  | cyclic => exact h
  | unreadable => exact h
  | opened => exact h
  | left => exact h

namespace Moment

theorem step_layered {env : Environment} {m m' : Moment} {base : Conditionals}
    (hs : m.Step env m') (h : Layered base m.evaluation.session.conditionals m.jobs) :
    Layered base m'.evaluation.session.conditionals m'.jobs := by
  obtain ⟨job, rest, hj, ⟨f, _, rfl⟩ | ⟨_, jobs, outcome, hp, rfl⟩⟩ := step_cases hs
  · rw [hj] at h
    exact h.abandon
  · rw [hj] at h
    exact hp.layered h

theorem leads_layered {env : Environment} {m m' : Moment} {base : Conditionals}
    (hl : Leads env m m') (h : Layered base m.evaluation.session.conditionals m.jobs) :
    Layered base m'.evaluation.session.conditionals m'.jobs := by
  induction hl with
  | refl => exact h
  | tail _ hs ih => exact step_layered hs ih

end Moment

namespace Request

theorem start_layered (env : Environment) (session : Session) (request : Request) :
    Layered session.conditionals (request.start env session).evaluation.session.conditionals
      (request.start env session).jobs := by
  cases request with
  | text file source => cases file <;> exact List.suffix_refl _
  | place path => exact List.suffix_refl _

theorem outcome_restored (env : Environment) (session : Session) (request : Request) :
    Restored { session } (request.outcome env session).1 := by
  have hr := run_restores env env.options.maxDepth
  cases request with
  | text file source =>
    cases file with
    | none => exact hr {} source { session }
    | some path =>
      have h := hr { file := some path } source
        (enterFile { session } (path.identity env.tree.workdir))
      exact ⟨h.conditionals, congrArg List.tail h.includes, h.records⟩
  | place path => exact includePath_restored env hr {} path { session }

end Request

namespace Report

theorem ofOutcome_conditionals (options : Options) (outcome : Outcome) :
    (ofOutcome options outcome).session.conditionals = outcome.1.session.conditionals := by
  have h := (collectBinaryPaths_restored outcome.1).conditionals
  simp only [ofOutcome]
  split <;> exact h

theorem ofOutcome_includes (options : Options) (outcome : Outcome) :
    (ofOutcome options outcome).session.includes = outcome.1.session.includes := by
  have h := (collectBinaryPaths_restored outcome.1).includes
  simp only [ofOutcome]
  split <;> exact h

theorem ofOutcome_records {options : Options} {outcome : Outcome} {f : Failure}
    (hf : (ofOutcome options outcome).result = .error f) :
    (ofOutcome options outcome).session.records = outcome.1.session.records := by
  have h := (collectBinaryPaths_restored outcome.1).records
  simp only [ofOutcome] at hf ⊢
  split at hf
  · exact h
  · cases hf

theorem records_of_success (options : Options) (e : Evaluation) :
    (ofOutcome options (e, none)).session.records =
      e.session.records ++ if options.extractRecords then extractRecords e.output.text else [] := by
  have hrecords := (collectBinaryPaths_restored e).records
  exact congrArg (· ++ _) hrecords

end Report

/-- The stacks are restored by every request and by every text evaluated on the way, and no text
reaches a frame that was open before it. -/
theorem stacks_restored_on_every_path (env : Environment) (session : Session)
    (request : Request) :
    (request.report env session).session.conditionals = session.conditionals ∧
    (request.report env session).session.includes = session.includes ∧
    (∀ f, (request.report env session).result = .error f →
      (request.report env session).session.records = session.records) ∧
    (∀ levels origin source e,
      (run env levels origin source e).1.session.conditionals = e.session.conditionals ∧
      (run env levels origin source e).1.session.includes = e.session.includes) ∧
    ∀ m, request.Reaches env session m →
      session.conditionals.frames <:+ m.evaluation.session.conditionals.frames ∧
      ∀ a, .resume a ∈ m.jobs → a.outer.frames <:+ m.evaluation.session.conditionals.frames := by
  have hr := request.outcome_restored env session
  rw [request.report_eq]
  refine ⟨?_, ?_, ?_, ?_, ?_⟩
  · exact (Report.ofOutcome_conditionals _ _).trans hr.conditionals
  · exact (Report.ofOutcome_includes _ _).trans hr.includes
  · intro f hf
    exact (Report.ofOutcome_records hf).trans hr.records
  · intro levels origin source e
    have h := run_restores env levels origin source e
    exact ⟨h.conditionals, h.includes⟩
  · intro m hm
    have hl := Moment.leads_layered hm (request.start_layered env session)
    exact ⟨hl.base_suffix, fun a ha => hl.outer_suffix ha⟩

end CampaignMarkup
