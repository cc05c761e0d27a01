import CampaignMarkup.Proofs.Preprocess.Stacks
import Mathlib.Logic.Relation

/-! # Evaluation one step at a time

The same evaluation with its pending work written out as a list of jobs, so that one can speak of
the middle of a run. Texts are numbered by how deep they are nested, from 0 up, and nothing bounds
the steps but the test made before a call is expanded. The steps lead from a request to the very
report that the request is answered with. -/
namespace CampaignMarkup

/-- A text being evaluated. -/
structure Activation where
  depth : Nat
  origin : Origin
  /-- What was open when the text was entered. -/
  outer : Conditionals
  rest : List Node
deriving DecidableEq, Repr, Inhabited

inductive Job where
  /-- Begin a text. -/
  | enter (depth : Nat) (origin : Origin) (source : String)
  /-- Go on with a text. -/
  | resume (activation : Activation)
  /-- Register the binary paths that a node has written. -/
  | collect
  /-- Find the files at a path, for a call at the site if there is one. -/
  | walk (depth : Nat) (source : Site) (path : Path)
  /-- Evaluate files, for the same call. -/
  | files (depth : Nat) (source : Site) (paths : List Path)
  /-- The innermost file is read. -/
  | leave
deriving DecidableEq, Repr, Inhabited

/-- What a call comes to before anything deeper is evaluated. -/
inductive Expansion where
  | settled (outcome : Outcome)
  | text (origin : Origin) (source : String)
  | place (target : Path)

namespace Evaluation

def expansion (env : Environment) (depth : Nat) (origin : Origin) (call : MacroCall)
    (raw : String) (site : Site) (e : Evaluation) : Expansion :=
  if call.name = "" then .settled (proceed (e.write ("\x7b" ++ raw ++ "\x7d")))
  else if env.options.maxDepth ≤ depth then
    .settled (e.fail (.depthExceeded call.name env.options.maxDepth site))
  else
    match e.session.macros.lookup call.name with
    | some definition =>
      if (call.bind definition).positional.length ≠ definition.arity then
        .settled (e.fail (.argumentCount call.name definition.arity
          (call.bind definition).positional.length site))
      else
        .text { origin with anchor := some site.line }
          (definition.substitute (call.bind definition).positional (call.bind definition).keywords)
    | none =>
      let target := env.resolver.resolve env.tree e.session.binaryPaths origin.current call.name
      if call.args.isEmpty && env.tree.has target then .place target
      else .settled (e.leaveUndefined env call raw site)

end Evaluation

/-- The expansion carried out with a runner for the next level. -/
def Expansion.carry (env : Environment) (run : Runner) (site : Site) (e : Evaluation) :
    Expansion → Outcome
  | .settled outcome => outcome
  | .text origin source => run origin source e
  | .place target => e.includePath env run site target

namespace Job

/-- A node: what it does at once, and what has to be evaluated before the next one. -/
def performNode (env : Environment) (a : Activation) (e : Evaluation) :
    Node → List Job × Outcome
  | .call call raw line =>
    if e.session.conditionals.isActive then
      match e.expansion env a.depth a.origin call raw (a.origin.site line) with
      | .settled outcome => ([], outcome)
      | .text origin source => ([.enter (a.depth + 1) origin source], e.proceed)
      | .place target => ([.walk (a.depth + 1) (a.origin.site line) target], e.proceed)
    else ([], e.proceed)
  | n => ([], e.node env none a.origin a.outer.depth n)

/-- A job, while nothing has failed: what remains of it and what it did. -/
def perform (env : Environment) (e : Evaluation) : Job → List Job × Outcome
  | .enter depth origin source =>
    match Node.ofSource source with
    | .error error => ([], e.fail (Evaluation.structureFailure origin error))
    | .ok ns => ([.resume ⟨depth, origin, e.session.conditionals, ns⟩], e.proceed)
  | .resume ⟨_, _, outer, []⟩ => ([], Evaluation.finish outer.depth e.proceed)
  | .resume ⟨depth, origin, outer, n :: ns⟩ =>
    let (jobs, outcome) := performNode env ⟨depth, origin, outer, n :: ns⟩ e n
    (jobs ++ [.collect, .resume ⟨depth, origin, outer, ns⟩], outcome)
  | .collect => ([], e.collectBinaryPaths.proceed)
  | .walk depth source path =>
    match env.filesAt path with
    | .error f => ([], e.fail f)
    | .ok paths => ([.files depth source paths], e.proceed)
  | .files _ _ [] => ([], e.proceed)
  | .files depth source (path :: paths) =>
    let identity := path.identity env.tree.workdir
    if e.session.isReading identity then ([], e.fail (.includeCycle path source))
    else
      match env.tree.read path with
      | .error error => ([], e.fail (.unreadable path (.file error)))
      | .ok text =>
        ([.enter depth { file := some path } text, .leave, .files depth source paths],
          (e.enterFile identity).proceed)
  | .leave => ([], e.leaveFile.proceed)

/-- A job that a failure ends. -/
def abandon (e : Evaluation) : Job → Evaluation
  | .resume a => e.setConditionals (e.session.conditionals.truncate a.outer.depth)
  | .leave => e.leaveFile
  | _ => e

end Job

/-- A run between two steps: what is to be done, what has been done, and the failure if there was
one. -/
structure Moment where
  jobs : List Job
  evaluation : Evaluation
  failure : Option Failure := none
deriving Inhabited

namespace Moment

/-- Nothing is left but these jobs. -/
def after (jobs : List Job) (outcome : Outcome) : Moment :=
  ⟨jobs, outcome.1, outcome.2⟩

def next (env : Environment) : Moment → Moment
  | ⟨[], e, failure⟩ => ⟨[], e, failure⟩
  | ⟨job :: rest, e, some f⟩ => ⟨rest, job.abandon e, some f⟩
  | ⟨job :: rest, e, none⟩ => after ((job.perform env e).1 ++ rest) (job.perform env e).2

def Step (env : Environment) (m m' : Moment) : Prop :=
  m.jobs ≠ [] ∧ m' = m.next env

abbrev Leads (env : Environment) : Moment → Moment → Prop :=
  Relation.ReflTransGen (Step env)

theorem step_perform (env : Environment) (job : Job) (rest : List Job) (e : Evaluation) :
    Step env ⟨job :: rest, e, none⟩
      (after ((job.perform env e).1 ++ rest) (job.perform env e).2) :=
  ⟨List.cons_ne_nil _ _, rfl⟩

theorem step_abandon (env : Environment) (job : Job) (rest : List Job) (e : Evaluation)
    (f : Failure) : Step env ⟨job :: rest, e, some f⟩ ⟨rest, job.abandon e, some f⟩ :=
  ⟨List.cons_ne_nil _ _, rfl⟩

end Moment

namespace Evaluation

theorem expand_some (env : Environment) {depth : Nat} (hd : depth < env.options.maxDepth)
    (run : Runner) (origin : Origin) (call : MacroCall) (raw : String) (site : Site)
    (e : Evaluation) :
    e.expand env (some run) origin call raw site =
      (e.expansion env depth origin call raw site).carry env run site e := by
  have hl : ¬ env.options.maxDepth ≤ depth := Nat.not_le.mpr hd
  simp only [expand, expansion, hl, if_false]
  by_cases hn : call.name = ""
  · simp only [hn, if_true]
    rfl
  · simp only [hn, if_false]
    cases e.session.macros.lookup call.name with
    | some definition => dsimp only; split <;> rfl
    | none => dsimp only; split <;> rfl

/-- At the limit no call reaches a text. -/
theorem expand_none (env : Environment) {depth : Nat} (hd : env.options.maxDepth ≤ depth)
    (origin : Origin) (call : MacroCall) (raw : String) (site : Site) (e : Evaluation) :
    e.expansion env depth origin call raw site =
      .settled (e.expand env none origin call raw site) := by
  simp only [expand, expansion, hd, if_true]
  split <;> rfl

end Evaluation

namespace Moment

open Evaluation

variable {env : Environment}

/-- From the start of a text at this depth the steps lead to what the runner gives for it. -/
def Carries (env : Environment) (depth : Nat) (run : Runner) : Prop :=
  ∀ origin source e rest,
    Leads env ⟨.enter depth origin source :: rest, e, none⟩ (after rest (run origin source e))

/-- What lies below a text at this depth: nothing at the limit, else a runner that is carried. -/
inductive Serves (env : Environment) (depth : Nat) : Option Runner → Prop where
  | limit : env.options.maxDepth ≤ depth → Serves env depth none
  | deeper {run : Runner} : depth < env.options.maxDepth → Carries env (depth + 1) run →
      Serves env depth (some run)

theorem files_lead {depth : Nat} {run : Runner} (hr : Carries env depth run) (source : Site)
    (paths : List Path) (e : Evaluation) (rest : List Job) :
    Leads env ⟨.files depth source paths :: rest, e, none⟩
      (after rest (each (includeFile env run source) paths e)) := by
  induction paths generalizing e with
  | nil => exact .single (step_perform env _ rest e)
  | cons path paths ih =>
    have first := step_perform env (.files depth source (path :: paths)) rest e
    simp only [Job.perform] at first
    rw [each_cons, includeFile_eq]
    by_cases hc : e.session.isReading (path.identity env.tree.workdir)
    · simp only [hc, if_true] at first ⊢
      exact .single first
    simp only [hc] at first ⊢
    cases ht : env.tree.read path with
    | error error =>
      rw [ht] at first
      exact .single first
    | ok text =>
      rw [ht] at first
      let entered := e.enterFile (path.identity env.tree.workdir)
      have inside : Leads env ⟨.files depth source (path :: paths) :: rest, e, none⟩
          (after (.leave :: .files depth source paths :: rest)
            (run { file := some path } text entered)) :=
        .head first (hr _ text entered _)
      refine inside.trans ?_
      change Leads env _ (after rest (andThen
        ((run { file := some path } text entered).1.leaveFile,
          (run { file := some path } text entered).2) _))
      obtain ⟨e', failure⟩ := run { file := some path } text entered
      cases failure with
      | none => exact .head (step_perform env .leave _ e') (ih e'.leaveFile)
      | some f =>
        exact .head (step_abandon env .leave _ e' f)
          (.single (step_abandon env (.files depth source paths) rest e'.leaveFile f))

theorem walk_leads {depth : Nat} {run : Runner} (hr : Carries env depth run) (source : Site)
    (path : Path) (e : Evaluation) (rest : List Job) :
    Leads env ⟨.walk depth source path :: rest, e, none⟩
      (after rest (e.includePath env run source path)) := by
  have first := step_perform env (.walk depth source path) rest e
  simp only [Job.perform] at first
  rw [includePath_eq]
  cases hfiles : env.filesAt path with
  | error f =>
    rw [hfiles] at first
    exact .single first
  | ok paths =>
    rw [hfiles] at first
    exact .head first (files_lead hr source paths e rest)

theorem node_leads {depth : Nat} {deeper : Option Runner} (hs : Serves env depth deeper)
    (origin : Origin) (outer : Conditionals) (n : Node) (ns : List Node) (e : Evaluation)
    (rest : List Job) :
    Leads env ⟨.resume ⟨depth, origin, outer, n :: ns⟩ :: rest, e, none⟩
      (after (.collect :: .resume ⟨depth, origin, outer, ns⟩ :: rest)
        (e.node env deeper origin outer.depth n)) := by
  have first := step_perform env (.resume ⟨depth, origin, outer, n :: ns⟩) rest e
  cases n with
  | token t => exact .single first
  | define block => exact .single first
  | directive d line => exact .single first
  | call call raw line =>
    simp only [Job.perform, Job.performNode] at first
    simp only [node]
    by_cases ha : e.session.conditionals.isActive
    · simp only [ha, if_true] at first ⊢
      cases hs with
      | limit hd =>
        rw [expand_none env hd] at first
        exact .single first
      | @deeper run hd hr =>
        rw [expand_some env hd]
        cases hx : e.expansion env depth origin call raw (origin.site line) with
        | settled outcome =>
          rw [hx] at first
          exact .single first
        | text inner source =>
          rw [hx] at first
          exact .head first (hr inner source e _)
        | place target =>
          rw [hx] at first
          exact .head first (walk_leads hr _ target e _)
    · simp only [ha] at first ⊢
      exact .single first

theorem nodes_lead {depth : Nat} {deeper : Option Runner} (hs : Serves env depth deeper)
    (origin : Origin) (outer : Conditionals) (ns : List Node) (e : Evaluation)
    (rest : List Job) :
    Leads env ⟨.resume ⟨depth, origin, outer, ns⟩ :: rest, e, none⟩
      (after rest (finish outer.depth
        (each (nodeAndPaths env deeper origin outer.depth) ns e))) := by
  induction ns generalizing e with
  | nil => exact .single (step_perform env _ rest e)
  | cons n ns ih =>
    rw [each_cons, nodeAndPaths_eq]
    refine (node_leads hs origin outer n ns e rest).trans ?_
    obtain ⟨e', failure⟩ := e.node env deeper origin outer.depth n
    cases failure with
    | none => exact .head (step_perform env .collect _ e') (ih e'.collectBinaryPaths)
    | some f =>
      exact .head (step_abandon env .collect _ e' f)
        (.single (step_abandon env (.resume ⟨depth, origin, outer, ns⟩) rest e' f))

theorem text_carried {depth : Nat} {deeper : Option Runner} (hs : Serves env depth deeper) :
    Carries env depth (text env deeper) := by
  intro origin source e rest
  have first := step_perform env (.enter depth origin source) rest e
  simp only [Job.perform] at first
  unfold text
  cases hn : Node.ofSource source with
  | error error =>
    rw [hn] at first
    exact .single first
  | ok ns =>
    rw [hn] at first
    exact .head first (nodes_lead hs origin e.session.conditionals ns e rest)

/-- Levels left and depth reached make up the limit together. -/
theorem run_carried (env : Environment) (levels depth : Nat)
    (h : depth + levels = env.options.maxDepth) : Carries env depth (run env levels) := by
  induction levels generalizing depth with
  | zero => exact text_carried (.limit (by omega))
  | succ levels ih => exact text_carried (.deeper (by omega) (ih (depth + 1) (by omega)))

end Moment

namespace Evaluation

/-- A runner for calls that come to nothing deeper. -/
def idle (env : Environment) (depth : Nat) : Option Runner :=
  if env.options.maxDepth ≤ depth then none else some fun _ _ e => e.proceed

theorem expansion_settled {env : Environment} {depth : Nat} {origin : Origin} {call : MacroCall}
    {raw : String} {site : Site} {e : Evaluation} {outcome : Outcome}
    (h : e.expansion env depth origin call raw site = .settled outcome) :
    e.expand env (idle env depth) origin call raw site = outcome := by
  by_cases hd : env.options.maxDepth ≤ depth
  · rw [expand_none env hd] at h
    simpa [idle, hd] using h
  · simp only [idle, hd, if_false]
    rw [expand_some env (Nat.not_le.mp hd), h]
    rfl

/-- Only above the limit does a call come to more than an outcome. -/
theorem expansion_deeper {env : Environment} {depth : Nat} {origin : Origin} {call : MacroCall}
    {raw : String} {site : Site} {e : Evaluation}
    (h : ∀ outcome, e.expansion env depth origin call raw site ≠ .settled outcome) :
    depth < env.options.maxDepth := by
  apply Nat.lt_of_not_le
  intro hd
  exact h _ (expand_none env hd origin call raw site e)

end Evaluation

open Evaluation in
/-- What a job can do while nothing has failed, and what then remains of it. -/
inductive Performs (env : Environment) (e : Evaluation) : Job → List Job → Outcome → Prop where
  | malformed {depth origin source error} : Node.ofSource source = .error error →
      Performs env e (.enter depth origin source) [] (e.fail (structureFailure origin error))
  | begun {depth origin source ns} : Node.ofSource source = .ok ns →
      Performs env e (.enter depth origin source)
        [.resume ⟨depth, origin, e.session.conditionals, ns⟩] e.proceed
  | ended {depth origin outer} :
      Performs env e (.resume ⟨depth, origin, outer, []⟩) [] (finish outer.depth e.proceed)
  | atOnce {depth origin outer n ns} :
      Performs env e (.resume ⟨depth, origin, outer, n :: ns⟩)
        [.collect, .resume ⟨depth, origin, outer, ns⟩]
        (e.node env (idle env depth) origin outer.depth n)
  | expanded {depth origin outer call raw line ns inner source} :
      e.session.conditionals.isActive →
      e.expansion env depth origin call raw (origin.site line) = .text inner source →
      Performs env e (.resume ⟨depth, origin, outer, .call call raw line :: ns⟩)
        [.enter (depth + 1) inner source, .collect, .resume ⟨depth, origin, outer, ns⟩] e.proceed
  | included {depth origin outer call raw line ns target} :
      e.session.conditionals.isActive →
      e.expansion env depth origin call raw (origin.site line) = .place target →
      Performs env e (.resume ⟨depth, origin, outer, .call call raw line :: ns⟩)
        [.walk (depth + 1) (origin.site line) target, .collect,
          .resume ⟨depth, origin, outer, ns⟩] e.proceed
  | collected : Performs env e .collect [] e.collectBinaryPaths.proceed
  | unwalkable {depth source path f} : env.filesAt path = .error f →
      Performs env e (.walk depth source path) [] (e.fail f)
  | walked {depth source path paths} : env.filesAt path = .ok paths →
      Performs env e (.walk depth source path) [.files depth source paths] e.proceed
  | noFile {depth source} : Performs env e (.files depth source []) [] e.proceed
  | cyclic {depth source path paths} : e.session.isReading (path.identity env.tree.workdir) →
      Performs env e (.files depth source (path :: paths)) [] (e.fail (.includeCycle path source))
  | unreadable {depth source path paths error} : env.tree.read path = .error error →
      Performs env e (.files depth source (path :: paths)) []
        (e.fail (.unreadable path (.file error)))
  | opened {depth source path paths text} :
      ¬ e.session.isReading (path.identity env.tree.workdir) → env.tree.read path = .ok text →
      Performs env e (.files depth source (path :: paths))
        [.enter depth { file := some path } text, .leave, .files depth source paths]
        (e.enterFile (path.identity env.tree.workdir)).proceed
  | left : Performs env e .leave [] e.leaveFile.proceed

theorem Job.performs_node (env : Environment) (e : Evaluation) (depth : Nat) (origin : Origin)
    (outer : Conditionals) (n : Node) (ns : List Node) :
    Performs env e (.resume ⟨depth, origin, outer, n :: ns⟩)
      (Job.perform env e (.resume ⟨depth, origin, outer, n :: ns⟩)).1
      (Job.perform env e (.resume ⟨depth, origin, outer, n :: ns⟩)).2 := by
  have settled {outcome : Outcome}
      (h : e.node env (Evaluation.idle env depth) origin outer.depth n = outcome) :
      Performs env e (.resume ⟨depth, origin, outer, n :: ns⟩)
        [.collect, .resume ⟨depth, origin, outer, ns⟩] outcome :=
    h ▸ .atOnce
  cases n with
  | token t => exact settled rfl
  | define block => exact settled rfl
  | directive d line => exact settled rfl
  | call call raw line =>
    simp only [Job.perform, Job.performNode]
    by_cases ha : e.session.conditionals.isActive
    · simp only [ha, if_true]
      cases hx : e.expansion env depth origin call raw (origin.site line) with
      | settled outcome =>
        refine settled ?_
        simp only [Evaluation.node, ha, if_true]
        exact Evaluation.expansion_settled hx
      | text inner source => exact .expanded ha hx
      | place target => exact .included ha hx
    · simp only [ha]
      refine settled ?_
      simp only [Evaluation.node, ha]
      rfl

theorem Job.performs (env : Environment) (e : Evaluation) (job : Job) :
    Performs env e job (job.perform env e).1 (job.perform env e).2 := by
  cases job with
  | enter depth origin source =>
    simp only [Job.perform]
    split
    · next h => exact .malformed h
    · next h => exact .begun h
  | resume a =>
    obtain ⟨depth, origin, outer, ns⟩ := a
    cases ns with
    | nil => exact .ended
    | cons n ns => exact Job.performs_node env e depth origin outer n ns
  | collect => exact .collected
  | walk depth source path =>
    simp only [Job.perform]
    split
    · next h => exact .unwalkable h
    · next h => exact .walked h
  | files depth source paths =>
    cases paths with
    | nil => exact .noFile
    | cons path paths =>
      simp only [Job.perform]
      split
      · next hc => exact .cyclic hc
      · next hc =>
        split
        · next h => exact .unreadable h
        · next h => exact .opened hc h
  | leave => exact .left

/-- Either the first job is performed or, after a failure, given up. -/
theorem Moment.step_cases {env : Environment} {m m' : Moment} (h : m.Step env m') :
    ∃ job rest, m.jobs = job :: rest ∧
      ((∃ f, m.failure = some f ∧ m' = ⟨rest, job.abandon m.evaluation, some f⟩) ∨
        (m.failure = none ∧ ∃ jobs outcome, Performs env m.evaluation job jobs outcome ∧
          m' = after (jobs ++ rest) outcome)) := by
  obtain ⟨jobs, e, failure⟩ := m
  obtain ⟨hne, rfl⟩ := h
  cases jobs with
  | nil => exact absurd rfl hne
  | cons job rest =>
    refine ⟨job, rest, rfl, ?_⟩
    cases failure with
    | none => exact .inr ⟨rfl, _, _, job.performs env e, rfl⟩
    | some f => exact .inl ⟨f, rfl, rfl⟩

/-- What a run can be asked for. -/
inductive Request where
  | text (file : Option Path) (source : String)
  | place (path : Path)
deriving DecidableEq, Repr, Inhabited

namespace Request

open Evaluation Moment

def report (env : Environment) (session : Session) : Request → Report
  | .text file source => preprocess env file source session
  | .place path => subparse env path session

/-- What the evaluation comes to that answers a request. -/
def outcome (env : Environment) (session : Session) : Request → Outcome
  | .text none source => run env env.options.maxDepth {} source { session }
  | .text (some path) source =>
    let inside := run env env.options.maxDepth { file := some path } source
      (enterFile { session } (path.identity env.tree.workdir))
    (inside.1.leaveFile, inside.2)
  | .place path => includePath env (run env env.options.maxDepth) {} path { session }

theorem report_eq (env : Environment) (session : Session) (request : Request) :
    request.report env session = Report.ofOutcome env.options (request.outcome env session) := by
  cases request with
  | text file source => cases file <;> rfl
  | place path => rfl

def start (env : Environment) (session : Session) : Request → Moment
  | .text none source => ⟨[.enter 0 {} source], { session }, none⟩
  | .text (some path) source =>
    ⟨[.enter 0 { file := some path } source, .leave],
      enterFile { session } (path.identity env.tree.workdir), none⟩
  | .place path => ⟨[.walk 0 {} path], { session }, none⟩

/-- A moment of the run that answers a request. -/
def Reaches (env : Environment) (session : Session) (request : Request) (m : Moment) : Prop :=
  Leads env (request.start env session) m

theorem reaches_outcome (env : Environment) (session : Session) (request : Request) :
    request.Reaches env session (after [] (request.outcome env session)) := by
  have hr := run_carried env env.options.maxDepth 0 (Nat.zero_add _)
  cases request with
  | text file source =>
    cases file with
    | none => exact hr {} source { session } []
    | some path =>
      refine (hr _ source _ _).trans ?_
      simp only [outcome]
      obtain ⟨e, failure⟩ := run env env.options.maxDepth { file := some path } source
        (enterFile { session } (path.identity env.tree.workdir))
      cases failure with
      | none => exact .single (step_perform env .leave [] e)
      | some f => exact .single (step_abandon env .leave [] e f)
  | place path => exact walk_leads hr {} path { session } []

end Request

end CampaignMarkup
