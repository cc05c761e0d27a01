import CampaignMarkup.Proofs.Macros.OrderedRows
import CampaignMarkup.Proofs.Preprocess.Stepwise

/-! # Relaxed options

A higher limit or a laxer policy matters only to a run that ended for want of it. The two runs are
followed side by side: as long as neither the limit nor an undefined call stops the stricter one,
they are in the same state. -/
namespace CampaignMarkup

namespace Failure

/-- The failures that other options may spare a run. -/
def isAvertible : Failure → Bool
  | .depthExceeded .. | .undefinedMacro .. => true
  | _ => false

end Failure

/-- Options that ask no more than the strict ones: the same question about versions, the same files
of a directory, and at least as many levels. -/
structure Options.Relaxes (strict relaxed : Options) : Prop where
  policy : strict.undefinedMacro = .error
  referenceVersion : relaxed.referenceVersion = strict.referenceVersion
  includeExtensions : relaxed.includeExtensions = strict.includeExtensions
  maxDepth : strict.maxDepth ≤ relaxed.maxDepth

namespace Evaluation

/-- The second outcome is the first, unless that is a failure which could be averted. -/
def Upheld (strict relaxed : Outcome) : Prop :=
  (∀ f ∈ strict.2, f.isAvertible = false) → relaxed = strict

theorem Upheld.refl (outcome : Outcome) : Upheld outcome outcome :=
  fun _ => rfl

theorem upheld_of_avertible (e : Evaluation) {f : Failure} (hf : f.isAvertible)
    (relaxed : Outcome) : Upheld (e.fail f) relaxed := by
  intro h
  exact absurd (h f rfl) (by simp [hf])

theorem Upheld.andThen {strict relaxed : Outcome} {j k : Evaluation → Outcome}
    (h : Upheld strict relaxed) (hk : ∀ e, Upheld (j e) (k e)) :
    Upheld (Evaluation.andThen strict j) (Evaluation.andThen relaxed k) := by
  obtain ⟨e, failure⟩ := strict
  cases failure with
  | none =>
    rw [h (by simp)]
    exact hk e
  | some f =>
    intro hf
    rw [h hf]
    rfl

theorem each_upheld {α : Type} {step step' : α → Evaluation → Outcome}
    (h : ∀ x e, Upheld (step x e) (step' x e)) (xs : List α) (e : Evaluation) :
    Upheld (each step xs e) (each step' xs e) := by
  induction xs generalizing e with
  | nil => exact .refl _
  | cons x xs ih =>
    rw [each_cons, each_cons]
    exact (h x e).andThen ih

theorem finish_upheld {strict relaxed : Outcome} (h : Upheld strict relaxed) (floor : Nat) :
    Upheld (finish floor strict) (finish floor relaxed) := by
  intro hf
  rw [h]
  intro f hs
  obtain ⟨e, failure⟩ := strict
  cases hs
  exact hf f rfl

/-- A runner that does the same as a stricter one wherever that is not stopped. -/
def Upholds (strict relaxed : Runner) : Prop :=
  ∀ origin source e, Upheld (strict origin source e) (relaxed origin source e)

/-- Where the stricter text may go deeper, so may the other. -/
def UpholdsBelow (strict relaxed : Option Runner) : Prop :=
  ∀ run ∈ strict, ∃ run' ∈ relaxed, Upholds run run'

section

variable {env : Environment} {o : Options} (h : env.options.Relaxes o)

include h

theorem test_relaxed (e : Evaluation) (origin : Origin) (question : Question) (d : Directive)
    (site : Site) :
    e.test { env with options := o } origin question d site =
      e.test env origin question d site := by
  cases question with
  | defined => rfl
  | present => rfl
  | version => simp only [test, testVersion, h.referenceVersion]

theorem directive_relaxed (e : Evaluation) (origin : Origin) (floor : Nat) (d : Directive)
    (site : Site) :
    e.directive { env with options := o } origin floor d site =
      e.directive env origin floor d site := by
  simp only [directive, openConditional, test_relaxed h]

omit h in
theorem includeFile_upheld {run run' : Runner} (hr : Upholds run run') (source : Site)
    (path : Path) (e : Evaluation) :
    Upheld (e.includeFile env run source path)
      (e.includeFile { env with options := o } run' source path) := by
  simp only [includeFile_eq]
  split
  · exact .refl _
  · cases env.tree.read path with
    | error error => exact .refl _
    | ok text =>
      intro hf
      have hsame := hr { file := some path } text
        (e.enterFile (path.identity env.tree.workdir)) hf
      simp only [hsame]

theorem includePath_upheld {run run' : Runner} (hr : Upholds run run') (source : Site)
    (path : Path) (e : Evaluation) :
    Upheld (e.includePath env run source path)
      (e.includePath { env with options := o } run' source path) := by
  have hfiles : Environment.filesAt { env with options := o } path = env.filesAt path := by
    simp only [Environment.filesAt, h.includeExtensions]
  rw [includePath_eq, includePath_eq, hfiles]
  cases env.filesAt path with
  | error f => exact .refl _
  | ok paths => exact each_upheld (fun p e => includeFile_upheld hr source p e) paths e

theorem expand_upheld {deeper deeper' : Option Runner} (hd : UpholdsBelow deeper deeper')
    (origin : Origin) (call : MacroCall) (raw : String) (site : Site) (e : Evaluation) :
    Upheld (e.expand env deeper origin call raw site)
      (e.expand { env with options := o } deeper' origin call raw site) := by
  simp only [expand]
  split
  · exact .refl _
  · cases deeper with
    | none => exact upheld_of_avertible e rfl _
    | some run =>
      obtain ⟨run', hrun', hr⟩ := hd run rfl
      cases hrun'
      cases e.session.macros.lookup call.name with
      | some definition =>
        dsimp only
        split
        · exact .refl _
        · exact hr _ _ e
      | none =>
        dsimp only
        split
        · exact includePath_upheld h hr site _ e
        · rw [leaveUndefined, h.policy]
          exact upheld_of_avertible e rfl _

theorem node_upheld {deeper deeper' : Option Runner} (hd : UpholdsBelow deeper deeper')
    (origin : Origin) (floor : Nat) (n : Node) (e : Evaluation) :
    Upheld (e.node env deeper origin floor n)
      (e.node { env with options := o } deeper' origin floor n) := by
  cases n with
  | token t => exact .refl _
  | define block => exact .refl _
  | directive d line =>
    simp only [node, directive_relaxed h]
    exact .refl _
  | call call raw line =>
    simp only [node]
    split
    · exact expand_upheld h hd origin call raw _ e
    · exact .refl _

theorem text_upholds {deeper deeper' : Option Runner} (hd : UpholdsBelow deeper deeper') :
    Upholds (text env deeper) (text { env with options := o } deeper') := by
  intro origin source e
  unfold text
  split
  · exact .refl _
  · rw [nodes_eq_finish, nodes_eq_finish]
    refine finish_upheld (each_upheld (fun n e => ?_) _ e) _
    rw [nodeAndPaths_eq, nodeAndPaths_eq]
    exact (node_upheld h hd origin _ n e).andThen (fun e => .refl _)

/-- By induction on the levels the stricter run has left; the other has as many or more. -/
theorem run_upholds {levels levels' : Nat} (hl : levels ≤ levels') :
    Upholds (run env levels) (run { env with options := o } levels') := by
  induction levels generalizing levels' with
  | zero =>
    rw [run_eq_text, run_eq_text]
    exact text_upholds h (fun run hrun => by cases hrun)
  | succ levels ih =>
    obtain ⟨more, rfl⟩ := Nat.exists_eq_add_of_lt hl
    refine text_upholds h (fun run hrun => ?_)
    cases hrun
    exact ⟨_, rfl, ih (Nat.le_add_right levels more)⟩

theorem outcome_upheld (session : Session) (request : Request) :
    Upheld (request.outcome env session)
      (request.outcome { env with options := o } session) := by
  have hr := run_upholds h h.maxDepth
  cases request with
  | text file source =>
    cases file with
    | none => exact hr {} source { session }
    | some path =>
      intro hf
      have hsame := hr { file := some path } source
        (enterFile { session } (path.identity env.tree.workdir)) hf
      simp only [Request.outcome, hsame]
  | place path => exact includePath_upheld h hr {} path { session }

end

end Evaluation

namespace Report

/-- What is said of a finished evaluation hangs on the options only in the records. -/
theorem ofOutcome_options (o o' : Options) (outcome : Outcome) :
    (ofOutcome o outcome).result = (ofOutcome o' outcome).result ∧
    (ofOutcome o outcome).warnings = (ofOutcome o' outcome).warnings ∧
    (ofOutcome o outcome).session.macros = (ofOutcome o' outcome).session.macros ∧
    (ofOutcome o outcome).session.binaryPaths = (ofOutcome o' outcome).session.binaryPaths ∧
    (ofOutcome o outcome).session.textdomain = (ofOutcome o' outcome).session.textdomain := by
  obtain ⟨e, failure⟩ := outcome
  cases failure <;> exact ⟨rfl, rfl, rfl, rfl, rfl⟩

theorem ofOutcome_ok {o : Options} {outcome : Outcome} {text : String}
    (h : (ofOutcome o outcome).result = .ok text) : outcome.2 = none := by
  obtain ⟨e, failure⟩ := outcome
  cases failure with
  | none => rfl
  | some f => cases h

theorem ofOutcome_error {o : Options} {outcome : Outcome} {f : Failure}
    (h : (ofOutcome o outcome).result = .error f) : outcome.2 = some f := by
  obtain ⟨e, failure⟩ := outcome
  cases failure with
  | none => cases h
  | some g =>
    cases h
    rfl

end Report

/-- Relaxing the options never changes the answer of a run that succeeds, nor that of one which
fails for any other reason than the limit or an undefined call. -/
theorem relaxed_options_keep_the_answer {env : Environment} {o : Options}
    (h : env.options.Relaxes o) (session : Session) (request : Request) :
    (∀ text, (request.report env session).result = .ok text →
      (request.report { env with options := o } session).result = .ok text ∧
      (request.report { env with options := o } session).session.macros =
        (request.report env session).session.macros ∧
      (request.report { env with options := o } session).session.binaryPaths =
        (request.report env session).session.binaryPaths ∧
      (request.report { env with options := o } session).session.textdomain =
        (request.report env session).session.textdomain) ∧
    ∀ f, (request.report env session).result = .error f → f.isAvertible = false →
      (request.report { env with options := o } session).result = .error f := by
  have hu := Evaluation.outcome_upheld h session request
  simp only [Request.report_eq]
  obtain ⟨hresult, _, hmacros, hpaths, hdomain⟩ :=
    Report.ofOutcome_options o env.options (request.outcome env session)
  constructor
  · intro text htext
    have hsame := hu (by simp [Report.ofOutcome_ok htext])
    rw [hsame]
    exact ⟨hresult.trans htext, hmacros, hpaths, hdomain⟩
  · intro f hf hstays
    have hsame := hu (by simpa [Report.ofOutcome_error hf] using hstays)
    rw [hsame]
    exact hresult.trans hf

/-- One level, and calls of nothing are failures. -/
def exacting : Options := { maxDepth := 1 }

def lenient : Options :=
  { maxDepth := 9, undefinedMacro := .passthrough, extractRecords := false }

def greeting : Definition := { name := "GREET", body := "Hello" }

def greeted : Session := { macros := .ofList [greeting] }

/-- The call takes the one level there is. -/
theorem greeting_called (env : Environment) (h : env.options.maxDepth = 1) :
    ((Request.text none "\x7bGREET\x7d").report env greeted).result = .ok "Hello" := by
  have hlookup : greeted.macros.lookup "GREET" = some greeting := by
    rw [greeted, MacroTable.lookup_eq (MacroTable.ofList_consistent _), MacroTable.rows_ofList]
    rfl
  have hcall : Node.ofSource "\x7bGREET\x7d" = .ok [.call ⟨"GREET", []⟩ "GREET" 0] := by
    decide +kernel
  have hbody : Node.ofSource (greeting.substitute [] []) =
      .ok [.token ⟨.text, "Hello", ⟨0, 5⟩⟩] := by decide +kernel
  let after : Outcome := ({ session := greeted, output := ({} : Output).write "Hello" }, none)
  have hinner : Evaluation.run env 0 { anchor := some 0 } (greeting.substitute [] [])
      { session := greeted } = after := by
    rw [Evaluation.run, Evaluation.text, hbody]
    rfl
  have hexpand : Evaluation.expand env (some (Evaluation.run env 0)) {} ⟨"GREET", []⟩ "GREET" {}
      { session := greeted } = after := by
    rw [← hinner, Evaluation.expand, hlookup]
    rfl
  have houter : Evaluation.run env 1 {} "\x7bGREET\x7d" { session := greeted } = after := by
    rw [Evaluation.run, Evaluation.text, hcall]
    simp only [Evaluation.nodes_eq_finish, Evaluation.each_cons, Evaluation.nodeAndPaths_eq]
    change Evaluation.finish _ (Evaluation.andThen (Evaluation.andThen
      (Evaluation.expand env (some (Evaluation.run env 0)) {} ⟨"GREET", []⟩ "GREET" {}
        { session := greeted }) _) _) = _
    rw [hexpand]
    rfl
  have htext : (({} : Output).write "Hello").text = "Hello" := by decide +kernel
  rw [Request.report_eq, Request.outcome, h, houter]
  exact congrArg Except.ok htext

theorem greeting_and_error_survive_leniency :
    exacting.Relaxes lenient ∧
    ((Request.text none "\x7bGREET\x7d").report ⟨default, {}, exacting⟩ greeted).result =
      .ok "Hello" ∧
    ((Request.text none "\x7bGREET\x7d").report ⟨default, {}, lenient⟩ greeted).result =
      .ok "Hello" ∧
    ((Request.text none "\x7b\x7d\n#error stop").report ⟨default, {}, exacting⟩ {}).result =
      .error (.userError "stop" ⟨none, 1⟩) ∧
    ((Request.text none "\x7b\x7d\n#error stop").report ⟨default, {}, lenient⟩ {}).result =
      .error (.userError "stop" ⟨none, 1⟩) := by
  have h : (Environment.options ⟨default, {}, exacting⟩).Relaxes lenient :=
    ⟨rfl, rfl, rfl, by decide⟩
  have hcall := greeting_called ⟨default, {}, exacting⟩ rfl
  have herror : ((Request.text none "\x7b\x7d\n#error stop").report ⟨default, {}, exacting⟩
      {}).result = .error (.userError "stop" ⟨none, 1⟩) := by decide +kernel
  exact ⟨h, hcall, ((relaxed_options_keep_the_answer h greeted _).1 _ hcall).1, herror,
    (relaxed_options_keep_the_answer h {} _).2 _ herror rfl⟩

end CampaignMarkup
