import CampaignMarkup.Proofs.Preprocess.Passage
import CampaignMarkup.Proofs.Preprocess.Stepwise

/-! # What a run writes

All that a run does to its output is to write: text is put behind text, and the paths found on the
way are taken from time to time. However the writing falls into pieces, output and binary paths are
in the end what writing the whole text at once makes of them. -/
namespace CampaignMarkup

namespace Evaluation

/-- The binary paths, with those that are found and not yet taken. -/
def knownPaths (e : Evaluation) : List Path :=
  e.output.found.foldl Session.register e.session.binaryPaths

/-- Nothing was done to output and binary paths but that the text was written. -/
structure Emits (s : String) (e e' : Evaluation) : Prop where
  output : e'.output.taken = (e.output.taken.write s).taken
  paths : e'.knownPaths = (e.output.taken.write s).found.foldl Session.register e.knownPaths

/-- Some text was written. -/
def Grows (e e' : Evaluation) : Prop :=
  ∃ s, Emits s e e'

theorem Emits.silent {e e' : Evaluation} (houtput : e'.output = e.output)
    (hpaths : e'.session.binaryPaths = e.session.binaryPaths) : Emits "" e e' := by
  constructor
  · rw [houtput]
    rfl
  · rw [knownPaths, houtput, hpaths]
    rfl

theorem Emits.trans {s t : String} {a b c : Evaluation} (h : Emits s a b) (k : Emits t b c) :
    Emits (s ++ t) a c := by
  obtain ⟨htaken, hfound⟩ := Output.write_taken (a.output.taken.write s) t
  constructor
  · rw [k.output, h.output, Output.write_append, htaken]
  · rw [k.paths, h.paths, h.output, Output.write_append, hfound, List.foldl_append]

theorem Emits.write (e : Evaluation) (s : String) : Emits s e (e.write s) := by
  obtain ⟨htaken, hfound⟩ := Output.write_taken e.output s
  constructor
  · exact htaken
  · change (e.output.write s).found.foldl Session.register e.session.binaryPaths = _
    rw [hfound, List.foldl_append]
    rfl

theorem Emits.collect (e : Evaluation) : Emits "" e e.collectBinaryPaths := by
  rw [collectBinaryPaths_eq]
  exact ⟨rfl, rfl⟩

theorem Grows.silent {e e' : Evaluation} (houtput : e'.output = e.output)
    (hpaths : e'.session.binaryPaths = e.session.binaryPaths) : Grows e e' :=
  ⟨"", .silent houtput hpaths⟩

theorem Grows.refl (e : Evaluation) : Grows e e :=
  .silent rfl rfl

theorem Grows.trans {a b c : Evaluation} (h : Grows a b) (k : Grows b c) : Grows a c := by
  obtain ⟨s, hs⟩ := h
  obtain ⟨t, ht⟩ := k
  exact ⟨s ++ t, hs.trans ht⟩

theorem define_grows (e : Evaluation) (origin : Origin) (block : DefineBlock) :
    Grows e (e.define origin block).1 := by
  unfold define
  split <;> exact .silent rfl rfl

theorem obey_grows (e : Evaluation) (d : Directive) (site : Site) :
    Grows e (e.obey d site).1 := by
  unfold obey
  split
  · split <;> exact .silent rfl rfl
  · split <;> exact .silent rfl rfl
  all_goals exact .silent rfl rfl

theorem directive_grows (env : Environment) (e : Evaluation) (origin : Origin) (floor : Nat)
    (d : Directive) (site : Site) : Grows e (e.directive env origin floor d site).1 := by
  unfold directive
  split
  · unfold openConditional
    split
    · split <;> exact .silent rfl rfl
    · exact .silent rfl rfl
  · split
    · split
      · exact .refl e
      · split <;> exact .silent rfl rfl
    · split <;> exact .silent rfl rfl
    · split
      · exact obey_grows e d site
      · exact .refl e

theorem leaveUndefined_grows (env : Environment) (e : Evaluation) (call : MacroCall)
    (raw : String) (site : Site) : Grows e (e.leaveUndefined env call raw site).1 := by
  unfold leaveUndefined
  split
  · exact .refl e
  · have hwarned : ∀ words, Grows e (e.warn site words) := fun _ => .silent rfl rfl
    exact (hwarned _).trans ⟨_, .write _ _⟩

/-- A runner that does nothing to the output but write. -/
def Writes (run : Runner) : Prop :=
  ∀ origin source e, Grows e (run origin source e).1

theorem includeFile_grows (env : Environment) {run : Runner} (hr : Writes run) (source : Site)
    (path : Path) (e : Evaluation) : Grows e (e.includeFile env run source path).1 := by
  rw [includeFile_eq]
  split
  · exact .refl e
  · split
    · exact .refl e
    · next text _ =>
      have hentered : Grows e (e.enterFile (path.identity env.tree.workdir)) := .silent rfl rfl
      have hrun := hr { file := some path } text (e.enterFile (path.identity env.tree.workdir))
      exact (hentered.trans hrun).trans (.silent rfl rfl)

theorem includePath_grows (env : Environment) {run : Runner} (hr : Writes run) (source : Site)
    (path : Path) (e : Evaluation) : Grows e (e.includePath env run source path).1 := by
  rw [includePath_eq]
  cases env.filesAt path with
  | error f => exact .refl e
  | ok paths =>
    apply each_invariant (P := Grows e)
    · intro p _ e' he
      exact he.trans (includeFile_grows env hr source p e')
    · exact .refl e

theorem expand_grows (env : Environment) {deeper : Option Runner}
    (hr : ∀ run ∈ deeper, Writes run) (origin : Origin) (call : MacroCall) (raw : String)
    (site : Site) (e : Evaluation) : Grows e (e.expand env deeper origin call raw site).1 := by
  simp only [expand]
  split
  · exact ⟨_, .write e _⟩
  · split
    · exact .refl e
    · next run =>
      have hr := hr run rfl
      split
      · split
        · exact .refl e
        · exact hr _ _ e
      · split
        · exact includePath_grows env hr site _ e
        · exact leaveUndefined_grows env e call raw site

theorem writeToken_grows (e : Evaluation) (t : Token) :
    Grows e { e with output := e.output.writeToken t } := by
  unfold Output.writeToken
  split
  · exact .refl e
  · exact ⟨_, .write e _⟩
  · exact ⟨_, .write e _⟩

theorem node_grows (env : Environment) {deeper : Option Runner} (hr : ∀ run ∈ deeper, Writes run)
    (origin : Origin) (floor : Nat) (n : Node) (e : Evaluation) :
    Grows e (e.node env deeper origin floor n).1 := by
  simp only [node]
  split
  · split
    · exact writeToken_grows e _
    · exact .refl e
  · split
    · exact expand_grows env hr origin _ _ _ e
    · exact .refl e
  · split
    · exact define_grows e origin _
    · exact .refl e
  · exact directive_grows env e origin floor _ _

theorem text_writes (env : Environment) {deeper : Option Runner}
    (hr : ∀ run ∈ deeper, Writes run) : Writes (text env deeper) := by
  intro origin source e
  unfold text
  split
  · exact .refl e
  · next ns _ =>
    have hnodes : Grows e
        (each (nodeAndPaths env deeper origin e.session.conditionals.depth) ns e).1 := by
      apply each_invariant (P := Grows e)
      · intro n _ e' he
        rw [nodeAndPaths_eq]
        refine andThen_invariant (P := Grows e) (he.trans (node_grows env hr origin _ n e')) ?_
        intro e'' he''
        exact he''.trans ⟨"", .collect e''⟩
      · exact .refl e
    rw [nodes_eq_finish, finish_fst]
    exact hnodes.trans (.silent rfl rfl)

theorem run_writes_only (env : Environment) (levels : Nat) : Writes (run env levels) :=
  run_induction (fun _ => text_writes env) levels

end Evaluation

open Evaluation in
theorem Request.outcome_grows (env : Environment) (session : Session) (request : Request) :
    Grows { session } (request.outcome env session).1 := by
  have hr := run_writes_only env env.options.maxDepth
  cases request with
  | text file source =>
    cases file with
    | none => exact hr {} source { session }
    | some path =>
      let entered := enterFile { session } (path.identity env.tree.workdir)
      have hentered : Grows { session } entered := .silent rfl rfl
      exact (hentered.trans (hr { file := some path } source entered)).trans (.silent rfl rfl)
  | place path => exact includePath_grows env hr {} path { session }

namespace Evaluation

theorem Emits.text_eq {s : String} {e e' : Evaluation} (h : Emits s e e') :
    e'.output.text = e.output.text ++ s := by
  have htext := congrArg Output.text h.output
  change e'.output.text = (e.output.taken.write s).text at htext
  rw [htext, Output.write_text]
  rfl

end Evaluation

namespace Report

theorem written_of_ok {options : Options} {outcome : Outcome} {text : String}
    (h : (ofOutcome options outcome).result = .ok text) :
    outcome.2 = none ∧ outcome.1.output.text = text := by
  obtain ⟨e, failure⟩ := outcome
  simp only [ofOutcome, Evaluation.collectBinaryPaths_eq] at h
  cases failure with
  | none => exact ⟨rfl, Except.ok.inj h⟩
  | some f => cases h

end Report

end CampaignMarkup
