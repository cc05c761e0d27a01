import CampaignMarkup.Preprocess.Run

/-! # What an evaluation gives back

A text opens, turns over and closes conditionals of its own. Those that were open before it stay
at the bottom of the stack, frame for frame, and once the text is evaluated they are all there is,
also when it fails. The files being read and the records come back as they were. -/
namespace CampaignMarkup

namespace Conditionals

@[simp] theorem isActive_push (c : Conditionals) (frame : ConditionalFrame) :
    (c.push frame).isActive = (frame.active && c.isActive) := rfl

@[simp] theorem depth_push (c : Conditionals) (frame : ConditionalFrame) :
    (c.push frame).depth = c.depth + 1 := rfl

theorem truncate_of_suffix {outer c : Conditionals} (h : outer.frames <:+ c.frames) :
    c.truncate outer.depth = outer := by
  obtain ⟨top, ht⟩ := h
  simp [truncate, depth, ← ht]

theorem depth_le_of_suffix {outer c : Conditionals} (h : outer.frames <:+ c.frames) :
    outer.depth ≤ c.depth :=
  h.length_le

theorem suffix_push {outer c : Conditionals} (h : outer.frames <:+ c.frames)
    (frame : ConditionalFrame) : outer.frames <:+ (c.push frame).frames :=
  h.trans (List.suffix_cons frame c.frames)

/-- A frame above the outer ones can go: the outer ones are a suffix of what is left. -/
theorem suffix_tail {outer c : Conditionals} (h : outer.frames <:+ c.frames)
    (hd : outer.depth < c.depth) : outer.frames <:+ c.frames.tail := by
  obtain ⟨top, ht⟩ := h
  cases top with
  | nil =>
    rw [List.nil_append] at ht
    rw [depth, depth, ht] at hd
    exact absurd hd (Nat.lt_irrefl _)
  | cons frame top => exact ⟨top, by rw [← ht]; rfl⟩

theorem suffix_pop {outer c : Conditionals} (h : outer.frames <:+ c.frames)
    (hd : outer.depth < c.depth) : outer.frames <:+ c.pop.frames :=
  suffix_tail h hd

theorem suffix_flip {outer c flipped : Conditionals} (h : outer.frames <:+ c.frames)
    (hd : outer.depth < c.depth) (hf : c.flip? = some flipped) :
    outer.frames <:+ flipped.frames := by
  have ht := suffix_tail h hd
  unfold flip? at hf
  split at hf
  · cases hf
  · next frame rest he =>
    split at hf
    · cases hf
    · rw [← Option.some.inj hf]
      rw [he] at ht
      exact ht.trans (List.suffix_cons _ rest)

end Conditionals

namespace Session

/-- The binary paths with one more, unless another spelling of it is among them. -/
def register (paths : List Path) (p : Path) : List Path :=
  if paths.any (·.same p) then paths else paths ++ [p]

theorem addBinaryPath_eq (s : Session) (p : Path) :
    s.addBinaryPath p = { s with binaryPaths := register s.binaryPaths p } := by
  unfold addBinaryPath register
  split <;> rfl

theorem foldl_addBinaryPath (ps : List Path) (s : Session) :
    ps.foldl addBinaryPath s = { s with binaryPaths := ps.foldl register s.binaryPaths } := by
  induction ps generalizing s with
  | nil => rfl
  | cons p ps ih => rw [List.foldl_cons, ih, addBinaryPath_eq, List.foldl_cons]

end Session

/-- The files that stand at a path, unless it is a directory that cannot be walked. -/
def Environment.filesAt (env : Environment) (path : Path) : Except Failure (List Path) :=
  if env.tree.isDirectory path then
    match env.tree.filesBelow path with
    | .error error => .error (.unreadable path (.walk error))
    | .ok files => .ok (files.filter (hasExtension env.options.includeExtensions))
  else .ok [path]

theorem Environment.filesAt_error {env : Environment} {path : Path} {f : Failure}
    (h : env.filesAt path = .error f) : ∃ error, f = .unreadable path (.walk error) := by
  unfold filesAt at h
  split at h
  · split at h
    · next error _ =>
      cases h
      exact ⟨error, rfl⟩
    · cases h
  · cases h

namespace Evaluation

theorem collectBinaryPaths_eq (e : Evaluation) :
    e.collectBinaryPaths =
      { e with
        session := { e.session with
          binaryPaths := e.output.found.foldl Session.register e.session.binaryPaths }
        output := { e.output with found := [] } } := by
  rw [collectBinaryPaths, Session.foldl_addBinaryPath]

/-- The conditionals open, the files being read and the records are those of before. -/
structure Restored (e e' : Evaluation) : Prop where
  conditionals : e'.session.conditionals = e.session.conditionals
  includes : e'.session.includes = e.session.includes
  records : e'.session.records = e.session.records

/-- In the middle of a text: what was open before the text is untouched below its own frames. -/
structure Kept (outer : Conditionals) (e e' : Evaluation) : Prop where
  outer : outer.frames <:+ e'.session.conditionals.frames
  includes : e'.session.includes = e.session.includes
  records : e'.session.records = e.session.records

theorem Restored.refl (e : Evaluation) : Restored e e :=
  ⟨rfl, rfl, rfl⟩

theorem Restored.trans {a b c : Evaluation} (h : Restored a b) (k : Restored b c) :
    Restored a c :=
  ⟨k.conditionals.trans h.conditionals, k.includes.trans h.includes,
    k.records.trans h.records⟩

theorem Restored.active {e e' : Evaluation} (h : Restored e e')
    (he : e.session.conditionals.isActive) : e'.session.conditionals.isActive := by
  rw [h.conditionals]
  exact he

theorem Kept.refl {outer : Conditionals} {e : Evaluation}
    (h : outer.frames <:+ e.session.conditionals.frames) : Kept outer e e :=
  ⟨h, rfl, rfl⟩

theorem Kept.trans {outer : Conditionals} {a b c : Evaluation} (h : Kept outer a b)
    (k : Kept outer b c) : Kept outer a c :=
  ⟨k.outer, k.includes.trans h.includes, k.records.trans h.records⟩

theorem Restored.kept {outer : Conditionals} {e e' : Evaluation} (h : Restored e e')
    (ho : outer.frames <:+ e.session.conditionals.frames) : Kept outer e e' :=
  ⟨h.conditionals ▸ ho, h.includes, h.records⟩

/-- The text is over once the stack is cut back to its outer frames. -/
theorem Kept.restored {e e' : Evaluation} (h : Kept e.session.conditionals e e') :
    Restored e (e'.setConditionals
      (e'.session.conditionals.truncate e.session.conditionals.depth)) :=
  ⟨Conditionals.truncate_of_suffix h.outer, h.includes, h.records⟩

theorem collectBinaryPaths_restored (e : Evaluation) : Restored e e.collectBinaryPaths := by
  rw [collectBinaryPaths_eq]
  exact ⟨rfl, rfl, rfl⟩

theorem define_restored (e : Evaluation) (origin : Origin) (block : DefineBlock) :
    Restored e (e.define origin block).1 := by
  unfold define
  split <;> exact ⟨rfl, rfl, rfl⟩

theorem obey_restored (e : Evaluation) (d : Directive) (site : Site) :
    Restored e (e.obey d site).1 := by
  unfold obey
  split
  · split <;> exact ⟨rfl, rfl, rfl⟩
  · split <;> exact ⟨rfl, rfl, rfl⟩
  all_goals exact ⟨rfl, rfl, rfl⟩

theorem leaveUndefined_restored (env : Environment) (e : Evaluation) (call : MacroCall)
    (raw : String) (site : Site) : Restored e (e.leaveUndefined env call raw site).1 := by
  unfold leaveUndefined
  split <;> exact ⟨rfl, rfl, rfl⟩

theorem openConditional_kept (env : Environment) {outer : Conditionals} {e : Evaluation}
    (ho : outer.frames <:+ e.session.conditionals.frames) (origin : Origin)
    (kind : ConditionalKind) (d : Directive) (site : Site) :
    Kept outer e (e.openConditional env origin kind d site).1 := by
  have opened (active : Bool) : Kept outer e
      (e.setConditionals (e.session.conditionals.push ⟨kind, active, false, site⟩)) :=
    ⟨Conditionals.suffix_push ho _, rfl, rfl⟩
  unfold openConditional
  split
  · split
    · exact opened _
    · exact .refl ho
  · exact opened _

/-- The floor keeps `#else` and `#endif` off the outer frames. -/
theorem directive_kept (env : Environment) {outer : Conditionals} {e : Evaluation}
    (ho : outer.frames <:+ e.session.conditionals.frames) (origin : Origin) (d : Directive)
    (site : Site) : Kept outer e (e.directive env origin outer.depth d site).1 := by
  unfold directive
  split
  · exact openConditional_kept env ho origin _ d site
  · split
    · split
      · exact .refl ho
      · next hd =>
        split
        · next hf => exact ⟨Conditionals.suffix_flip ho (Nat.not_le.mp hd) hf, rfl, rfl⟩
        · exact .refl ho
    · split
      · exact .refl ho
      · next hd => exact ⟨Conditionals.suffix_pop ho (Nat.not_le.mp hd), rfl, rfl⟩
    · split
      · exact (obey_restored e d site).kept ho
      · exact .refl ho

/-- Goes on from an outcome unless it is a failure. -/
def andThen : Outcome → (Evaluation → Outcome) → Outcome
  | (e, none), k => k e
  | (e, some f), _ => (e, some f)

@[simp] theorem andThen_proceed (e : Evaluation) (k : Evaluation → Outcome) :
    andThen (e, none) k = k e := rfl

theorem each_cons {α : Type} (step : α → Evaluation → Outcome) (x : α) (xs : List α)
    (e : Evaluation) : each step (x :: xs) e = andThen (step x e) (each step xs) := by
  rw [each]
  obtain ⟨e', failure⟩ := step x e
  cases failure <;> rfl

theorem nodeAndPaths_eq (env : Environment) (deeper : Option Runner) (origin : Origin)
    (floor : Nat) (n : Node) (e : Evaluation) :
    e.nodeAndPaths env deeper origin floor n =
      andThen (e.node env deeper origin floor n) (fun e => e.collectBinaryPaths.proceed) := by
  rw [nodeAndPaths]
  obtain ⟨e', failure⟩ := e.node env deeper origin floor n
  cases failure <;> rfl

theorem andThen_assoc (outcome : Outcome) (j k : Evaluation → Outcome) :
    andThen (andThen outcome j) k = andThen outcome fun e => andThen (j e) k := by
  obtain ⟨e, failure⟩ := outcome
  cases failure <;> rfl

theorem andThen_self (outcome : Outcome) : andThen outcome proceed = outcome := by
  obtain ⟨e, failure⟩ := outcome
  cases failure <;> rfl

/-- How to go on matters only where the outcome leads. -/
theorem andThen_congr {outcome : Outcome} {j k : Evaluation → Outcome}
    (h : j outcome.1 = k outcome.1) : andThen outcome j = andThen outcome k := by
  obtain ⟨e, failure⟩ := outcome
  cases failure with
  | none => exact h
  | some f => rfl

theorem andThen_invariant {P : Evaluation → Prop} {outcome : Outcome}
    {k : Evaluation → Outcome} (h : P outcome.1) (hk : ∀ e, P e → P (k e).1) :
    P (andThen outcome k).1 := by
  obtain ⟨e, failure⟩ := outcome
  cases failure with
  | none => exact hk e h
  | some f => exact h

/-- Steps that each keep a property keep it all together, also up to the one that fails. -/
theorem each_invariant {α : Type} {P : Evaluation → Prop} {step : α → Evaluation → Outcome}
    {xs : List α} (h : ∀ x ∈ xs, ∀ e, P e → P (step x e).1) {e : Evaluation} (he : P e) :
    P (each step xs e).1 := by
  induction xs generalizing e with
  | nil => exact he
  | cons x xs ih =>
    rw [each_cons]
    exact andThen_invariant (h x List.mem_cons_self e he)
      (fun e' => ih (fun y hy => h y (List.mem_cons_of_mem x hy)))

/-- A runner after which the stacks and the records are those of before. -/
def Restores (run : Runner) : Prop :=
  ∀ origin source e, Restored e (run origin source e).1

def enterFile (e : Evaluation) (identity : Path) : Evaluation :=
  { e with session := { e.session with includes := identity :: e.session.includes } }

def leaveFile (e : Evaluation) : Evaluation :=
  { e with session := { e.session with includes := e.session.includes.tail } }

/-- The file is left on either way out. -/
theorem includeFile_eq (env : Environment) (run : Runner) (source : Site) (path : Path)
    (e : Evaluation) :
    e.includeFile env run source path =
      if e.session.isReading (path.identity env.tree.workdir) then
        e.fail (.includeCycle path source)
      else
        match env.tree.read path with
        | .error error => e.fail (.unreadable path (.file error))
        | .ok text =>
          let outcome := run { file := some path } text
            (e.enterFile (path.identity env.tree.workdir))
          (outcome.1.leaveFile, outcome.2) :=
  rfl

theorem includeFile_restored (env : Environment) {run : Runner} (hr : Restores run)
    (source : Site) (path : Path) (e : Evaluation) :
    Restored e (e.includeFile env run source path).1 := by
  rw [includeFile_eq]
  split
  · exact .refl e
  · split
    · exact .refl e
    · next text _ =>
      have h := hr { file := some path } text (e.enterFile (path.identity env.tree.workdir))
      exact ⟨h.conditionals, congrArg List.tail h.includes, h.records⟩

theorem each_singleton {α : Type} (step : α → Evaluation → Outcome) (x : α) (e : Evaluation) :
    each step [x] e = step x e := by
  rw [each_cons]
  obtain ⟨e', failure⟩ := step x e
  cases failure <;> rfl

/-- A directory is walked before its files are read. -/
theorem includePath_eq (env : Environment) (run : Runner) (source : Site) (path : Path)
    (e : Evaluation) :
    e.includePath env run source path =
      match env.filesAt path with
      | .error f => e.fail f
      | .ok paths => each (includeFile env run source) paths e := by
  unfold includePath Environment.filesAt
  split
  · cases env.tree.filesBelow path <;> rfl
  · exact (each_singleton _ path e).symm

theorem includePath_restored (env : Environment) {run : Runner} (hr : Restores run)
    (source : Site) (path : Path) (e : Evaluation) :
    Restored e (e.includePath env run source path).1 := by
  rw [includePath_eq]
  cases env.filesAt path with
  | error f => exact .refl e
  | ok paths =>
    apply each_invariant (P := Restored e)
    · intro p _ e' he
      exact he.trans (includeFile_restored env hr source p e')
    · exact .refl e

theorem expand_restored (env : Environment) {deeper : Option Runner}
    (hr : ∀ run ∈ deeper, Restores run) (origin : Origin) (call : MacroCall) (raw : String)
    (site : Site) (e : Evaluation) :
    Restored e (e.expand env deeper origin call raw site).1 := by
  simp only [expand]
  split
  · exact ⟨rfl, rfl, rfl⟩
  · split
    · exact .refl e
    · next run =>
      have hr := hr run rfl
      split
      · split
        · exact .refl e
        · exact hr _ _ e
      · split
        · exact includePath_restored env hr site _ e
        · exact leaveUndefined_restored env e call raw site

theorem node_kept (env : Environment) {deeper : Option Runner}
    (hr : ∀ run ∈ deeper, Restores run) {outer : Conditionals} {e : Evaluation}
    (ho : outer.frames <:+ e.session.conditionals.frames) (origin : Origin) (n : Node) :
    Kept outer e (e.node env deeper origin outer.depth n).1 := by
  simp only [node]
  split
  · split <;> exact ⟨ho, rfl, rfl⟩
  · split
    · exact (expand_restored env hr origin _ _ _ e).kept ho
    · exact .refl ho
  · split
    · exact (define_restored e origin _).kept ho
    · exact .refl ho
  · exact directive_kept env ho origin _ _

theorem nodeAndPaths_kept (env : Environment) {deeper : Option Runner}
    (hr : ∀ run ∈ deeper, Restores run) {outer : Conditionals} {e : Evaluation}
    (ho : outer.frames <:+ e.session.conditionals.frames) (origin : Origin) (n : Node) :
    Kept outer e (e.nodeAndPaths env deeper origin outer.depth n).1 := by
  rw [nodeAndPaths_eq]
  exact andThen_invariant (P := Kept outer e) (node_kept env hr ho origin n)
    (fun e' he => he.trans ((collectBinaryPaths_restored e').kept he.outer))

/-- The end of a text's nodes: whatever they left open is cut off, and is a failure unless there
was one already. -/
def finish (floor : Nat) (outcome : Outcome) : Outcome :=
  let e := outcome.1.setConditionals (outcome.1.session.conditionals.truncate floor)
  match outcome.2, outcome.1.session.conditionals.openAbove? floor with
  | some f, _ => e.fail f
  | none, some frame => e.fail (.unterminatedConditional frame.kind frame.site)
  | none, none => e.proceed

theorem nodes_eq_finish (env : Environment) (deeper : Option Runner) (origin : Origin)
    (ns : List Node) (e : Evaluation) :
    e.nodes env deeper origin ns = finish e.session.conditionals.depth
      (each (nodeAndPaths env deeper origin e.session.conditionals.depth) ns e) :=
  rfl

theorem finish_fst (floor : Nat) (outcome : Outcome) :
    (finish floor outcome).1 =
      outcome.1.setConditionals (outcome.1.session.conditionals.truncate floor) := by
  simp only [finish]
  split <;> rfl

theorem nodes_restored (env : Environment) {deeper : Option Runner}
    (hr : ∀ run ∈ deeper, Restores run) (origin : Origin) (ns : List Node) (e : Evaluation) :
    Restored e (e.nodes env deeper origin ns).1 := by
  have hk : Kept e.session.conditionals e
      (each (nodeAndPaths env deeper origin e.session.conditionals.depth) ns e).1 :=
    each_invariant (P := Kept e.session.conditionals e)
      (fun n _ e' he => he.trans (nodeAndPaths_kept env hr he.outer origin n))
      (.refl (List.suffix_refl _))
  rw [nodes_eq_finish, finish_fst]
  exact hk.restored

theorem text_restores (env : Environment) {deeper : Option Runner}
    (hr : ∀ run ∈ deeper, Restores run) : Restores (text env deeper) := by
  intro origin source e
  unfold text
  split
  · exact .refl e
  · exact nodes_restored env hr origin _ e

/-- What evaluates the texts below a text with so many levels left. -/
def below (env : Environment) : Nat → Option Runner
  | 0 => none
  | levels + 1 => some (run env levels)

theorem run_eq_text (env : Environment) (levels : Nat) :
    run env levels = text env (below env levels) := by
  cases levels <;> rfl

/-- What holds of a text if it holds of the texts below it holds of every text. -/
theorem run_induction {P : Runner → Prop} {env : Environment}
    (h : ∀ deeper, (∀ run ∈ deeper, P run) → P (text env deeper)) (levels : Nat) :
    P (run env levels) := by
  induction levels with
  | zero => exact h none (by simp)
  | succ levels ih => exact h (some (run env levels)) (by simpa using ih)

theorem run_restores (env : Environment) (levels : Nat) : Restores (run env levels) :=
  run_induction (fun _ => text_restores env) levels

end Evaluation

end CampaignMarkup
