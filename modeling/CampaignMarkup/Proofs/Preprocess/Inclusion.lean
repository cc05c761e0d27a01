import CampaignMarkup.Proofs.Preprocess.OpenTexts
import CampaignMarkup.Proofs.Preprocess.Restoration

/-! # No file inside itself

A session is reading the files whose texts are open, each under the normal form of its path from
the root, and no two of these are the same. A file is refused as a cycle exactly where one of them
is its own. Between runs a session reads nothing, whatever it was used for. -/
namespace CampaignMarkup

/-- What is done with a session from outside. -/
inductive Use where
  /-- Another table takes the place of the macros. -/
  | reseed (macros : MacroTable)
  | register (path : Path)
  | run (env : Environment) (request : Request)
deriving Inhabited

namespace Session

def use (s : Session) : Use → Session
  | .reseed macros => { s with macros }
  | .register path => s.addBinaryPath path
  | .run env request => (request.report env s).session

/-- A new session after these uses. -/
def used (uses : List Use) : Session :=
  uses.foldl use {}

theorem use_includes (s : Session) (u : Use) : (s.use u).includes = s.includes := by
  cases u with
  | reseed macros => rfl
  | register path =>
    rw [use, addBinaryPath_eq]
  | run env request =>
    rw [use, request.report_eq, Report.ofOutcome_includes]
    exact (request.outcome_restored env s).includes

/-- Between runs no file is open. -/
theorem used_includes (uses : List Use) : (used uses).includes = [] := by
  have kept : ∀ s : Session, (uses.foldl use s).includes = s.includes := by
    induction uses with
    | nil => exact fun _ => rfl
    | cons u uses ih =>
      intro s
      rw [List.foldl_cons, ih, use_includes]
  exact kept {}

end Session

/-- No two of these paths are spellings of one. -/
def Apart (paths : List Path) : Prop :=
  paths.Pairwise fun p q => p.same q = false

theorem Path.same_comm (p q : Path) : p.same q = q.same p :=
  Bool.beq_comm

theorem Session.isReading_iff (s : Session) (key : Path) :
    s.isReading key ↔ ∃ open_ ∈ s.includes, open_.same key := by
  simp [isReading]

theorem Apart.cons {paths : List Path} {key : Path} (h : Apart paths)
    (hnew : ∀ p ∈ paths, p.same key = false) : Apart (key :: paths) := by
  refine List.pairwise_cons.mpr ⟨?_, h⟩
  intro p hp
  rw [Path.same_comm]
  exact hnew p hp

/-- A job leaves the files being read alone, or reads the innermost one out, or takes up one that is
not being read. -/
theorem Job.perform_includes (env : Environment) (e : Evaluation) (job : Job) :
    (job.perform env e).2.1.session.includes = e.session.includes ∨
    (job.perform env e).2.1.session.includes = e.session.includes.tail ∨
    ∃ key, ¬ e.session.isReading key ∧
      (job.perform env e).2.1.session.includes = key :: e.session.includes := by
  cases job with
  | enter depth origin source =>
    left
    simp only [Job.perform]
    split <;> rfl
  | resume a =>
    left
    obtain ⟨depth, origin, outer, ns⟩ := a
    cases ns with
    | nil => exact congrArg (·.session.includes) (Evaluation.finish_fst outer.depth e.proceed)
    | cons n ns => exact (Job.performNode_deed env ⟨depth, origin, outer, n :: ns⟩ e n).includes
  | collect => exact .inl (Evaluation.collectBinaryPaths_restored e).includes
  | walk depth source path =>
    left
    simp only [Job.perform]
    split <;> rfl
  | files depth source paths =>
    cases paths with
    | nil => exact .inl rfl
    | cons path paths =>
      simp only [Job.perform]
      split
      · exact .inl rfl
      · next hnew =>
        split
        · exact .inl rfl
        · exact .inr (.inr ⟨_, hnew, rfl⟩)
  | leave => exact .inr (.inl rfl)

theorem Job.abandon_includes (e : Evaluation) (job : Job) :
    (job.abandon e).session.includes = e.session.includes ∨
    (job.abandon e).session.includes = e.session.includes.tail := by
  cases job with
  | leave => exact .inr rfl
  | enter _ _ _ => exact .inl rfl
  | resume _ => exact .inl rfl
  | collect => exact .inl rfl
  | walk _ _ _ => exact .inl rfl
  | files _ _ _ => exact .inl rfl

theorem Moment.next_apart (env : Environment) {m : Moment}
    (h : Apart m.evaluation.session.includes) :
    Apart (m.next env).evaluation.session.includes := by
  obtain ⟨jobs, e, failure⟩ := m
  cases jobs with
  | nil => exact h
  | cons job jobs =>
    cases failure with
    | some f =>
      rcases job.abandon_includes e with hi | hi
      · exact hi ▸ h
      · exact hi ▸ List.Pairwise.tail h
    | none =>
      rcases job.perform_includes env e with hi | hi | ⟨key, hnew, hi⟩
      · exact hi ▸ h
      · exact hi ▸ List.Pairwise.tail h
      · refine hi ▸ Apart.cons h ?_
        intro p hp
        rw [Session.isReading_iff] at hnew
        exact Bool.eq_false_iff.mpr fun hsame => hnew ⟨p, hp, hsame⟩

/-- No file is taken up twice before it is read out. -/
theorem Request.Shows.apart {env : Environment} {session : Session} {request : Request}
    {m : Moment} {texts : List OpenText} (hfresh : session.includes = [])
    (h : request.Shows env session m texts) : Apart m.evaluation.session.includes := by
  induction h with
  | start =>
    cases request with
    | text file source =>
      cases file with
      | none => exact hfresh ▸ List.Pairwise.nil
      | some path =>
        change Apart (_ :: session.includes)
        rw [hfresh]
        exact List.pairwise_singleton _ _
    | place path => exact hfresh ▸ List.Pairwise.nil
  | step _ _ ih => exact Moment.next_apart env ih

/-- Nothing but a file that is being read fails for a cycle. -/
theorem Job.perform_includeCycle (env : Environment) (e : Evaluation) (job : Job) (path : Path)
    (site : Site) :
    (job.perform env e).2.2 = some (.includeCycle path site) ↔
      ∃ depth paths, job = .files depth site (path :: paths) ∧
        e.session.isReading (path.identity env.tree.workdir) := by
  constructor
  · intro h
    cases job with
    | enter depth origin source =>
      simp only [Job.perform] at h
      split at h
      · next error _ => cases error <;> cases h
      · cases h
    | resume a =>
      obtain ⟨depth, origin, outer, ns⟩ := a
      cases ns with
      | nil =>
        rw [Job.perform, Evaluation.finish_failure] at h
        obtain ⟨frame, -, hframe⟩ := Option.map_eq_some_iff.mp h
        cases hframe
      | cons n ns =>
        obtain ⟨line, -, hb⟩ :=
          (Job.performNode_deed env ⟨depth, origin, outer, n :: ns⟩ e n).befalls h
        exact absurd rfl (hb.acyclic path site)
    | collect => cases h
    | walk depth source path' =>
      simp only [Job.perform] at h
      split at h
      · next hfiles =>
        cases h
        obtain ⟨error, hwalk⟩ := Environment.filesAt_error hfiles
        cases hwalk
      · cases h
    | files depth source paths =>
      cases paths with
      | nil => cases h
      | cons path' paths =>
        simp only [Job.perform] at h
        split at h
        · next hreading =>
          cases h
          exact ⟨depth, paths, rfl, hreading⟩
        · split at h <;> cases h
    | leave => cases h
  · rintro ⟨depth, paths, rfl, hreading⟩
    simp only [Job.perform, hreading, if_true]
    rfl

namespace Attended

variable {env : Environment} {request : Request} {m : Moment} {texts : List OpenText} {depth : Nat}
  {source : Site} {paths : List Path} {rest : List Job}

/-- While files are taken up, the files being read are exactly those of the open texts. -/
theorem includes_of_files (h : Attended env request m texts)
    (hjobs : m.jobs = .files depth source paths :: rest) :
    m.evaluation.session.includes = openFiles env.tree.workdir texts := by
  rcases h with ⟨-, hi⟩ | ⟨hj, -, -⟩
  · exact hi
  · rw [hjobs] at hj
    cases hj

theorem isReading_iff (h : Attended env request m texts)
    (hjobs : m.jobs = .files depth source paths :: rest) (path : Path) :
    m.evaluation.session.isReading (path.identity env.tree.workdir) ↔
      ∃ t ∈ texts, ∃ file, t.file = some file ∧
        (file.identity env.tree.workdir).same (path.identity env.tree.workdir) := by
  rw [Session.isReading_iff, h.includes_of_files hjobs, openFiles]
  constructor
  · rintro ⟨key, hkey, hsame⟩
    obtain ⟨file, hfile, rfl⟩ := List.mem_map.mp hkey
    obtain ⟨t, ht, htfile⟩ := List.mem_filterMap.mp hfile
    exact ⟨t, ht, file, htfile, hsame⟩
  · rintro ⟨t, ht, file, htfile, hsame⟩
    exact ⟨_, List.mem_map_of_mem (List.mem_filterMap.mpr ⟨t, ht, htfile⟩), hsame⟩

/-- A file cannot be taken up exactly if an open text is that file's. -/
theorem next_includeCycle (h : Attended env request m texts) (hnone : m.failure = none)
    (path : Path) (site : Site) :
    (m.next env).failure = some (.includeCycle path site) ↔
      ∃ depth paths rest, m.jobs = .files depth site (path :: paths) :: rest ∧
        ∃ t ∈ texts, ∃ file, t.file = some file ∧
          (file.identity env.tree.workdir).same (path.identity env.tree.workdir) := by
  obtain ⟨jobs, e, failure⟩ := m
  cases hnone
  cases jobs with
  | nil => simp [Moment.next]
  | cons job rest =>
    refine (Job.perform_includeCycle env e job path site).trans ?_
    constructor
    · rintro ⟨depth, paths, rfl, hreading⟩
      exact ⟨depth, paths, rest, rfl, (h.isReading_iff rfl path).mp hreading⟩
    · rintro ⟨depth, paths, rest', hjobs, hopen⟩
      obtain ⟨rfl, rfl⟩ := List.cons.inj hjobs
      exact ⟨depth, paths, rfl, (h.isReading_iff rfl path).mpr hopen⟩

end Attended

/-- What a run reports is the outcome of its last moment. At every moment of every run with a
session that was used in any way before: the files being read are apart from each other, they are
those of the open texts and at most one that is just read out, so that no two open texts belong to
one file, however the paths are spelled. The next step fails for a cycle exactly where the file to
be taken up is that of an open text. -/
theorem no_file_inside_itself (uses : List Use) (env : Environment) (request : Request) :
    (∀ m, request.Reaches env (.used uses) m ↔ ∃ texts, request.Shows env (.used uses) m texts) ∧
    (∃ texts outcome, request.Shows env (.used uses) (.after [] outcome) texts ∧
      request.report env (.used uses) = Report.ofOutcome env.options outcome) ∧
    ∀ m texts, request.Shows env (.used uses) m texts →
      Apart m.evaluation.session.includes ∧
      (∃ left : List Path, left.length ≤ 1 ∧ m.evaluation.session.includes =
        (left ++ texts.filterMap OpenText.file).map (Path.identity env.tree.workdir)) ∧
      Apart ((texts.filterMap OpenText.file).map (Path.identity env.tree.workdir)) ∧
      (m.failure = none → ∀ path site,
        (m.next env).failure = some (.includeCycle path site) ↔
          ∃ depth paths rest, m.jobs = .files depth site (path :: paths) :: rest ∧
            ∃ t ∈ texts, ∃ file, t.file = some file ∧
              (file.identity env.tree.workdir).same (path.identity env.tree.workdir)) := by
  obtain ⟨last, hlast⟩ := (request.reaches_outcome env (.used uses)).exists_shows
  refine ⟨fun m => ⟨fun hm => hm.exists_shows, fun ⟨_, h⟩ => h.reaches⟩,
    ⟨last, _, hlast, request.report_eq env _⟩, ?_⟩
  intro m texts hshows
  have hapart := hshows.apart (Session.used_includes uses)
  have hattended := hshows.attended (Session.used_includes uses)
  have hkeys : ∃ left : List Path, left.length ≤ 1 ∧ m.evaluation.session.includes =
      (left ++ texts.filterMap OpenText.file).map (Path.identity env.tree.workdir) := by
    rcases hattended with ⟨-, hi⟩ | ⟨-, -, hi⟩
    · exact ⟨[], Nat.zero_le _, hi⟩
    · exact ⟨[_], Nat.le_refl _, hi⟩
  refine ⟨hapart, hkeys, ?_, fun hnone path site => hattended.next_includeCycle hnone path site⟩
  obtain ⟨left, -, hleft⟩ := hkeys
  rw [hleft, List.map_append] at hapart
  exact (List.pairwise_append.mp hapart).2.1

end CampaignMarkup
