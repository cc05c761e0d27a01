import CampaignMarkup.Proofs.Preprocess.BinaryPaths
import CampaignMarkup.Proofs.Preprocess.Inclusion

/-! # Where assets are found

Binary paths are only ever put behind those that are known, and never a second spelling of one. So
the first place at which an asset was found stays the first for as long as the files stay as they
are, through all that a session is then used for. -/
namespace CampaignMarkup

namespace Resolver

/-- The place of an asset below a binary path, on one side. -/
def spot (side binary asset : Path) : Path :=
  (((side.join ⟨".."⟩).join binary).join asset).normalize

/-- The asset is below none of the binary paths before this one, and here it is on the user's side
or, failing that, on the side of the game's data. -/
def FirstAt (r : Resolver) (tree : FileTree) (binaryPaths : List Path) (asset place : Path) :
    Prop :=
  ∃ before binary after, binaryPaths = before ++ binary :: after ∧
    (∀ b ∈ before, ¬ tree.has (spot r.userDataDir b asset) ∧ ¬ tree.has (spot r.dataDir b asset)) ∧
    tree.has place ∧
    (place = spot r.userDataDir binary asset ∨
      ¬ tree.has (spot r.userDataDir binary asset) ∧ place = spot r.dataDir binary asset)

variable {r : Resolver} {tree : FileTree} {paths : List Path} {asset place : Path}

theorem mem_candidates {candidate : Path} :
    candidate ∈ r.candidates paths asset ↔
      ∃ b ∈ paths, candidate = spot r.userDataDir b asset ∨ candidate = spot r.dataDir b asset := by
  simp [candidates, spot]

/-- Behind binary paths that do not have the asset the search goes on as if they were not there. -/
theorem find?_candidates_append {before : List Path} (rest : List Path)
    (h : ∀ b ∈ before, ¬ tree.has (spot r.userDataDir b asset) ∧
      ¬ tree.has (spot r.dataDir b asset)) :
    (r.candidates (before ++ rest) asset).find? tree.has =
      (r.candidates rest asset).find? tree.has := by
  have hnone : (r.candidates before asset).find? tree.has = none := by
    rw [List.find?_eq_none]
    intro candidate hc
    obtain ⟨b, hb, rfl | rfl⟩ := mem_candidates.mp hc
    · exact (h b hb).1
    · exact (h b hb).2
  rw [candidates, List.flatMap_append, List.find?_append, ← candidates, hnone, Option.none_or]
  rfl

theorem find?_candidates_cons (b : Path) (rest : List Path) :
    (r.candidates (b :: rest) asset).find? tree.has =
      if tree.has (spot r.userDataDir b asset) then some (spot r.userDataDir b asset)
      else if tree.has (spot r.dataDir b asset) then some (spot r.dataDir b asset)
      else (r.candidates rest asset).find? tree.has := by
  change List.find? tree.has
    (spot r.userDataDir b asset :: spot r.dataDir b asset :: r.candidates rest asset) = _
  rw [List.find?_cons, List.find?_cons]
  cases tree.has (spot r.userDataDir b asset) <;> cases tree.has (spot r.dataDir b asset) <;> rfl

theorem FirstAt.find? (h : r.FirstAt tree paths asset place) :
    (r.candidates paths asset).find? tree.has = some place := by
  obtain ⟨before, b, after, rfl, hbefore, hhas, hplace⟩ := h
  rw [find?_candidates_append _ hbefore, find?_candidates_cons]
  rcases hplace with rfl | ⟨huser, rfl⟩
  · rw [if_pos hhas]
  · rw [if_neg huser, if_pos hhas]

theorem FirstAt.later {b : Path} (huser : ¬ tree.has (spot r.userDataDir b asset))
    (hdata : ¬ tree.has (spot r.dataDir b asset)) (h : r.FirstAt tree paths asset place) :
    r.FirstAt tree (b :: paths) asset place := by
  obtain ⟨before, binary, after, rfl, hbefore, hplace⟩ := h
  have hall := List.forall_mem_cons.mpr ⟨⟨huser, hdata⟩, hbefore⟩
  exact ⟨b :: before, binary, after, rfl, hall, hplace⟩

/-- An asset that is below a binary path is first somewhere. -/
theorem exists_firstAt {candidate : Path} (hc : candidate ∈ r.candidates paths asset)
    (hhas : tree.has candidate) : ∃ place, r.FirstAt tree paths asset place := by
  induction paths with
  | nil => cases hc
  | cons b paths ih =>
    by_cases huser : tree.has (spot r.userDataDir b asset)
    · exact ⟨_, [], b, paths, rfl, nofun, huser, .inl rfl⟩
    by_cases hdata : tree.has (spot r.dataDir b asset)
    · exact ⟨_, [], b, paths, rfl, nofun, hdata, .inr ⟨huser, rfl⟩⟩
    have hrest : candidate ∈ r.candidates paths asset := by
      obtain ⟨b', hb', hcandidate⟩ := mem_candidates.mp hc
      refine mem_candidates.mpr ⟨b', ?_, hcandidate⟩
      rcases List.mem_cons.mp hb' with rfl | hb'
      · rcases hcandidate with rfl | rfl
        · exact absurd hhas huser
        · exact absurd hhas hdata
      · exact hb'
    obtain ⟨place, hplace⟩ := ih hrest
    exact ⟨place, hplace.later huser hdata⟩

/-- More binary paths behind the known ones change nothing for an asset that has a place. -/
theorem FirstAt.mono {more : List Path} (h : r.FirstAt tree paths asset place)
    (hmore : paths <+: more) : r.FirstAt tree more asset place := by
  obtain ⟨before, binary, after, rfl, hrest⟩ := h
  obtain ⟨tail, rfl⟩ := hmore
  exact ⟨before, binary, after ++ tail, by simp, hrest⟩

/-- The bucket of a path that is looked for below the binary paths. -/
def AssetIn (path : String) (bucket : AssetBucket) : Prop :=
  Text.startsWith "." path = false ∧ Text.startsWith "~" path = false ∧
    AssetBucket.ofPath? ⟨path⟩ = some bucket

/-- A path within its bucket. -/
def bucketed (bucket : AssetBucket) (path : String) : Path :=
  (Path.mk bucket.directory).join ⟨path⟩

theorem resolve_asset {path : String} {bucket : AssetBucket} (h : AssetIn path bucket)
    (current : Path) :
    r.resolve tree paths current path =
      ((r.candidates paths (bucketed bucket path)).find? tree.has).getD
        ((r.dataDir.join ⟨"core"⟩).join (bucketed bucket path)).normalize := by
  obtain ⟨hdot, htilde, hbucket⟩ := h
  have hnone : Text.dropStart? "~" path = none := by
    rw [Text.dropStart?, Option.map_eq_none_iff, ← Option.isNone_iff_eq_none, ← Option.not_isSome]
    exact (Bool.not_eq_true' _).mpr htilde
  unfold resolve
  rw [if_neg (Bool.eq_false_iff.mp hdot), hnone, hbucket]
  dsimp only
  rw [← bucketed]
  split
  · next place hplace => rw [hplace, Option.getD_some]
  · next hplace => rw [hplace, Option.getD_none]

end Resolver

namespace Session

/-- Nothing happened to the binary paths but that some were registered. -/
def Registered (paths paths' : List Path) : Prop :=
  ∃ ps : List Path, paths' = ps.foldl register paths

variable {paths paths' paths'' : List Path}

theorem Registered.refl (paths : List Path) : Registered paths paths :=
  ⟨[], rfl⟩

theorem Registered.trans (h : Registered paths paths') (k : Registered paths' paths'') :
    Registered paths paths'' := by
  obtain ⟨ps, rfl⟩ := h
  obtain ⟨qs, rfl⟩ := k
  exact ⟨ps ++ qs, (List.foldl_append ..).symm⟩

theorem known_prefix_register (paths : List Path) (p : Path) : paths <+: register paths p := by
  unfold register
  split
  · exact List.prefix_rfl
  · exact List.prefix_append _ _

theorem Registered.grown (h : Registered paths paths') : paths <+: paths' := by
  obtain ⟨ps, rfl⟩ := h
  induction ps generalizing paths with
  | nil => exact List.prefix_rfl
  | cons p ps ih => exact (known_prefix_register paths p).trans ih

theorem Registered.apart (h : Registered paths paths') (hapart : Apart paths) : Apart paths' := by
  obtain ⟨ps, rfl⟩ := h
  exact pairwise_foldl_register hapart ps

end Session

open Session

theorem Job.perform_registered (env : Environment) (e : Evaluation) (job : Job) :
    Registered e.session.binaryPaths (job.perform env e).2.1.session.binaryPaths := by
  have unchanged {paths : List Path} (h : paths = e.session.binaryPaths) :
      Registered e.session.binaryPaths paths := h ▸ .refl _
  cases job with
  | enter depth origin source =>
    apply unchanged
    simp only [Job.perform]
    split <;> rfl
  | resume a =>
    obtain ⟨depth, origin, outer, ns⟩ := a
    apply unchanged
    cases ns with
    | nil => exact congrArg (·.session.binaryPaths) (Evaluation.finish_fst outer.depth e.proceed)
    | cons n ns => exact (Job.performNode_deed env ⟨depth, origin, outer, n :: ns⟩ e n).binaryPaths
  | collect =>
    refine ⟨e.output.found, ?_⟩
    change e.collectBinaryPaths.session.binaryPaths = _
    rw [Evaluation.collectBinaryPaths_eq]
  | walk depth source path =>
    apply unchanged
    simp only [Job.perform]
    split <;> rfl
  | files depth source paths =>
    apply unchanged
    cases paths with
    | nil => rfl
    | cons path paths =>
      simp only [Job.perform]
      split
      · rfl
      · split <;> rfl
  | leave => exact unchanged rfl

theorem Job.abandon_binaryPaths (e : Evaluation) (job : Job) :
    (job.abandon e).session.binaryPaths = e.session.binaryPaths := by
  cases job <;> rfl

theorem Moment.Step.registered {env : Environment} {m m' : Moment} (h : m.Step env m') :
    Registered m.evaluation.session.binaryPaths m'.evaluation.session.binaryPaths := by
  obtain ⟨jobs, e, failure⟩ := m
  obtain ⟨hne, rfl⟩ := h
  cases jobs with
  | nil => exact absurd rfl hne
  | cons job rest =>
    cases failure with
    | none => exact job.perform_registered env e
    | some f =>
      change Registered e.session.binaryPaths (job.abandon e).session.binaryPaths
      rw [job.abandon_binaryPaths]
      exact .refl _

/-- A session between runs, or in the middle of one. -/
inductive Point where
  | between (session : Session)
  | during (session : Session) (request : Request) (moment : Moment)

namespace Point

def binaryPaths : Point → List Path
  | .between session => session.binaryPaths
  | .during _ _ moment => moment.evaluation.session.binaryPaths

/-- The next point, while files and options stay as they are. -/
inductive Step (env : Environment) : Point → Point → Prop where
  | begun (session : Session) (request : Request) :
      Step env (.between session) (.during session request (request.start env session))
  | went {session : Session} {request : Request} {m m' : Moment} : m.Step env m' →
      Step env (.during session request m) (.during session request m')
  | ended (session : Session) (request : Request) :
      Step env (.during session request (.after [] (request.outcome env session)))
        (.between (request.report env session).session)

abbrev Onward (env : Environment) : Point → Point → Prop :=
  Relation.ReflTransGen (Step env)

variable {env : Environment} {p q : Point}

theorem Step.registered (h : Step env p q) : Registered p.binaryPaths q.binaryPaths := by
  cases h with
  | begun session request =>
    have hstart : (request.start env session).evaluation.session.binaryPaths =
        session.binaryPaths := by
      cases request with
      | text file source => cases file <;> rfl
      | place path => rfl
    exact ⟨[], hstart⟩
  | went hm => exact hm.registered
  | ended session request =>
    refine ⟨(request.outcome env session).1.output.found, ?_⟩
    change (request.report env session).session.binaryPaths = _
    rw [Request.report_eq, Report.binaryPaths_ofOutcome]
    rfl

theorem Onward.registered (h : Onward env p q) : Registered p.binaryPaths q.binaryPaths := by
  induction h with
  | refl => exact .refl _
  | tail _ hstep ih => exact ih.trans hstep.registered

theorem Onward.during {session : Session} {request : Request} {m m' : Moment}
    (h : m.Leads env m') : Onward env (.during session request m) (.during session request m') := by
  induction h with
  | refl => exact .refl
  | tail _ hstep ih => exact ih.tail (.went hstep)

end Point

theorem Moment.step_unique (env : Environment) : Relator.RightUnique (Moment.Step env) := by
  intro m m' m'' h h'
  rw [h.2, h'.2]

/-- From every moment of a run the steps go on to its end. -/
theorem Request.Reaches.leads_outcome {env : Environment} {session : Session} {request : Request}
    {m : Moment} (h : request.Reaches env session m) :
    m.Leads env (.after [] (request.outcome env session)) := by
  have hend := request.reaches_outcome env session
  rcases Relation.ReflTransGen.total_of_right_unique (Moment.step_unique env) h hend with hm | hm
  · exact hm
  · rcases Relation.ReflTransGen.cases_head hm with heq | ⟨m', hstep, -⟩
    · rw [← heq]
    · exact absurd rfl hstep.1

/-- No session holds two spellings of one binary path. -/
theorem Session.used_apart (uses : List Use) : Apart (used uses).binaryPaths := by
  have kept : ∀ s : Session, Apart s.binaryPaths → Apart (uses.foldl use s).binaryPaths := by
    induction uses with
    | nil => exact fun _ h => h
    | cons u uses ih =>
      intro s h
      apply ih
      cases u with
      | reseed macros => exact h
      | register path =>
        rw [use, addBinaryPath_eq]
        exact pairwise_foldl_register h [path]
      | run env request =>
        have hrun : Point.Onward env (.between s) (.between (request.report env s).session) :=
          (Relation.ReflTransGen.head (.begun s request)
            (Point.Onward.during (request.reaches_outcome env s))).tail (.ended s request)
        exact hrun.registered.apart h
  exact kept {} .nil

open Resolver Point in
/-- With a session that was used in any way before, every moment of a run lies on the way from the
session before the run to the session after it, and on this way, as far as it goes: binary paths are
put behind the known ones and are all different. An asset that is below one of them at some point is
found there, at the first place in their order, the user's side first, and is found at the same
place from every later point. As long as it is below none it is sought in the core data. -/
theorem assets_stay_where_first_found (uses : List Use) (env : Environment) (request : Request) :
    (∀ m, request.Reaches env (.used uses) m →
      Onward env (.between (.used uses)) (.during (.used uses) request m) ∧
      Onward env (.during (.used uses) request m)
        (.between (request.report env (.used uses)).session)) ∧
    ∀ p q, Onward env (.between (.used uses)) p → Onward env p q →
      p.binaryPaths <+: q.binaryPaths ∧ Apart p.binaryPaths ∧
      ∀ path bucket, AssetIn path bucket →
        let candidates := env.resolver.candidates p.binaryPaths (bucketed bucket path)
        ((∃ c ∈ candidates, env.tree.has c) →
          ∃ place ∈ candidates,
            env.resolver.FirstAt env.tree p.binaryPaths (bucketed bucket path) place ∧
            ∀ current,
              env.resolver.resolve env.tree p.binaryPaths current path = place ∧
              env.resolver.resolve env.tree q.binaryPaths current path = place) ∧
        ((¬ ∃ c ∈ candidates, env.tree.has c) →
          ∀ current, env.resolver.resolve env.tree p.binaryPaths current path =
            ((env.resolver.dataDir.join ⟨"core"⟩).join (bucketed bucket path)).normalize) := by
  constructor
  · intro m hm
    exact ⟨.head (.begun _ request) (Onward.during hm),
      (Onward.during hm.leads_outcome).tail (.ended _ request)⟩
  intro p q hp hq
  have hgrown := hq.registered.grown
  refine ⟨hgrown, hp.registered.apart (used_apart uses), ?_⟩
  intro path bucket hasset candidates
  constructor
  · rintro ⟨c, hc, hhas⟩
    obtain ⟨place, hfirst⟩ := exists_firstAt hc hhas
    refine ⟨place, List.mem_of_find?_eq_some hfirst.find?, hfirst, ?_⟩
    intro current
    rw [resolve_asset hasset, resolve_asset hasset, hfirst.find?, (hfirst.mono hgrown).find?]
    exact ⟨rfl, rfl⟩
  · intro hnone current
    have hfind : candidates.find? env.tree.has = none := by
      rw [List.find?_eq_none]
      exact fun c hc hhas => hnone ⟨c, hc, hhas⟩
    rw [resolve_asset hasset, hfind, Option.getD_none]

open Resolver in
/-- The run registers a second path, below which the user has the same image, and then fails; the
image stays where the game's data has it below the first path. -/
theorem image_stays_below_first_path :
    let location : List String → Location × Entry := fun l => (l, .directory)
    let image : String → String → Location × Entry := fun side binary =>
      ([side, binary, "images", "x.png"], .file (.binary []))
    let tree : FileTree := ⟨["w"], ([[], ["w"], ["g"], ["g", "data"], ["g", "a"],
      ["g", "a", "images"], ["u"], ["u", "data"], ["u", "b"], ["u", "b", "images"]].map location) ++
      [image "g" "a", image "u" "b"]⟩
    let env : Environment := ⟨tree, ⟨⟨"/g/data"⟩, ⟨"/u/data"⟩⟩, {}⟩
    let request := Request.text none "[binary_path]\npath=b\n[/binary_path]\n#error no\n"
    let before := Session.used [.register ⟨"a"⟩]
    let report := request.report env before
    let resolved := fun s : Session => env.resolver.resolve tree s.binaryPaths ⟨"."⟩ "x.png"
    report.result.isOk = false ∧ report.session.binaryPaths = [⟨"a"⟩, ⟨"b"⟩] ∧
      resolved before = ⟨"/g/a/images/x.png"⟩ ∧ resolved report.session = resolved before := by
  intro location image tree env request before report resolved
  have hall := assets_stay_where_first_found [.register ⟨"a"⟩] env request
  have hway := hall.1 _ Relation.ReflTransGen.refl
  obtain ⟨-, -, hstays⟩ := hall.2 _ _ .refl (hway.1.trans hway.2)
  have hasset : AssetIn "x.png" .images := by
    refine ⟨?_, ?_, ?_⟩ <;> decide +kernel
  have hbefore : resolved before = ⟨"/g/a/images/x.png"⟩ := by decide +kernel
  obtain ⟨place, -, -, hplace⟩ := (hstays "x.png" .images hasset).1
    ⟨⟨"/g/a/images/x.png"⟩, by decide +kernel, by decide +kernel⟩
  refine ⟨by decide +kernel, by decide +kernel, hbefore, ?_⟩
  exact (hplace ⟨"."⟩).2.trans (hplace ⟨"."⟩).1.symm

end CampaignMarkup
