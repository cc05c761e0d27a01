import CampaignMarkup.Proofs.Preprocess.Deeds

/-! # The texts that are open

Beside a run goes a list of the texts that are open, innermost first, each with the nodes it has
still to evaluate. The list is a record and no more: it is kept from the jobs as they come and go,
looks at no origin, and changes nothing. What a run says about itself can be held against it.
Origins, conditionals and the files being read agree with the record at every moment of every
run. -/
namespace CampaignMarkup

/-- Whose a text is. -/
inductive Ground where
  /-- The text of a file, or one that was given without a file. -/
  | own (file : Option Path)
  /-- What a call is replaced by. -/
  | expansion
deriving DecidableEq, Repr, Inhabited

structure OpenText where
  ground : Ground
  source : String
  /-- The nodes from the one under evaluation on. -/
  rest : List Node := []
deriving DecidableEq, Repr, Inhabited

namespace OpenText

def isOwn (t : OpenText) : Bool :=
  t.ground != .expansion

def file (t : OpenText) : Option Path :=
  match t.ground with
  | .own file => file
  | .expansion => none

/-- The node under evaluation is done. -/
def pass (t : OpenText) : OpenText :=
  { t with rest := t.rest.tail }

/-- What has to be done once the text is evaluated. -/
def exit (t : OpenText) : List Job :=
  t.file.toList.map fun _ => .leave

end OpenText

/-- The innermost text that is not an expansion. -/
def innermostOwn? (texts : List OpenText) : Option OpenText :=
  texts.find? OpenText.isOwn

/-- What the files of open texts are known by. -/
def openFiles (workdir : Location) (texts : List OpenText) : List Path :=
  (texts.filterMap OpenText.file).map (Path.identity workdir)

namespace Job

/-- The texts open after a job of which these jobs remain. -/
def track (texts : List OpenText) : Job → List Job → List OpenText
  | .enter _ _ _, .resume a :: _ => texts.modifyHead ({ · with rest := a.rest })
  | .enter _ _ _, _ => texts.tail
  | .resume ⟨_, _, _, []⟩, _ => texts.tail
  | .resume _, .enter _ _ source :: _ => ⟨.expansion, source, []⟩ :: texts
  | .collect, _ => texts.modifyHead OpenText.pass
  | .files _ _ (path :: _), .enter _ _ source :: _ => ⟨.own (some path), source, []⟩ :: texts
  | _, _ => texts

/-- The texts open after a job that was given up. -/
def trackAbandoned (texts : List OpenText) : Job → List OpenText
  | .enter _ _ _ | .resume _ => texts.tail
  | .collect => texts.modifyHead OpenText.pass
  | .walk _ _ _ | .files _ _ _ | .leave => texts

end Job

def Moment.track (env : Environment) (texts : List OpenText) : Moment → List OpenText
  | ⟨[], _, _⟩ => texts
  | ⟨job :: _, _, some _⟩ => job.trackAbandoned texts
  | ⟨job :: _, e, none⟩ => job.track texts (job.perform env e).1

namespace Request

/-- The texts open before anything is done. -/
def texts : Request → List OpenText
  | .text file source => [⟨.own file, source, []⟩]
  | .place _ => []

/-- A moment of the run that answers a request, with the texts open at it. -/
inductive Shows (env : Environment) (session : Session) (request : Request) :
    Moment → List OpenText → Prop where
  | start : Shows env session request (request.start env session) request.texts
  | step {m texts} : Shows env session request m texts → m.jobs ≠ [] →
      Shows env session request (m.next env) (m.track env texts)

variable {env : Environment} {session : Session} {request : Request} {m : Moment}

theorem Shows.reaches {texts : List OpenText} (h : request.Shows env session m texts) :
    request.Reaches env session m := by
  induction h with
  | start => exact .refl
  | step _ hjobs ih => exact ih.tail ⟨hjobs, rfl⟩

theorem Reaches.exists_shows (h : request.Reaches env session m) :
    ∃ texts, request.Shows env session m texts := by
  induction h with
  | refl => exact ⟨_, .start⟩
  | tail _ hs ih =>
    obtain ⟨texts, ht⟩ := ih
    obtain ⟨hjobs, rfl⟩ := hs
    exact ⟨_, ht.step hjobs⟩

end Request

/-- The text that was asked for, or what the tree holds for the file. -/
def OpenText.Genuine (env : Environment) (request : Request) (t : OpenText) : Prop :=
  request = .text t.file t.source ∨
    ∃ path, t.file = some path ∧ env.tree.read path = .ok t.source

/-- An expansion may hold anything; any other text is genuine, and without a file the outermost. -/
def OpenText.Supplied (env : Environment) (request : Request) (t : OpenText)
    (outer : List OpenText) : Prop :=
  t.isOwn → t.Genuine env request ∧ (t.file = none → outer = [])

/-- The site of the call at which the innermost text that is not an expansion stands. -/
def OnCall (texts : List OpenText) (site : Site) : Prop :=
  ∃ own call raw line rest, innermostOwn? texts = some own ∧
    own.rest = .call call raw line :: rest ∧ site = ⟨own.file, line⟩

/-- An origin that speaks of the innermost text: its file, or the call that it replaces. -/
def Origin.Fits (origin : Origin) (t : OpenText) (outer : List OpenText) : Prop :=
  match t.ground with
  | .own file => origin = { file }
  | .expansion => ∃ site, OnCall outer site ∧ origin = ⟨site.file, some site.line⟩

/-- A text behind some of its nodes, above what was open when it was entered. While nothing has
failed, what is open above that are the conditionals that those nodes left open. -/
structure InPlace (env : Environment) (request : Request) (failure : Option Failure)
    (origin : Origin) (before now : Conditionals) (done : List Node) (t : OpenText)
    (outer : List OpenText) : Prop where
  supplied : t.Supplied env request outer
  fits : origin.Fits t outer
  nodes : Node.ofSource t.source = .ok (done ++ t.rest)
  frames : ∃ top, now.frames = top ++ before.frames ∧
    (failure = none → origin.Opened top (Node.leftOpen done))

/-- Jobs and open texts belong together. -/
inductive Aligned (env : Environment) (request : Request) (failure : Option Failure) :
    Conditionals → List Job → List OpenText → Prop where
  | done {c} : Aligned env request failure c [] []
  | enter {c depth origin jobs t outer} : t.rest = [] → t.Supplied env request outer →
      origin.Fits t outer → Aligned env request failure c jobs outer →
      Aligned env request failure c (.enter depth origin t.source :: (t.exit ++ jobs)) (t :: outer)
  | resume {c before depth origin jobs done t outer} :
      InPlace env request failure origin before c done t outer →
      Aligned env request failure before jobs outer →
      Aligned env request failure c
        (.resume ⟨depth, origin, before, t.rest⟩ :: (t.exit ++ jobs)) (t :: outer)
  | collect {c before depth origin jobs done n ns t outer} : t.rest = n :: ns →
      InPlace env request failure origin before c (done ++ [n]) t.pass outer →
      Aligned env request failure before jobs outer →
      Aligned env request failure c
        (.collect :: .resume ⟨depth, origin, before, t.pass.rest⟩ :: (t.exit ++ jobs)) (t :: outer)
  | walk {c depth source path jobs texts} : texts = [] ∨ OnCall texts source →
      Aligned env request failure c jobs texts →
      Aligned env request failure c (.walk depth source path :: jobs) texts
  | files {c depth source paths jobs texts} : texts = [] ∨ OnCall texts source →
      Aligned env request failure c jobs texts →
      Aligned env request failure c (.files depth source paths :: jobs) texts

/-- The files being read are those of the open texts, and one more while it is left. -/
inductive Attended (env : Environment) (request : Request) (m : Moment) (texts : List OpenText) :
    Prop where
  | settled : Aligned env request m.failure m.evaluation.session.conditionals m.jobs texts →
      m.evaluation.session.includes = openFiles env.tree.workdir texts →
      Attended env request m texts
  | leaving {path : Path} {jobs} : m.jobs = .leave :: jobs →
      Aligned env request m.failure m.evaluation.session.conditionals jobs texts →
      m.evaluation.session.includes =
        path.identity env.tree.workdir :: openFiles env.tree.workdir texts →
      Attended env request m texts

section

variable {env : Environment} {request : Request} {origin : Origin} {before now : Conditionals}
  {t : OpenText} {outer : List OpenText}

theorem innermostOwn?_own (h : t.isOwn) : innermostOwn? (t :: outer) = some t := by
  simp [innermostOwn?, h]

theorem innermostOwn?_expansion (h : t.isOwn = false) :
    innermostOwn? (t :: outer) = innermostOwn? outer := by
  simp [innermostOwn?, h]

/-- An origin speaks of the text itself, or gives every line as that of one call. -/
theorem Origin.Fits.cases (h : origin.Fits t outer) :
    (t.isOwn = true ∧ origin = { file := t.file }) ∨
    (t.isOwn = false ∧ ∃ site, OnCall (t :: outer) site ∧ ∀ line, origin.site line = site) := by
  unfold Origin.Fits at h
  split at h
  · next file hground =>
    left
    exact ⟨by simp [OpenText.isOwn, hground], by simp [OpenText.file, hground, h]⟩
  · next hground =>
    have hexpansion : t.isOwn = false := by simp [OpenText.isOwn, hground]
    obtain ⟨site, hcall, rfl⟩ := h
    refine .inr ⟨hexpansion, site, ?_, fun _ => rfl⟩
    unfold OnCall at hcall ⊢
    rwa [innermostOwn?_expansion hexpansion]

/-- Where the innermost text stands at a call, so does the innermost file. -/
theorem Origin.Fits.onCall (h : origin.Fits t outer) {call : MacroCall} {raw : String} {line : Nat}
    {rest : List Node} (hrest : t.rest = .call call raw line :: rest) :
    OnCall (t :: outer) (origin.site line) := by
  rcases h.cases with ⟨hown, rfl⟩ | ⟨-, site, hcall, hsite⟩
  · exact ⟨t, call, raw, line, rest, innermostOwn?_own hown, hrest, rfl⟩
  · rw [hsite]
    exact hcall

theorem InPlace.weaken {failure : Option Failure} {done : List Node}
    (h : InPlace env request none origin before now done t outer) :
    InPlace env request failure origin before now done t outer := by
  obtain ⟨top, htop, hopened⟩ := h.frames
  exact ⟨h.supplied, h.fits, h.nodes, top, htop, fun _ => hopened rfl⟩

/-- A failure takes nothing away from what was so before it. -/
theorem Aligned.weaken {failure : Option Failure} {c : Conditionals} {jobs : List Job}
    {texts : List OpenText} (h : Aligned env request none c jobs texts) :
    Aligned env request failure c jobs texts := by
  induction h with
  | done => exact .done
  | enter hrest hsupplied hfits _ ih => exact .enter hrest hsupplied hfits ih
  | resume hplace _ ih => exact .resume hplace.weaken ih
  | collect hrest hplace _ ih => exact .collect hrest hplace.weaken ih
  | walk hsource _ ih => exact .walk hsource ih
  | files hsource _ ih => exact .files hsource ih

/-- The end of the text takes the conditionals back to where they were. -/
theorem InPlace.truncate {failure : Option Failure} {done : List Node}
    (h : InPlace env request failure origin before now done t outer) :
    now.truncate before.depth = before := by
  obtain ⟨top, htop, -⟩ := h.frames
  apply Conditionals.truncate_of_suffix
  rw [htop]
  exact List.suffix_append _ _

/-- Behind a node the text is in place again, one node further. -/
theorem InPlace.deed {done : List Node}
    {e : Evaluation}
    (h : InPlace env request none origin before e.session.conditionals done t outer)
    {n : Node} {ns : List Node} (hrest : t.rest = n :: ns) {outcome : Outcome}
    (hd : Deed origin before.depth n e outcome) :
    InPlace env request outcome.2 origin before outcome.1.session.conditionals (done ++ [n]) t.pass
      outer := by
  obtain ⟨top, htop, hopened⟩ := h.frames
  obtain ⟨top', htop', hopened'⟩ := hd.frames htop (hopened rfl)
  refine ⟨h.supplied, h.fits, ?_, top', htop', ?_⟩
  · have hnodes := h.nodes
    rw [hrest] at hnodes
    simpa [OpenText.pass, hrest] using hnodes
  · intro hnone
    rw [Node.leftOpen, List.foldl_append]
    exact hopened' hnone

end

namespace Attended

variable {env : Environment} {request : Request}

/-- The innermost text is over. -/
theorem closed {t : OpenText} {outer : List OpenText} {jobs : List Job} {e : Evaluation}
    {failure : Option Failure} (h : Aligned env request failure e.session.conditionals jobs outer)
    (hincludes : e.session.includes = openFiles env.tree.workdir (t :: outer)) :
    Attended env request ⟨t.exit ++ jobs, e, failure⟩ outer := by
  cases hfile : t.file with
  | none =>
    apply settled
    · simpa [OpenText.exit, hfile] using h
    · simpa [openFiles, hfile] using hincludes
  | some path =>
    refine @leaving env request _ _ path jobs ?_ h ?_
    · simp [OpenText.exit, hfile]
    · simpa [openFiles, hfile] using hincludes

theorem start (env : Environment) {session : Session} (hfresh : session.includes = [])
    (request : Request) : Attended env request (request.start env session) request.texts := by
  cases request with
  | text file source =>
    cases file with
    | none =>
      refine settled (.enter (t := ⟨.own none, source, []⟩) rfl ?_ rfl .done) ?_
      · exact fun _ => ⟨.inl rfl, fun _ => rfl⟩
      · exact hfresh
    | some path =>
      refine settled (.enter (t := ⟨.own (some path), source, []⟩) rfl ?_ rfl .done) ?_
      · exact fun _ => ⟨.inl rfl, fun _ => rfl⟩
      · change _ :: session.includes = _
        rw [hfresh]
        rfl
  | place path => exact settled (.walk (.inl rfl) .done) hfresh

/-- A job given up closes the text it belongs to. -/
theorem abandon {job : Job} {jobs : List Job} {e : Evaluation} {f : Failure}
    {texts : List OpenText} (h : Attended env request ⟨job :: jobs, e, some f⟩ texts) :
    Attended env request ⟨jobs, job.abandon e, some f⟩ (job.trackAbandoned texts) := by
  rcases h with ⟨ha, hi⟩ | ⟨hj, ha, hi⟩
  · generalize hc : (⟨job :: jobs, e, some f⟩ : Moment).evaluation.session.conditionals = c at ha
    cases ha with
    | enter _ _ _ hjobs => exact closed (by subst hc; exact hjobs) hi
    | @resume _ before _ _ _ _ t outer hplace hjobs =>
      subst hc
      refine closed (t := t) ?_ hi
      change Aligned env request _ (e.session.conditionals.truncate before.depth) _ _
      rw [hplace.truncate]
      exact hjobs
    | collect _ hplace hjobs =>
      subst hc
      exact settled (.resume hplace hjobs) hi
    | walk _ hjobs => exact settled (by subst hc; exact hjobs) hi
    | files _ hjobs => exact settled (by subst hc; exact hjobs) hi
  · obtain ⟨rfl, rfl⟩ := List.cons.inj hj
    apply settled
    · exact ha
    · change e.session.includes.tail = _
      change e.session.includes = _ at hi
      rw [hi]
      rfl

/-- A text begins with all its nodes before it, unless it has no nodes. -/
theorem enter {t : OpenText} {outer : List OpenText} {depth : Nat} {origin : Origin}
    {jobs : List Job} {e : Evaluation} (hsupplied : t.Supplied env request outer)
    (hfits : origin.Fits t outer) (h : Aligned env request none e.session.conditionals jobs outer)
    (hi : e.session.includes = openFiles env.tree.workdir (t :: outer)) :
    Attended env request
      (.after (((Job.enter depth origin t.source).perform env e).1 ++ (t.exit ++ jobs))
        ((Job.enter depth origin t.source).perform env e).2)
      ((Job.enter depth origin t.source).track (t :: outer)
        ((Job.enter depth origin t.source).perform env e).1) := by
  simp only [Job.perform]
  cases hns : Node.ofSource t.source with
  | error error => exact closed h.weaken hi
  | ok ns =>
    have hplace : InPlace env request none origin e.session.conditionals e.session.conditionals []
        { t with rest := ns } outer :=
      ⟨hsupplied, hfits, hns, [], rfl, fun _ => rfl⟩
    exact settled (.resume hplace h) hi

/-- A text whose nodes are done is over. -/
theorem finish {t : OpenText} {outer : List OpenText} {depth : Nat} {origin : Origin}
    {before : Conditionals} {jobs : List Job} {e : Evaluation} {done : List Node}
    (hplace : InPlace env request none origin before e.session.conditionals done t outer)
    (h : Aligned env request none before jobs outer)
    (hi : e.session.includes = openFiles env.tree.workdir (t :: outer)) :
    Attended env request
      (.after (((Job.resume ⟨depth, origin, before, []⟩).perform env e).1 ++ (t.exit ++ jobs))
        ((Job.resume ⟨depth, origin, before, []⟩).perform env e).2) outer := by
  have hfst := Evaluation.finish_fst before.depth e.proceed
  change Attended env request
    ⟨t.exit ++ jobs, (Evaluation.finish before.depth e.proceed).1, _⟩ outer
  rw [hfst]
  refine closed (t := t) ?_ hi
  change Aligned env request _ (e.session.conditionals.truncate before.depth) _ _
  rw [hplace.truncate]
  exact h.weaken

/-- A node opens no text but for the call that it is. -/
theorem node {t : OpenText} {outer : List OpenText} {depth : Nat} {origin : Origin}
    {before : Conditionals} {jobs : List Job} {e : Evaluation} {done ns : List Node} {n : Node}
    (hplace : InPlace env request none origin before e.session.conditionals done t outer)
    (hrest : t.rest = n :: ns) (h : Aligned env request none before jobs outer)
    (hi : e.session.includes = openFiles env.tree.workdir (t :: outer)) :
    Attended env request
      (.after (((Job.resume ⟨depth, origin, before, n :: ns⟩).perform env e).1 ++ (t.exit ++ jobs))
        ((Job.resume ⟨depth, origin, before, n :: ns⟩).perform env e).2)
      ((Job.resume ⟨depth, origin, before, n :: ns⟩).track (t :: outer)
        ((Job.resume ⟨depth, origin, before, n :: ns⟩).perform env e).1) := by
  simp only [Job.perform]
  have hdeed := Job.performNode_deed env ⟨depth, origin, before, n :: ns⟩ e n
  have hjobs := Job.performNode_jobs env ⟨depth, origin, before, n :: ns⟩ e n
  generalize Job.performNode env ⟨depth, origin, before, n :: ns⟩ e n = performed at hdeed hjobs
  obtain ⟨more, outcome⟩ := performed
  have hpass : ns = t.pass.rest := by simp [OpenText.pass, hrest]
  have collecting : Aligned env request outcome.2 outcome.1.session.conditionals
      (.collect :: .resume ⟨depth, origin, before, ns⟩ :: (t.exit ++ jobs)) (t :: outer) := by
    rw [hpass]
    exact .collect hrest (hplace.deed hrest hdeed) h.weaken
  have hincludes : outcome.1.session.includes = openFiles env.tree.workdir (t :: outer) :=
    hdeed.includes.trans hi
  rcases hjobs with rfl | ⟨call, raw, line, rfl, ⟨source, rfl⟩ | ⟨target, rfl⟩⟩
  · exact settled collecting hincludes
  · refine settled (.enter (t := ⟨.expansion, source, []⟩) rfl ?_ ?_ collecting) ?_
    · intro hown
      simp [OpenText.isOwn] at hown
    · exact ⟨origin.site line, hplace.fits.onCall hrest, rfl⟩
    · exact hincludes
  · exact settled (.walk (.inr (hplace.fits.onCall hrest)) collecting) hincludes

/-- No text is opened where the files at a place are found, or are not. -/
theorem walk {texts : List OpenText} {depth : Nat} {source : Site} {path : Path}
    {jobs : List Job} {e : Evaluation} (hsource : texts = [] ∨ OnCall texts source)
    (h : Aligned env request none e.session.conditionals jobs texts)
    (hi : e.session.includes = openFiles env.tree.workdir texts) :
    Attended env request
      (.after (((Job.walk depth source path).perform env e).1 ++ jobs)
        ((Job.walk depth source path).perform env e).2)
      ((Job.walk depth source path).track texts
        ((Job.walk depth source path).perform env e).1) := by
  simp only [Job.perform]
  cases env.filesAt path with
  | error f => exact settled h.weaken hi
  | ok paths => exact settled (.files hsource h) hi

/-- Of the files that stand at a place one is opened, or there is none left, or it cannot be. -/
theorem files {texts : List OpenText} {depth : Nat} {source : Site} {paths : List Path}
    {jobs : List Job} {e : Evaluation} (hsource : texts = [] ∨ OnCall texts source)
    (h : Aligned env request none e.session.conditionals jobs texts)
    (hi : e.session.includes = openFiles env.tree.workdir texts) :
    Attended env request
      (.after (((Job.files depth source paths).perform env e).1 ++ jobs)
        ((Job.files depth source paths).perform env e).2)
      ((Job.files depth source paths).track texts
        ((Job.files depth source paths).perform env e).1) := by
  cases paths with
  | nil => exact settled h hi
  | cons path paths =>
    simp only [Job.perform]
    split
    · exact settled h.weaken hi
    cases hread : env.tree.read path with
    | error error => exact settled h.weaken hi
    | ok text =>
      refine settled (.enter (t := ⟨.own (some path), text, []⟩) rfl ?_ rfl (.files hsource h)) ?_
      · exact fun _ => ⟨.inr ⟨path, rfl, hread⟩, fun hfile => by cases hfile⟩
      · change _ :: e.session.includes = _
        rw [hi]
        rfl

/-- A job performed keeps the record. -/
theorem perform {job : Job} {jobs : List Job} {e : Evaluation} {texts : List OpenText}
    (h : Attended env request ⟨job :: jobs, e, none⟩ texts) :
    Attended env request (.after ((job.perform env e).1 ++ jobs) (job.perform env e).2)
      (job.track texts (job.perform env e).1) := by
  rcases h with ⟨ha, hi⟩ | ⟨hj, ha, hi⟩
  · generalize hc : (⟨job :: jobs, e, none⟩ : Moment).evaluation.session.conditionals = c at ha
    cases ha with
    | enter _ hsupplied hfits hjobs =>
      subst hc
      exact enter hsupplied hfits hjobs hi
    | @resume _ before _ _ _ _ t outer hplace hjobs =>
      subst hc
      cases hrest : t.rest with
      | nil => exact finish hplace hjobs hi
      | cons n ns => exact node hplace hrest hjobs hi
    | collect _ hplace hjobs =>
      have hr := Evaluation.collectBinaryPaths_restored e
      subst hc
      apply settled
      · change Aligned env request none e.collectBinaryPaths.session.conditionals _ _
        rw [hr.conditionals]
        exact .resume hplace hjobs
      · exact hr.includes.trans hi
    | walk hsource hjobs =>
      subst hc
      exact walk hsource hjobs hi
    | files hsource hjobs =>
      subst hc
      exact files hsource hjobs hi
  · obtain ⟨rfl, rfl⟩ := List.cons.inj hj
    apply settled
    · exact ha
    · change e.session.includes.tail = _
      change e.session.includes = _ at hi
      rw [hi]
      rfl

end Attended

/-- At every moment of every run jobs, origins, conditionals and the files being read agree with
the texts that are open. -/
theorem Request.Shows.attended {env : Environment} {session : Session} {request : Request}
    {m : Moment} {texts : List OpenText} (hfresh : session.includes = [])
    (h : request.Shows env session m texts) : Attended env request m texts := by
  induction h with
  | start => exact .start env hfresh request
  | @step m texts _ hjobs ih =>
    obtain ⟨jobs, e, failure⟩ := m
    cases jobs with
    | nil => exact absurd rfl hjobs
    | cons job jobs =>
      cases failure with
      | none => exact ih.perform
      | some f => exact ih.abandon

end CampaignMarkup
