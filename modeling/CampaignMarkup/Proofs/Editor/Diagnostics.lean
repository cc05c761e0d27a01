import CampaignMarkup.Editor.Server
import Mathlib.Data.List.Basic

/-! # What a client sees of the parses

A server publishes the diagnostic of a failed parse, takes it back when a later parse ends
otherwise, and serves the macros of the last parse that succeeded. Publishing, taking back and
remembering are separate steps, so the statements are about a whole life of a server: any requests
in any order, with parses that end in any way, also without an answer. -/
namespace CampaignMarkup

/-- What the event tells about a document. -/
def ServerEvent.about? (uri : Uri) : ServerEvent → Option (List Diagnostic)
  | .diagnostics u ds => if u = uri then some ds else none
  | .message _ _ => none

/-- The diagnostics last published for a document. -/
def lastPublished (uri : Uri) (sent : List ServerEvent) : Option (List Diagnostic) :=
  (sent.filterMap (ServerEvent.about? uri)).getLast?

/-- How an attempt to parse the workspace can end. -/
inductive ParseAttempt where
  /-- There was nothing to parse. -/
  | unconfigured
  /-- The parse was cut off before it came to a result. -/
  | interrupted
  | finished (result : Except Failure MacroTable)
deriving Inhabited

namespace ParseAttempt

def result? : ParseAttempt → Option (Except Failure MacroTable)
  | .finished result => some result
  | .unconfigured | .interrupted => none

def table? : ParseAttempt → Option MacroTable
  | .finished (.ok macros) => some macros
  | _ => none

end ParseAttempt

namespace Server

/-- Takes in an attempt. Only one that came to a result changes anything. -/
def attempt (s : Server) (workdir : Location) : ParseAttempt → Server × List ServerEvent
  | .finished result => s.conclude workdir result
  | .unconfigured | .interrupted => (s, [])

/-- How a parse of the workspace as it stands in the tree ends. -/
def attemptOn (s : Server) (tree : FileTree) : ParseAttempt :=
  if s.workspace.isConfigured then
    .finished ((s.workspace.parse tree).result.map
      fun _ => (s.workspace.parse tree).session.macros)
  else .unconfigured

theorem reparse_eq_attempt (s : Server) (tree : FileTree) :
    ((s.reparse tree).server, (s.reparse tree).events) =
      s.attempt tree.workdir (s.attemptOn tree) := by
  unfold reparse attemptOn
  by_cases h : s.workspace.isConfigured
  · simp only [h, if_true]
    rfl
  · simp only [h]
    rfl

/-- What a server has to deal with. A parse that ends in a given way stands beside the parses of the
workspace itself, because an interruption cannot be read off the files. -/
inductive Input where
  | connect (options : Option JsonValue)
  | openDocument (uri : Uri) (text : String)
  | changeDocument (uri : Uri) (texts : List String)
  | closeDocument (uri : Uri)
  | parse (workdir : Location) (attempt : ParseAttempt)
  | reparse (tree : FileTree)
  | ready (tree : FileTree)

/-- A server with all that it sent and how its parses ended, oldest first. -/
structure Life where
  server : Server
  sent : List ServerEvent := []
  parses : List (Location × ParseAttempt) := []

namespace Life

def step (l : Life) : Input → Life
  | .connect options => { l with server := l.server.connect options }
  | .openDocument uri text => { l with server := l.server.openDocument uri text }
  | .changeDocument uri texts => { l with server := l.server.changeDocument uri texts }
  | .closeDocument uri => { l with server := l.server.closeDocument uri }
  | .parse workdir attempt =>
    ⟨(l.server.attempt workdir attempt).1, l.sent ++ (l.server.attempt workdir attempt).2,
      l.parses ++ [(workdir, attempt)]⟩
  | .reparse tree =>
    ⟨(l.server.reparse tree).server, l.sent ++ (l.server.reparse tree).events,
      l.parses ++ [(tree.workdir, l.server.attemptOn tree)]⟩
  | .ready tree =>
    ⟨(l.server.ready tree).server, l.sent ++ (l.server.ready tree).events,
      l.parses ++ [(tree.workdir, l.server.attemptOn tree)]⟩

/-- The life of a server for these settings, through these inputs. -/
def through (workspace : Workspace) (inputs : List Input) : Life :=
  inputs.foldl step { server := { workspace } }

/-- The failure of the last parse that came to a result, unless that parse succeeded. -/
def standing? (l : Life) : Option (Location × Failure) :=
  (l.parses.filterMap fun p => p.2.result?.map (p.1, ·)).getLast?.bind fun p =>
    match p.2 with
    | .error failure => some (p.1, failure)
    | .ok _ => none

/-- The table of the last parse that succeeded. -/
def latestTable? (l : Life) : Option MacroTable :=
  (l.parses.filterMap (·.2.table?)).getLast?

/-- The document that the standing failure belongs to. -/
def blamed? (l : Life) : Option Uri :=
  l.standing?.bind fun p => p.2.uri? p.1

end Life

end Server

@[simp] theorem lastPublished_nil (uri : Uri) : lastPublished uri [] = none := rfl

theorem lastPublished_append (uri : Uri) (before after : List ServerEvent) :
    lastPublished uri (before ++ after) =
      (lastPublished uri after).or (lastPublished uri before) := by
  rw [lastPublished, List.filterMap_append, List.getLast?_append]
  rfl

@[simp] theorem lastPublished_cons (uri : Uri) (event : ServerEvent) (after : List ServerEvent) :
    lastPublished uri (event :: after) = (lastPublished uri after).or (event.about? uri) := by
  have h : lastPublished uri [event] = event.about? uri := by
    cases ha : event.about? uri <;> simp [lastPublished, ha]
  rw [← h]
  exact lastPublished_append uri [event] after

namespace Server

open Life

/-- A success takes back what the document of the earlier failure shows. -/
theorem lastPublished_success (s : Server) (workdir : Location) (macros : MacroTable) (uri : Uri) :
    lastPublished uri (s.conclude workdir (.ok macros)).2 =
      if s.failed = some uri then some [] else none := by
  cases hold : s.failed with
  | none => simp [conclude, hold, ServerEvent.about?]
  | some old => by_cases hu : old = uri <;> simp [conclude, hold, ServerEvent.about?, hu]

/-- A failure is published for its own document, and what another document shows is taken back. -/
theorem lastPublished_failure (s : Server) (workdir : Location) (f : Failure) (uri : Uri) :
    lastPublished uri (s.conclude workdir (.error f)).2 =
      if f.uri? workdir = some uri then some [f.diagnostic]
      else if s.failed = some uri then some [] else none := by
  simp only [conclude]
  cases hnew : f.uri? workdir with
  | none =>
    cases hold : s.failed with
    | none => simp [ServerEvent.about?]
    | some old => by_cases hu : old = uri <;> simp [ServerEvent.about?, hu]
  | some new =>
    cases hold : s.failed with
    | none => by_cases hn : new = uri <;> simp [ServerEvent.about?, hn]
    | some old =>
      by_cases hn : new = uri
      · subst hn
        by_cases hon : old = new <;> simp [ServerEvent.about?, hon]
      · by_cases hu : old = uri
        · subst hu
          simp [ServerEvent.about?, hn, Ne.symm hn]
        · by_cases hon : old = new <;> simp [ServerEvent.about?, hn, hu, hon]

namespace Life

/-- The server remembers the document of the standing failure, that document alone shows a
diagnostic, and the table is that of the last success. -/
structure Coherent (l : Life) : Prop where
  failed : l.server.failed = l.blamed?
  shown : ∀ uri, (lastPublished uri l.sent).getD [] =
    if l.blamed? = some uri then (l.standing?.map fun p => p.2.diagnostic).toList else []
  macros : l.server.macros = l.latestTable?

variable {l : Life}

theorem coherent_fresh (workspace : Workspace) :
    Coherent { server := { workspace } } := by
  constructor
  · rfl
  · intro uri
    rfl
  · rfl

section

variable (workdir : Location) (server : Server) (sent : List ServerEvent)

theorem standing?_finished (result : Except Failure MacroTable) :
    standing? ⟨server, sent, l.parses ++ [(workdir, .finished result)]⟩ =
      match result with
      | .error failure => some (workdir, failure)
      | .ok _ => none := by
  simp only [standing?, List.filterMap_append]
  cases result <;> simp [ParseAttempt.result?]

/-- Without a result the failure and the table of before stand. -/
theorem unresolved {attempt : ParseAttempt} (h : attempt.result? = none) :
    standing? ⟨server, sent, l.parses ++ [(workdir, attempt)]⟩ = l.standing? ∧
      latestTable? ⟨server, sent, l.parses ++ [(workdir, attempt)]⟩ = l.latestTable? := by
  have ht : attempt.table? = none := by
    cases attempt with
    | finished result => cases h
    | unconfigured => rfl
    | interrupted => rfl
  simp [standing?, latestTable?, h, ht]

end

theorem coherent_success (h : l.Coherent) (workdir : Location) (macros : MacroTable) :
    (l.step (.parse workdir (.finished (.ok macros)))).Coherent := by
  have hstanding : (l.step (.parse workdir (.finished (.ok macros)))).standing? = none :=
    standing?_finished workdir _ _ _
  have hblamed : (l.step (.parse workdir (.finished (.ok macros)))).blamed? = none := by
    simp [blamed?, hstanding]
  constructor
  · rw [hblamed]
    rfl
  · intro uri
    rw [hblamed]
    change (lastPublished uri (l.sent ++ (l.server.conclude workdir (.ok macros)).2)).getD [] = []
    rw [lastPublished_append, lastPublished_success, h.failed]
    have hbefore := h.shown uri
    by_cases hu : l.blamed? = some uri
    · simp [hu]
    · simpa [hu] using hbefore
  · simp [step, attempt, conclude, latestTable?, ParseAttempt.table?]

theorem coherent_failure (h : l.Coherent) (workdir : Location) (f : Failure) :
    (l.step (.parse workdir (.finished (.error f)))).Coherent := by
  have hstanding : (l.step (.parse workdir (.finished (.error f)))).standing? =
      some (workdir, f) := standing?_finished workdir _ _ _
  have hblamed : (l.step (.parse workdir (.finished (.error f)))).blamed? = f.uri? workdir := by
    simp [blamed?, hstanding]
  constructor
  · rw [hblamed]
    rfl
  · intro uri
    rw [hblamed, hstanding]
    change (lastPublished uri (l.sent ++ (l.server.conclude workdir (.error f)).2)).getD [] = _
    rw [lastPublished_append, lastPublished_failure, h.failed]
    have hbefore := h.shown uri
    by_cases hn : f.uri? workdir = some uri
    · simp [hn]
    · by_cases hu : l.blamed? = some uri
      · simp [hn, hu]
      · simpa [hn, hu] using hbefore
  · have hsame : (l.step (.parse workdir (.finished (.error f)))).latestTable? =
        l.latestTable? := by
      simp [step, latestTable?, ParseAttempt.table?]
    rw [hsame]
    exact h.macros

theorem coherent_parse (h : l.Coherent) (workdir : Location) (a : ParseAttempt) :
    (l.step (.parse workdir a)).Coherent := by
  have unchanged : a.result? = none → l.server.attempt workdir a = (l.server, []) →
      (l.step (.parse workdir a)).Coherent := by
    intro hnone hattempt
    simp only [step, hattempt, List.append_nil]
    obtain ⟨hstanding, htable⟩ := unresolved (l := l) workdir l.server l.sent hnone
    constructor
    · rw [blamed?, hstanding]
      exact h.failed
    · intro uri
      rw [blamed?, hstanding]
      exact h.shown uri
    · rw [htable]
      exact h.macros
  cases a with
  | unconfigured => exact unchanged rfl rfl
  | interrupted => exact unchanged rfl rfl
  | finished result =>
    cases result with
    | ok macros => exact coherent_success h workdir macros
    | error f => exact coherent_failure h workdir f

/-- Parsing the workspace is an attempt that ends as the files have it. -/
theorem step_reparse (l : Life) (tree : FileTree) :
    l.step (.reparse tree) = l.step (.parse tree.workdir (l.server.attemptOn tree)) := by
  have h := reparse_eq_attempt l.server tree
  simp only [step, ← h]

theorem coherent_ready (h : l.Coherent) (tree : FileTree) : (l.step (.ready tree)).Coherent := by
  have hr : (l.step (.reparse tree)).Coherent := by
    rw [step_reparse]
    exact coherent_parse h _ _
  -- the greeting is no diagnostic
  have hsent : ∀ uri, lastPublished uri (l.step (.ready tree)).sent =
      lastPublished uri (l.step (.reparse tree)).sent := by
    intro uri
    simp [step, ready, lastPublished, ServerEvent.about?]
  constructor
  · exact hr.failed
  · intro uri
    rw [hsent]
    exact hr.shown uri
  · exact hr.macros

theorem step_coherent (h : l.Coherent) (input : Input) : (l.step input).Coherent := by
  cases input with
  | connect options => exact ⟨h.failed, h.shown, h.macros⟩
  | openDocument uri text => exact ⟨h.failed, h.shown, h.macros⟩
  | changeDocument uri texts =>
    simp only [step, changeDocument]
    split <;> exact ⟨h.failed, h.shown, h.macros⟩
  | closeDocument uri => exact ⟨h.failed, h.shown, h.macros⟩
  | parse workdir a => exact coherent_parse h workdir a
  | reparse tree =>
    rw [step_reparse]
    exact coherent_parse h _ _
  | ready tree => exact coherent_ready h tree

theorem foldl_coherent (h : l.Coherent) (inputs : List Input) :
    (inputs.foldl step l).Coherent := by
  induction inputs generalizing l with
  | nil => exact h
  | cons input inputs ih =>
    rw [List.foldl_cons]
    exact ih (step_coherent h input)

theorem coherent_through (workspace : Workspace) (inputs : List Input) :
    (through workspace inputs).Coherent :=
  foldl_coherent (coherent_fresh workspace) inputs

end Life

end Server

open Server.Life in
/-- After any requests, the documents that show a diagnostic are those the server remembers: the one
of the last failure, with that failure's diagnostic, and none once a parse has succeeded. The macros
are those of the last parse that succeeded, if one has. -/
theorem diagnostics_and_table_follow_parses (workspace : Workspace) (inputs : List Server.Input) :
    let l := through workspace inputs
    (∀ uri, (∃ ds, lastPublished uri l.sent = some ds ∧ ds ≠ []) ↔ l.server.failed = some uri) ∧
    l.server.failed = (l.standing?.bind fun p => p.2.uri? p.1) ∧
    (∀ uri, l.server.failed = some uri → ∃ workdir f, l.standing? = some (workdir, f) ∧
      lastPublished uri l.sent = some [f.diagnostic]) ∧
    l.server.macros = l.latestTable? := by
  intro l
  have h : l.Coherent := coherent_through workspace inputs
  have published : ∀ uri, l.server.failed = some uri →
      ∃ workdir f, l.standing? = some (workdir, f) ∧
        lastPublished uri l.sent = some [f.diagnostic] := by
    intro uri huri
    have hshown := h.shown uri
    rw [h.failed] at huri
    obtain ⟨⟨workdir, f⟩, hstanding, -⟩ := Option.bind_eq_some_iff.mp huri
    rw [if_pos huri, hstanding] at hshown
    refine ⟨workdir, f, hstanding, ?_⟩
    cases hlast : lastPublished uri l.sent with
    | none => simp [hlast] at hshown
    | some ds => simpa [hlast] using hshown
  refine ⟨?_, h.failed, published, h.macros⟩
  intro uri
  constructor
  · rintro ⟨ds, hlast, hne⟩
    have hshown := h.shown uri
    rw [hlast] at hshown
    rw [h.failed]
    by_contra hother
    rw [if_neg hother] at hshown
    exact hne hshown
  · intro huri
    obtain ⟨workdir, f, -, hlast⟩ := published uri huri
    exact ⟨_, hlast, List.cons_ne_nil _ _⟩

end CampaignMarkup
