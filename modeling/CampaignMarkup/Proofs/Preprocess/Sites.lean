import CampaignMarkup.Proofs.Document.Places
import CampaignMarkup.Proofs.Macros.OrderedRows
import CampaignMarkup.Proofs.Preprocess.Inclusion
import CampaignMarkup.Proofs.Preprocess.Relaxation

/-! # Sites

A definition and a failure point at a line of the innermost file whose text is open, and the line is
one of that text: where the node under evaluation stands, which inside expansions is the call that
they came from, or the line of a comment that is at fault. -/
namespace CampaignMarkup

theorem LineMap.lineOf_lt_lineCount (source : String) (offset : Nat) :
    (ofText source).lineOf offset < (ofText source).lineCount := by
  have hle := (List.takeWhile_sublist (l := (ofText source).starts) (· ≤ offset)).length_le
  have hpos : 0 < (ofText source).starts.length := Nat.zero_lt_succ _
  unfold lineOf lineCount
  omega

theorem Node.ReadFrom.line_eq {lines : LineMap} {n : Node} {t : Token} (h : n.ReadFrom lines t)
    {line : Nat} (hline : n.line? = some line) : line = lines.lineOf t.span.start := by
  cases h with
  | token _ _ => cases hline
  | call _ => exact (Option.some.inj hline).symm
  | directive _ _ => exact (Option.some.inj hline).symm
  | define _ _ _ hat => exact (Option.some.inj hline).symm.trans hat

theorem StructureError.ReadFrom.site_eq {lines : LineMap} {e : StructureError} {t : Token}
    (h : e.ReadFrom lines t) (origin : Origin) :
    (Evaluation.structureFailure origin e).site? =
      some (origin.site (lines.lineOf t.span.start)) := by
  cases h with
  | define _ _ _ => rfl
  | arg _ _ _ _ => rfl

namespace OpenText

/-- The line at which a token of the text begins. -/
def lineOf (t : OpenText) (token : Token) : Nat :=
  (LineMap.ofText t.source).lineOf token.span.start

/-- The node under evaluation and the token it is read from, behind those of the nodes before. -/
structure At (t : OpenText) (n : Node) (token : Token) : Prop where
  place : ∃ done rest before after, t.rest = n :: rest ∧
    Node.ofSource t.source = .ok (done ++ n :: rest) ∧ lex t.source = before ++ token :: after ∧
    Node.Follow (LineMap.ofText t.source) [] done before ∧
    (token.kind = .comment → Token.BeginsLine before)
  read : n.ReadFrom (LineMap.ofText t.source) token

theorem exists_at {t : OpenText} {n : Node} {done rest : List Node} (hrest : t.rest = n :: rest)
    (h : Node.ofSource t.source = .ok (done ++ t.rest)) : ∃ token, t.At n token := by
  rw [hrest] at h
  have hplaced := Node.ofSource_placed t.source
  rw [h] at hplaced
  obtain ⟨before, token, after, hlex, hdone, hread, hbegins⟩ := Node.Follow.split hplaced
  rw [List.nil_append] at hbegins
  exact ⟨token, ⟨done, rest, before, after, hrest, h, hlex, hdone, hbegins⟩, hread⟩

/-- The text is stopped by a fault in its structure, and this comment is at fault. -/
structure FaultyAt (t : OpenText) (e : StructureError) (token : Token) : Prop where
  faulty : Node.ofSource t.source = .error e
  mem : token ∈ lex t.source
  read : e.ReadFrom (LineMap.ofText t.source) token

/-- The text has no node left, and the first conditional that it leaves open was opened here. -/
structure OpenedAt (t : OpenText) (kind : ConditionalKind) (token : Token) : Prop where
  finished : t.rest = []
  opening : ∃ ns d line, Node.ofSource t.source = .ok ns ∧
    (Node.leftOpen ns).getLast? = some (kind, line) ∧ .directive d line ∈ ns ∧
    ConditionalKind.ofDirective? d.kind = some kind ∧
    Node.ReadFrom (LineMap.ofText t.source) (.directive d line) token
  mem : token ∈ lex t.source

end OpenText

/-- What a failure blames: the call that expansions came from, the node under evaluation, which is
a call if a file is inside itself, the directive of a conditional that was left open, or the comment
that makes the text faulty. -/
inductive Blames (texts : List OpenText) (own : OpenText) : Failure → Token → Prop where
  | call {f call raw line token} : texts.head? ≠ some own → own.At (.call call raw line) token →
      Blames texts own f token
  | node {f n token} : texts.head? = some own → own.At n token →
      (∀ kind site, f ≠ .unterminatedConditional kind site) →
      (∀ path site, f = .includeCycle path site → ∃ call raw line, n = .call call raw line) →
      Blames texts own f token
  | conditional {kind site token} : texts.head? = some own → own.OpenedAt kind token →
      Blames texts own (.unterminatedConditional kind site) token
  | fault {e token} : texts.head? = some own → own.FaultyAt e token →
      Blames texts own (Evaluation.structureFailure { file := own.file } e) token

/-- What a definition is recorded from: a definition under evaluation, or the call that expansions
came from. -/
inductive Yields (texts : List OpenText) (own : OpenText) : Token → Prop where
  | call {call raw line token} : texts.head? ≠ some own → own.At (.call call raw line) token →
      Yields texts own token
  | define {block token} : texts.head? = some own → own.At (.define block) token →
      Yields texts own token

/-- The site is where this token of the innermost file begins. -/
structure PointsInto (env : Environment) (request : Request) (texts : List OpenText)
    (own : OpenText) (token : Token) (site : Site) : Prop where
  innermost : innermostOwn? texts = some own
  genuine : own.Genuine env request
  mem : token ∈ lex own.source
  site : site = ⟨own.file, own.lineOf token⟩

namespace Moment

/-- The next step puts the definition into the table. -/
structure Records (env : Environment) (m : Moment) (d : Definition) : Prop where
  undisturbed : m.failure = none
  rows : (m.next env).evaluation.session.macros.rows = m.evaluation.session.macros.rows ++ [d]

/-- The next step ends the run. -/
structure Fails (env : Environment) (m : Moment) (f : Failure) : Prop where
  undisturbed : m.failure = none
  failure : (m.next env).failure = some f

end Moment

namespace Aligned

variable {env : Environment} {request : Request} {failure : Option Failure} {c : Conditionals}
  {jobs : List Job} {texts : List OpenText}

theorem genuine (h : Aligned env request failure c jobs texts) :
    ∀ t ∈ texts, t.isOwn → t.Genuine env request := by
  induction h with
  | done => simp
  | enter _ hsupplied _ _ ih => exact List.forall_mem_cons.mpr ⟨fun ht => (hsupplied ht).1, ih⟩
  | resume hplace _ ih => exact List.forall_mem_cons.mpr ⟨fun ht => (hplace.supplied ht).1, ih⟩
  | collect _ hplace _ ih => exact List.forall_mem_cons.mpr ⟨fun ht => (hplace.supplied ht).1, ih⟩
  | walk _ _ ih => exact ih
  | files _ _ ih => exact ih

/-- A text with nodes left is in the middle of them. -/
theorem nodes (h : Aligned env request failure c jobs texts) : ∀ t ∈ texts, t.rest ≠ [] →
    ∃ done, Node.ofSource t.source = .ok (done ++ t.rest) := by
  induction h with
  | done => simp
  | enter hrest _ _ _ ih => exact List.forall_mem_cons.mpr ⟨fun hne => absurd hrest hne, ih⟩
  | resume hplace _ ih => exact List.forall_mem_cons.mpr ⟨fun _ => ⟨_, hplace.nodes⟩, ih⟩
  | @collect _ _ _ _ _ done n ns t _ hrest hplace _ ih =>
    refine List.forall_mem_cons.mpr ⟨fun _ => ⟨done, ?_⟩, ih⟩
    have hnodes : Node.ofSource t.source = .ok (done ++ [n] ++ t.pass.rest) := hplace.nodes
    simpa [OpenText.pass, hrest] using hnodes
  | walk _ _ ih => exact ih
  | files _ _ ih => exact ih

/-- While the innermost text of its own has no file, no file is open. -/
theorem no_file (h : Aligned env request failure c jobs texts) {own : OpenText}
    (hown : innermostOwn? texts = some own) (hfile : own.file = none) :
    texts.filterMap OpenText.file = [] := by
  have first : ∀ {t : OpenText} {outer : List OpenText}, t.Supplied env request outer →
      (innermostOwn? outer = some own → outer.filterMap OpenText.file = []) →
      innermostOwn? (t :: outer) = some own → (t :: outer).filterMap OpenText.file = [] := by
    intro t outer hsupplied ih ht
    cases hground : t.isOwn with
    | true =>
      obtain rfl : t = own := by simpa [innermostOwn?, hground] using ht
      rw [(hsupplied hground).2 hfile]
      simp [hfile]
    | false =>
      have hexpansion : t.ground = .expansion := by simpa [OpenText.isOwn] using hground
      have hnone : t.file = none := by simp [OpenText.file, hexpansion]
      rw [List.filterMap_cons_none hnone]
      exact ih (by simpa [innermostOwn?, hground] using ht)
  induction h with
  | done => rfl
  | enter _ hsupplied _ _ ih => exact first hsupplied ih hown
  | resume hplace _ ih => exact first hplace.supplied ih hown
  | collect _ hplace _ ih => exact first hplace.supplied ih hown
  | walk _ _ ih => exact ih hown
  | files _ _ ih => exact ih hown

/-- The innermost file stands at one of its nodes. -/
theorem pointsInto {own : OpenText} {n : Node} {rest : List Node} {line : Nat}
    (h : Aligned env request failure c jobs texts) (hown : innermostOwn? texts = some own)
    (hrest : own.rest = n :: rest) (hline : n.line? = some line) :
    ∃ token, own.At n token ∧ PointsInto env request texts own token ⟨own.file, line⟩ := by
  have hmem : own ∈ texts := List.mem_of_find?_eq_some hown
  obtain ⟨done, hdone⟩ := h.nodes own hmem (by simp [hrest])
  obtain ⟨token, hat⟩ := OpenText.exists_at hrest hdone
  refine ⟨token, hat, hown, h.genuine own hmem (List.find?_some hown), ?_, ?_⟩
  · obtain ⟨-, -, before, after, -, -, hlex, -⟩ := hat.place
    simp [hlex]
  · rw [hat.read.line_eq hline]
    rfl

/-- A call that texts came from is one of the innermost file. -/
theorem pointsInto_call {site : Site} (h : Aligned env request failure c jobs texts)
    (hcall : OnCall texts site) : ∃ own call raw line token,
      own.At (.call call raw line) token ∧ PointsInto env request texts own token site := by
  obtain ⟨own, call, raw, line, rest, hown, hrest, rfl⟩ := hcall
  obtain ⟨token, hat, hpoints⟩ := h.pointsInto hown hrest rfl
  exact ⟨own, call, raw, line, token, hat, hpoints⟩

end Aligned

/-- Inside an expansion the innermost file is another text. -/
theorem head?_ne_of_expansion {t own : OpenText} {outer : List OpenText} (h : t.isOwn = false)
    (hown : innermostOwn? (t :: outer) = some own) : (t :: outer).head? ≠ some own := by
  intro hhead
  obtain rfl : t = own := by simpa using hhead
  have := List.find?_some hown
  simp [h] at this

section Blames

variable {env : Environment} {request : Request} {failure : Option Failure} {c : Conditionals}
  {jobs : List Job} {t : OpenText} {outer texts : List OpenText} {origin : Origin} {f : Failure}
  {site : Site}

/-- Whatever fails inside an expansion blames the call. -/
theorem blames_call (h : Aligned env request failure c jobs (t :: outer))
    (hexpansion : t.isOwn = false) (hcall : OnCall (t :: outer) site) :
    ∃ own token, PointsInto env request (t :: outer) own token site ∧
      Blames (t :: outer) own f token := by
  obtain ⟨own, call, raw, line, token, hat, hpoints⟩ := h.pointsInto_call hcall
  exact ⟨own, token, hpoints, .call (head?_ne_of_expansion hexpansion hpoints.innermost) hat⟩

theorem blames_node (h : Aligned env request failure c jobs (t :: outer))
    (hfits : origin.Fits t outer) {n : Node} {rest : List Node} (hrest : t.rest = n :: rest)
    {line : Nat} (hline : n.line? = some line) (hf : f.Befalls (origin.site line))
    (hsite : f.site? = some site) :
    ∃ own token, PointsInto env request (t :: outer) own token site ∧
      Blames (t :: outer) own f token := by
  obtain rfl : origin.site line = site := Option.some.inj (hf.site.symm.trans hsite)
  rcases hfits.cases with ⟨hown, rfl⟩ | ⟨hexpansion, s, hcall, hs⟩
  · obtain ⟨token, hat, hpoints⟩ := h.pointsInto (innermostOwn?_own hown) hrest hline
    refine ⟨t, token, hpoints, .node rfl hat hf.closed ?_⟩
    intro path source hcycle
    exact absurd hcycle (hf.acyclic path source)
  · rw [hs]
    exact blames_call h hexpansion hcall

theorem blames_fault (h : Aligned env request failure c jobs (t :: outer))
    (hfits : origin.Fits t outer) {e : StructureError} (hfaulty : Node.ofSource t.source = .error e)
    (hsite : (Evaluation.structureFailure origin e).site? = some site) :
    ∃ own token, PointsInto env request (t :: outer) own token site ∧
      Blames (t :: outer) own (Evaluation.structureFailure origin e) token := by
  have hplaced := Node.ofSource_placed t.source
  rw [hfaulty] at hplaced
  obtain ⟨token, hmem, hread⟩ := hplaced
  obtain rfl : origin.site (t.lineOf token) = site :=
    Option.some.inj ((hread.site_eq origin).symm.trans hsite)
  rcases hfits.cases with ⟨hown, rfl⟩ | ⟨hexpansion, s, hcall, hs⟩
  · have hgenuine := h.genuine t List.mem_cons_self hown
    have hpoints : PointsInto env request (t :: outer) t token ⟨t.file, t.lineOf token⟩ :=
      ⟨innermostOwn?_own hown, hgenuine, hmem, rfl⟩
    exact ⟨t, token, hpoints, .fault rfl ⟨hfaulty, hmem, hread⟩⟩
  · rw [hs]
    exact blames_call h hexpansion hcall

/-- What nodes leave open, one of them opened. -/
theorem Node.exists_opening {ns : List Node} {kind : ConditionalKind} {line : Nat}
    (h : (kind, line) ∈ Node.leftOpen ns) :
    ∃ d, .directive d line ∈ ns ∧ ConditionalKind.ofDirective? d.kind = some kind := by
  induction ns using List.reverseRecOn with
  | nil => cases h
  | append_singleton ns n ih =>
    have earlier : (kind, line) ∈ Node.leftOpen ns →
        ∃ d, .directive d line ∈ ns ++ [n] ∧ ConditionalKind.ofDirective? d.kind = some kind := by
      intro hmem
      obtain ⟨d, hd, hkind⟩ := ih hmem
      exact ⟨d, List.mem_append_left _ hd, hkind⟩
    rw [Node.leftOpen, List.foldl_append] at h
    change (kind, line) ∈ Node.leaveOpen (Node.leftOpen ns) n at h
    have hn := n.eq_of_role
    unfold Node.leaveOpen at h
    split at h
    · next kind' mark hrole =>
      rw [hrole] at hn
      rcases List.mem_cons.mp h with heq | h
      · cases heq
        refine ⟨⟨kind.directive, mark.args, mark.rest⟩, ?_, kind.ofDirective?_directive⟩
        simp [hn, Node.opening]
      · exact earlier h
    · exact earlier (List.mem_of_mem_tail h)
    all_goals exact earlier h

theorem blames_conditional (h : Aligned env request failure c jobs (t :: outer))
    (hfits : origin.Fits t outer) (hfinished : t.rest = []) {ns : List Node}
    (hns : Node.ofSource t.source = .ok ns) {kind : ConditionalKind} {line : Nat}
    (hopen : (Node.leftOpen ns).getLast? = some (kind, line)) :
    ∃ own token, PointsInto env request (t :: outer) own token (origin.site line) ∧
      Blames (t :: outer) own (.unterminatedConditional kind (origin.site line)) token := by
  rcases hfits.cases with ⟨hown, rfl⟩ | ⟨hexpansion, s, hcall, hs⟩
  · obtain ⟨d, hmem, hkind⟩ := Node.exists_opening (List.mem_of_getLast? hopen)
    have hplaced := Node.ofSource_placed t.source
    rw [hns] at hplaced
    obtain ⟨done, rest, hsplit⟩ := List.append_of_mem hmem
    rw [hsplit] at hplaced
    obtain ⟨before, token, after, hlex, -, hread, -⟩ := Node.Follow.split hplaced
    have htoken : token ∈ lex t.source := by simp [hlex]
    refine ⟨t, token, ⟨innermostOwn?_own hown, h.genuine t List.mem_cons_self hown, htoken, ?_⟩,
      .conditional rfl ⟨hfinished, ⟨ns, d, line, hns, hopen, hmem, hkind, hread⟩, htoken⟩⟩
    rw [hread.line_eq rfl]
    rfl
  · rw [hs]
    exact blames_call h hexpansion hcall

/-- A cycle blames the call that the file is included by, and there is one. -/
theorem blames_cycle (h : Aligned env request failure c jobs texts) {e : Evaluation} {path : Path}
    (hsource : texts = [] ∨ OnCall texts site)
    (hincludes : e.session.includes = openFiles env.tree.workdir texts)
    (hreading : e.session.isReading (path.identity env.tree.workdir)) :
    ∃ own token, PointsInto env request texts own token site ∧
      Blames texts own (.includeCycle path site) token ∧ site.file ≠ none := by
  have hopen : texts.filterMap OpenText.file ≠ [] := by
    intro hnone
    rw [Session.isReading, hincludes, openFiles, hnone] at hreading
    simp at hreading
  have hcall : OnCall texts site := by
    rcases hsource with rfl | hcall
    · exact absurd rfl hopen
    · exact hcall
  obtain ⟨own, call, raw, line, token, hat, hpoints⟩ := h.pointsInto_call hcall
  refine ⟨own, token, hpoints, ?_, ?_⟩
  · by_cases hhead : texts.head? = some own
    · exact .node hhead hat (by simp) fun _ _ _ => ⟨call, raw, line, rfl⟩
    · exact .call hhead hat
  · intro hnone
    rw [hpoints.site] at hnone
    exact hopen (h.no_file hpoints.innermost hnone)

end Blames

/-- The first of the frames that a text has left open is that of its first open conditional. -/
theorem InPlace.openAbove? {env : Environment} {request : Request} {origin : Origin}
    {before now : Conditionals} {done : List Node} {t : OpenText} {outer : List OpenText}
    {frame : ConditionalFrame} (h : InPlace env request none origin before now done t outer)
    (hframe : now.openAbove? before.depth = some frame) :
    ∃ line, (Node.leftOpen done).getLast? = some (frame.kind, line) ∧
      frame.site = origin.site line := by
  obtain ⟨top, htop, hopened⟩ := h.frames
  have hcut : now.frames.length - before.depth = top.length := by
    rw [htop, List.length_append, Conditionals.depth]
    omega
  rw [Conditionals.openAbove?, hcut, htop, List.take_left] at hframe
  have hlast := congrArg List.getLast? (hopened rfl)
  rw [List.getLast?_map, List.getLast?_map, hframe] at hlast
  obtain ⟨⟨kind, line⟩, hopen, heq⟩ := Option.map_eq_some_iff.mp hlast.symm
  obtain ⟨rfl, hsite⟩ := Prod.mk.inj heq
  exact ⟨line, hopen, hsite.symm⟩

namespace Attended

variable {env : Environment} {request : Request} {m : Moment} {texts : List OpenText}

/-- By what the failing job is: the beginning of a text, a node, its end, a walk, or a file. -/
theorem blames (h : Attended env request m texts) {f : Failure} (hfails : m.Fails env f)
    {site : Site} (hsite : f.site? = some site) :
    ∃ own token, PointsInto env request texts own token site ∧ Blames texts own f token ∧
      ∀ path, f = .includeCycle path site → site.file ≠ none := by
  obtain ⟨jobs, e, failure⟩ := m
  obtain ⟨hnone, hf⟩ := hfails
  cases hnone
  rcases h with ⟨ha, hi⟩ | ⟨hj, -, -⟩
  swap
  · cases hj
    cases hf
  change Aligned env request _ e.session.conditionals jobs texts at ha
  change e.session.includes = _ at hi
  have hall := ha
  generalize hc : e.session.conditionals = c at ha
  cases ha with
  | done => cases hf
  | @enter _ depth origin jobs t outer _ _ hfits _ =>
    simp only [Moment.next, Moment.after, Job.perform] at hf
    split at hf
    · next error hfaulty =>
      cases hf
      obtain ⟨own, token, hpoints, hblames⟩ := blames_fault hall hfits hfaulty hsite
      refine ⟨own, token, hpoints, hblames, ?_⟩
      intro path hcycle
      cases error <;> cases hcycle
    · cases hf
  | @resume _ before depth origin jobs done t outer hplace _ =>
    subst hc
    cases hrest : t.rest with
    | nil =>
      rw [hrest] at hf
      simp only [Moment.next, Moment.after, Job.perform] at hf
      rw [Evaluation.finish_failure] at hf
      obtain ⟨frame, hframe, rfl⟩ := Option.map_eq_some_iff.mp hf
      cases hsite
      obtain ⟨line, hopen, hline⟩ := hplace.openAbove? hframe
      have hnodes := hplace.nodes
      rw [hrest, List.append_nil] at hnodes
      rw [hline]
      obtain ⟨own, token, hpoints, hblames⟩ :=
        blames_conditional hall hplace.fits hrest hnodes hopen
      exact ⟨own, token, hpoints, hblames, by simp⟩
    | cons n ns =>
      rw [hrest] at hf
      have hdeed := Job.performNode_deed env ⟨depth, origin, before, n :: ns⟩ e n
      obtain ⟨line, hline, hbefalls⟩ := hdeed.befalls hf
      obtain ⟨own, token, hpoints, hblames⟩ :=
        blames_node hall hplace.fits hrest hline hbefalls hsite
      refine ⟨own, token, hpoints, hblames, ?_⟩
      intro path hcycle
      exact absurd hcycle (hbefalls.acyclic path site)
  | collect _ _ _ => cases hf
  | walk _ _ =>
    simp only [Moment.next, Moment.after, Job.perform] at hf
    split at hf
    · next hfiles =>
      cases hf
      -- A directory that cannot be walked is told without a site.
      obtain ⟨error, rfl⟩ := Environment.filesAt_error hfiles
      cases hsite
    · cases hf
  | @files _ depth source paths jobs _ hsource _ =>
    cases paths with
    | nil => cases hf
    | cons path paths =>
      simp only [Moment.next, Moment.after, Job.perform] at hf
      split at hf
      · next hreading =>
        cases hf
        cases hsite
        obtain ⟨own, token, hpoints, hblames, hfile⟩ := blames_cycle hall hsource hi hreading
        exact ⟨own, token, hpoints, hblames, fun _ _ => hfile⟩
      · split at hf
        · cases hf
          cases hsite
        · cases hf

end Attended

/-- A job leaves the table alone, or takes a name out, or is a definition and puts it in. -/
theorem Job.perform_macros (env : Environment) (e : Evaluation) (job : Job) :
    (job.perform env e).2.1.session.macros = e.session.macros ∨
    (∃ name, (job.perform env e).2.1.session.macros = e.session.macros.undef name) ∨
    ∃ depth origin outer block ns definition,
      job = .resume ⟨depth, origin, outer, .define block :: ns⟩ ∧
      definition.site = origin.site block.line ∧
      (job.perform env e).2.1.session.macros = e.session.macros.define definition := by
  cases job with
  | enter depth origin source =>
    left
    simp only [Job.perform]
    split <;> rfl
  | resume a =>
    obtain ⟨depth, origin, outer, ns⟩ := a
    cases ns with
    | nil => exact .inl (congrArg (·.session.macros) (Evaluation.finish_fst outer.depth e.proceed))
    | cons n ns =>
      rcases (Job.performNode_deed env ⟨depth, origin, outer, n :: ns⟩ e n).macros with
        hm | ⟨name, hm⟩ | ⟨block, definition, rfl, hsite, hm⟩
      · exact .inl hm
      · exact .inr (.inl ⟨name, hm⟩)
      · exact .inr (.inr ⟨depth, origin, outer, block, ns, definition, rfl, hsite, hm⟩)
  | collect =>
    left
    simp only [Job.perform, Evaluation.collectBinaryPaths_eq]
    rfl
  | walk depth source path =>
    left
    simp only [Job.perform]
    split <;> rfl
  | files depth source paths =>
    left
    cases paths with
    | nil => rfl
    | cons path paths =>
      simp only [Job.perform]
      split
      · rfl
      · split <;> rfl
  | leave => exact .inl rfl

theorem Job.abandon_macros (e : Evaluation) (job : Job) :
    (job.abandon e).session.macros = e.session.macros := by
  cases job <;> rfl

/-- The first job of the moment is a definition, and the table gets it. -/
structure Moment.Defining (env : Environment) (m : Moment) (d : Definition) : Prop where
  undisturbed : m.failure = none
  job : ∃ depth origin outer block ns rest,
    m.jobs = .resume ⟨depth, origin, outer, .define block :: ns⟩ :: rest ∧
    d.site = origin.site block.line
  macros : (m.next env).evaluation.session.macros = m.evaluation.session.macros.define d

theorem Moment.next_macros (env : Environment) (m : Moment) :
    (m.next env).evaluation.session.macros = m.evaluation.session.macros ∨
    (∃ name, (m.next env).evaluation.session.macros = m.evaluation.session.macros.undef name) ∨
    ∃ d, m.Defining env d := by
  obtain ⟨jobs, e, failure⟩ := m
  cases jobs with
  | nil => exact .inl rfl
  | cons job rest =>
    cases failure with
    | some f => exact .inl (job.abandon_macros e)
    | none =>
      rcases job.perform_macros env e with
        hm | hm | ⟨depth, origin, outer, block, ns, d, rfl, hsite, hm⟩
      · exact .inl hm
      · exact .inr (.inl hm)
      · exact .inr (.inr ⟨d, rfl, ⟨depth, origin, outer, block, ns, rest, rfl, hsite⟩, hm⟩)

theorem Moment.Defining.records {env : Environment} {m : Moment} {d : Definition}
    (h : m.Defining env d) : m.Records env d :=
  ⟨h.undisturbed, by rw [h.macros, MacroTable.rows_define]⟩

/-- Only a definition under evaluation adds a row. -/
theorem Moment.Records.defining {env : Environment} {m : Moment} {d : Definition}
    (h : m.Records env d) : m.Defining env d := by
  have hrows := h.rows
  rcases m.next_macros env with hm | ⟨name, hm⟩ | ⟨d', hd⟩
  · rw [hm] at hrows
    simp at hrows
  · have hle := (m.evaluation.session.macros.rows_undef_sublist name).length_le
    rw [← hm, hrows, List.length_append, List.length_singleton] at hle
    omega
  · rw [hd.records.rows] at hrows
    obtain rfl : d' = d := by simpa using hrows
    exact hd

theorem Report.ofOutcome_macros (options : Options) (outcome : Outcome) :
    (ofOutcome options outcome).session.macros = outcome.1.session.macros := by
  have h := congrArg (·.session.macros) (Evaluation.collectBinaryPaths_eq outcome.1)
  simp only [ofOutcome]
  split <;> exact h

namespace Request.Shows

variable {env : Environment} {session : Session} {request : Request} {m : Moment}
  {texts : List OpenText}

/-- Every row of the table was there before, or was recorded at some moment. -/
theorem recorded (h : request.Shows env session m texts) :
    ∀ d ∈ m.evaluation.session.macros.rows, d ∈ session.macros.rows ∨
      ∃ m' texts', request.Shows env session m' texts' ∧ m'.Records env d := by
  induction h with
  | start =>
    cases request with
    | text file source => cases file <;> exact fun d hd => .inl hd
    | place path => exact fun d hd => .inl hd
  | @step m texts hm hjobs ih =>
    intro d hd
    rcases m.next_macros env with hsame | ⟨name, hundef⟩ | ⟨d', hdefine⟩
    · exact ih d (hsame ▸ hd)
    · rw [hundef] at hd
      exact ih d ((m.evaluation.session.macros.rows_undef_sublist name).subset hd)
    · rw [hdefine.records.rows] at hd
      rcases List.mem_append.mp hd with hd | hd
      · exact ih d hd
      · obtain rfl : d = d' := List.mem_singleton.mp hd
        exact .inr ⟨m, texts, hm, hdefine.records⟩

/-- Every failure of a run arose at some moment. -/
theorem arises (h : request.Shows env session m texts) {f : Failure} (hf : m.failure = some f) :
    ∃ m' texts', request.Shows env session m' texts' ∧ m'.Fails env f := by
  induction h with
  | start =>
    cases request with
    | text file source => cases file <;> cases hf
    | place path => cases hf
  | @step m texts hm hjobs ih =>
    cases hfailure : m.failure with
    | none => exact ⟨m, texts, hm, hfailure, hf⟩
    | some g =>
      apply ih
      obtain ⟨jobs, e, failure⟩ := m
      cases jobs with
      | nil => exact absurd rfl hjobs
      | cons job rest =>
        cases hfailure
        exact hf

end Request.Shows

/-- A definition is recorded from where the innermost file stands. -/
theorem Attended.yields {env : Environment} {request : Request} {m : Moment}
    {texts : List OpenText} (h : Attended env request m texts) {d : Definition}
    (hd : m.Defining env d) :
    ∃ own token, PointsInto env request texts own token d.site ∧ Yields texts own token := by
  obtain ⟨jobs, e, failure⟩ := m
  obtain ⟨-, ⟨depth, origin, before, block, ns, rest, hjobs, hsite⟩, -⟩ := hd
  rcases h with ⟨ha, -⟩ | ⟨hj, -, -⟩
  swap
  · rw [hjobs] at hj
    cases hj
  change Aligned env request _ e.session.conditionals jobs texts at ha
  have hall := ha
  change jobs = _ at hjobs
  rw [hsite]
  generalize e.session.conditionals = c at ha
  cases ha with
  | done => cases hjobs
  | enter _ _ _ _ => cases hjobs
  | collect _ _ _ => cases hjobs
  | walk _ _ => cases hjobs
  | files _ _ => cases hjobs
  | @resume _ before depth origin jobs _ t outer hplace _ =>
    obtain ⟨hjob, -⟩ := List.cons.inj hjobs
    simp only [Job.resume.injEq, Activation.mk.injEq] at hjob
    obtain ⟨-, rfl, -, hrest⟩ := hjob
    rcases hplace.fits.cases with ⟨hown, rfl⟩ | ⟨hexpansion, s, hcall, hs⟩
    · obtain ⟨token, hat, hpoints⟩ := hall.pointsInto (innermostOwn?_own hown) hrest rfl
      exact ⟨t, token, hpoints, .define rfl hat⟩
    · rw [hs]
      obtain ⟨own, call, raw, line, token, hat, hpoints⟩ := hall.pointsInto_call hcall
      exact ⟨own, token, hpoints,
        .call (head?_ne_of_expansion hexpansion hpoints.innermost) hat⟩

theorem PointsInto.line_lt {env : Environment} {request : Request} {texts : List OpenText}
    {own : OpenText} {token : Token} {site : Site}
    (h : PointsInto env request texts own token site) :
    site.line < (LineMap.ofText own.source).lineCount := by
  rw [h.site]
  exact LineMap.lineOf_lt_lineCount own.source token.span.start

/-- From an empty session: every row of the table that a run leaves was recorded at a moment of
it, every definition recorded points into the innermost file and to where it is recorded from, and
so does the failure that ends the run. A cycle is found at a call in a file. -/
theorem sites_are_lines_of_innermost_file (env : Environment) (request : Request) :
    (∀ d ∈ (request.report env {}).session.macros.rows,
      ∃ m texts, request.Shows env {} m texts ∧ m.Records env d) ∧
    (∀ m texts d, request.Shows env {} m texts → m.Records env d →
      ∃ own token, PointsInto env request texts own token d.site ∧ Yields texts own token ∧
        d.site.line < (LineMap.ofText own.source).lineCount) ∧
    ∀ f site, (request.report env {}).result = .error f → f.site? = some site →
      ∃ m texts own token, request.Shows env {} m texts ∧ m.Fails env f ∧
        PointsInto env request texts own token site ∧ Blames texts own f token ∧
        site.line < (LineMap.ofText own.source).lineCount ∧
        ∀ path, f = .includeCycle path site → site.file ≠ none := by
  obtain ⟨last, hlast⟩ := (request.reaches_outcome env {}).exists_shows
  refine ⟨?_, ?_, ?_⟩
  · intro d hd
    rw [request.report_eq, Report.ofOutcome_macros] at hd
    rcases hlast.recorded d hd with hbefore | hrecorded
    · exact absurd hbefore List.not_mem_nil
    · exact hrecorded
  · intro m texts d hshows hrecords
    obtain ⟨own, token, hpoints, hyields⟩ :=
      (hshows.attended rfl).yields hrecords.defining
    exact ⟨own, token, hpoints, hyields, hpoints.line_lt⟩
  · intro f site hresult hsite
    rw [request.report_eq] at hresult
    obtain ⟨m, texts, hshows, hfails⟩ := hlast.arises (Report.ofOutcome_error hresult)
    obtain ⟨own, token, hpoints, hblames, hcycle⟩ := (hshows.attended rfl).blames hfails hsite
    exact ⟨m, texts, own, token, hshows, hfails, hpoints, hblames, hpoints.line_lt, hcycle⟩

end CampaignMarkup
