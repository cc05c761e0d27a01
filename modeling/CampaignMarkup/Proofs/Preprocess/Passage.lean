import CampaignMarkup.Proofs.Conditional.Structured
import CampaignMarkup.Proofs.Document.Directives
import CampaignMarkup.Proofs.Macros.OrderedRows
import CampaignMarkup.Proofs.Token.Lossless

/-! # The passage of plain text

Markup without comments and concatenations, in which every form is closed and every line ends in a
line feed, comes out of a run as it went in, as long as its calls name neither a macro nor a place.
At every moment of such a run the output is what the tokens read so far are written as, and the
binary paths are those that this much of the text sets. -/
namespace CampaignMarkup

namespace Output

theorem write_append (o : Output) (s t : String) : o.write (s ++ t) = (o.write s).write t := by
  simp [write]

/-- The output with nothing left to take. -/
def taken (o : Output) : Output :=
  { o with found := [] }

theorem put_text (o : Output) (c : Char) : (o.put c).text = o.text.push c := by
  unfold put
  split <;> rfl

theorem write_text (o : Output) (s : String) : (o.write s).text = o.text ++ s := by
  apply String.toList_injective
  rw [write, String.toList_append]
  induction s.toList generalizing o with
  | nil => simp
  | cons c cs ih =>
    rw [List.foldl_cons, ih, put_text]
    simp

theorem put_taken (o : Output) (c : Char) :
    (o.put c).taken = (o.taken.put c).taken ∧
      (o.put c).found = o.found ++ (o.taken.put c).found := by
  unfold put
  split
  · exact ⟨rfl, rfl⟩
  · exact ⟨rfl, (List.append_nil _).symm⟩

/-- Taking the paths found so far changes nothing about those found later. -/
theorem write_taken (o : Output) (s : String) :
    (o.write s).taken = (o.taken.write s).taken ∧
      (o.write s).found = o.found ++ (o.taken.write s).found := by
  unfold write
  induction s.toList generalizing o with
  | nil => exact ⟨rfl, (List.append_nil _).symm⟩
  | cons c cs ih =>
    obtain ⟨hput, hfound⟩ := put_taken o c
    obtain ⟨hrest, hmore⟩ := ih (o.put c)
    obtain ⟨hrest', hmore'⟩ := ih (o.taken.put c)
    rw [List.foldl_cons, List.foldl_cons, hrest, hmore, hrest', hmore', hput, hfound]
    exact ⟨rfl, List.append_assoc _ _ _⟩

end Output

namespace MacroTable

theorem lookup_eq_none {t : MacroTable} (h : t.rows = []) (name : String) :
    t.lookup name = none := by
  have hrow : t.rowAt? = fun _ => none := by
    funext position
    rw [rowAt?_eq]
    cases hslot : t.slots.toList[position]? with
    | none => rfl
    | some slot => exact List.filterMap_eq_nil_iff.mp h slot (List.mem_of_getElem? hslot)
  unfold lookup
  cases t.index[name]? with
  | none => rfl
  | some positions => simp [hrow]

end MacroTable

namespace Session

/-- The binary paths known once the text is written. -/
def pathsAfter (s : Session) (text : String) : List Path :=
  (({} : Output).write text).found.foldl register s.binaryPaths

end Session

namespace Node

/-- Without comments every token is a node, whatever the lines are. -/
theorem ofTokens_uncommented (source : List Char) (lines : LineMap) (docs : List String)
    {ts : List Token} (h : ∀ t ∈ ts, t.kind ≠ .comment) :
    ofTokens source lines docs ts = .ok (ts.filterMap (ofToken? lines)) := by
  induction hn : ts.length using Nat.strong_induction_on generalizing docs ts with
  | _ n ih =>
    cases ts with
    | nil =>
      rw [ofTokens]
      rfl
    | cons t rest =>
      have hsplit := Token.splitLine_append (t :: rest)
      have hfirst : ∀ u ∈ ((t :: rest).dropWhile Token.isWhitespace).head?, u.kind ≠ .comment :=
        fun u hu => h u ((List.dropWhile_sublist _).subset (List.mem_of_mem_head? hu))
      have hlater : ∀ u ∈ (Token.splitLine (t :: rest)).2, u.kind ≠ .comment := by
        intro u hu
        exact h u (hsplit ▸ List.mem_append_right _ hu)
      have hshort : (Token.splitLine (t :: rest)).2.length < n := by
        have := Token.splitLine_length_le t rest
        rw [← hn, List.length_cons]
        omega
      rw [ofTokens_line source lines docs (List.cons_ne_nil _ _) hfirst, ih _ hshort [] hlater rfl]
      conv_rhs => rw [← hsplit, List.filterMap_append]
      rfl

end Node

/-- Markup of which nothing is dropped, joined, closed or rewritten. -/
structure Plain (source : String) : Prop where
  uncommented : ∀ t ∈ lex source, t.kind ≠ .comment
  unjoined : lex source = tokenize source
  closed : ∀ t ∈ lex source, t.kind.isOpen (t.slice source) = false
  fed : ∀ t ∈ lex source, t.kind = .endOfLine → t.content = "\n"

theorem Plain.detokenize_lex {source : String} (h : Plain source) :
    detokenize (lex source) = source := by
  have hclosed : missingDelimiter source = "" := by
    rw [missingDelimiter]
    cases hlast : (tokenize source).getLast? with
    | none => rfl
    | some t =>
      have ht : t ∈ lex source := by
        rw [h.unjoined]
        exact List.mem_of_getLast? hlast
      simp [TokenKind.missing, h.closed t ht]
  rw [h.unjoined, detokenize_tokenize, hclosed, String.append_empty]

/-- No call of the source that has a name and no arguments names a place, seen from `current` with
the binary paths known where the call stands. -/
def NamesNoPlace (env : Environment) (session : Session) (current : Path) (source : String) :
    Prop :=
  ∀ p ∈ (lex source).zipIdx, p.1.kind = .macroCall →
    (MacroCall.read p.1.content).name ≠ "" → (MacroCall.read p.1.content).args = [] →
      env.tree.has (env.resolver.resolve env.tree
        (session.pathsAfter (detokenize ((lex source).take p.2))) current
        (MacroCall.read p.1.content).name) = false

namespace Evaluation

/-- A run that has written so much and done nothing else but register binary paths. -/
structure Passing (session : Session) (written : String) (e : Evaluation) : Prop where
  macros : e.session.macros = session.macros
  conditionals : e.session.conditionals = session.conditionals
  binaryPaths : e.session.binaryPaths = session.pathsAfter written
  output : e.output = (({} : Output).write written).taken

variable {env : Environment} {session : Session} {written : String} {e : Evaluation}

/-- Written and collected, a piece of text is only one more piece of the output. -/
theorem Passing.write (h : Passing session written e) (s : String) (warnings : List Warning) :
    Passing session (written ++ s)
      ({ e with warnings, output := e.output.write s }.collectBinaryPaths) := by
  obtain ⟨htaken, hfound⟩ := Output.write_taken (({} : Output).write written) s
  rw [collectBinaryPaths_eq]
  refine ⟨h.macros, h.conditionals, ?_, ?_⟩
  · change (e.output.write s).found.foldl Session.register e.session.binaryPaths = _
    rw [h.binaryPaths, h.output, Session.pathsAfter, Session.pathsAfter, Output.write_append,
      hfound, List.foldl_append]
  · change (e.output.write s).taken = _
    rw [h.output, Output.write_append, htaken]

/-- A call that names nothing is written as it stands. -/
theorem expand_passes (h : Passing session written e) (hrows : session.macros.rows = [])
    (hpolicy : env.options.undefinedMacro = .passthrough) (run : Runner) {origin : Origin}
    {call : MacroCall} (raw : String) (site : Site)
    (hplace : call.name ≠ "" → call.args = [] → env.tree.has (env.resolver.resolve env.tree
      (session.pathsAfter written) origin.current call.name) = false) :
    ∃ warnings, e.expand env (some run) origin call raw site =
      proceed { e with warnings, output := e.output.write ("\x7b" ++ raw ++ "\x7d") } := by
  by_cases hname : call.name = ""
  · exact ⟨e.warnings, by rw [expand, if_pos hname]; rfl⟩
  · have hlookup : e.session.macros.lookup call.name = none := by
      rw [h.macros, MacroTable.lookup_eq_none hrows]
    have hnot : (call.args.isEmpty && env.tree.has (env.resolver.resolve env.tree
        e.session.binaryPaths origin.current call.name)) = false := by
      rw [h.binaryPaths]
      cases hargs : call.args with
      | nil => exact hplace hname hargs
      | cons arg args => rfl
    refine ⟨e.warnings ++ [⟨site, "undefined macro left in place (" ++ call.name ++ ")"⟩], ?_⟩
    rw [expand, if_neg hname]
    simp only [hlookup, hnot, leaveUndefined, hpolicy]
    rfl

theorem writeToken_eq {t : Token} (o : Output) (hkind : t.kind ≠ .comment)
    (hfed : t.kind = .endOfLine → t.content = "\n") : o.writeToken t = o.write t.render := by
  unfold Output.writeToken
  split
  · next hk => exact absurd hk hkind
  · next hk => rw [Token.render, hk, hfed hk]
  · rfl

/-- The step: a token that is no comment is written as the markup it stands for. -/
theorem token_passes (h : Passing session written e) (hactive : session.conditionals.isActive)
    (hrows : session.macros.rows = []) (hpolicy : env.options.undefinedMacro = .passthrough)
    (run : Runner) {origin : Origin} (floor : Nat) (lines : LineMap) {t : Token}
    (hkind : t.kind ≠ .comment) (hfed : t.kind = .endOfLine → t.content = "\n")
    (hplace : t.kind = .macroCall → (MacroCall.read t.content).name ≠ "" →
      (MacroCall.read t.content).args = [] → env.tree.has (env.resolver.resolve env.tree
        (session.pathsAfter written) origin.current (MacroCall.read t.content).name) = false) :
    ∃ n e', Node.ofToken? lines t = some n ∧
      e.nodeAndPaths env (some run) origin floor n = proceed e' ∧
      Passing session (written ++ t.render) e' := by
  have hactive : e.session.conditionals.isActive := h.conditionals ▸ hactive
  by_cases hcall : t.kind = .macroCall
  · obtain ⟨warnings, hexpand⟩ := expand_passes h hrows hpolicy run t.content
      (origin.site (lines.lineOf t.span.start)) (hplace hcall)
    refine ⟨_, _, by rw [Node.ofToken?, hcall], ?_, h.write t.render warnings⟩
    have hrender : t.render = "\x7b" ++ t.content ++ "\x7d" := by rw [Token.render, hcall]
    rw [nodeAndPaths_eq, hrender]
    simp only [node, hactive, if_true, hexpand]
    rfl
  · have hnode : Node.ofToken? lines t = some (.token t) := by
      unfold Node.ofToken?
      split
      · next hk => exact absurd hk hkind
      · next hk => exact absurd hk hcall
      · rfl
    refine ⟨_, _, hnode, ?_, h.write t.render e.warnings⟩
    rw [nodeAndPaths_eq]
    simp only [node, hactive, if_true, writeToken_eq e.output hkind hfed]
    rfl

/-- The run: by induction on the tokens still to come, behind those that are written. -/
theorem tokens_pass {source : String} (hplain : Plain source)
    (hactive : session.conditionals.isActive) (hrows : session.macros.rows = [])
    (hpolicy : env.options.undefinedMacro = .passthrough) (run : Runner) {origin : Origin}
    (hplace : NamesNoPlace env session origin.current source) (floor : Nat) (lines : LineMap)
    {before ts : List Token} (hsplit : lex source = before ++ ts)
    (h : Passing session (detokenize before) e) :
    ∃ e', each (nodeAndPaths env (some run) origin floor) (ts.filterMap (Node.ofToken? lines)) e =
        proceed e' ∧ Passing session source e' := by
  induction ts generalizing before e with
  | nil =>
    refine ⟨e, rfl, ?_⟩
    rwa [← List.append_nil before, ← hsplit, hplain.detokenize_lex] at h
  | cons t ts ih =>
    have ht : t ∈ lex source := hsplit ▸ List.mem_append_right _ List.mem_cons_self
    have hplace := hplace (t, before.length) (by simp [hsplit, List.mem_zipIdx_iff_getElem?])
    simp only [hsplit, List.take_left] at hplace
    obtain ⟨n, next, hnode, hstep, hnext⟩ := token_passes h hactive hrows hpolicy run floor lines
      (hplain.uncommented t ht) (hplain.fed t ht) hplace
    have hwritten : detokenize before ++ t.render = detokenize (before ++ [t]) := by
      simp [detokenize, String.join_append]
    rw [hwritten] at hnext
    obtain ⟨last, hrest, hlast⟩ := ih (by rw [hsplit, List.append_assoc]; rfl) hnext
    refine ⟨last, ?_, hlast⟩
    rw [List.filterMap_cons_some hnode, each_cons, hstep]
    exact hrest

theorem run_passes {source : String} (hplain : Plain source)
    (hactive : session.conditionals.isActive) (hrows : session.macros.rows = [])
    (hpolicy : env.options.undefinedMacro = .passthrough) (levels : Nat) {origin : Origin}
    (hplace : NamesNoPlace env session origin.current source) (h : Passing session "" e) :
    ∃ e', run env (levels + 1) origin source e = proceed e' ∧ Passing session source e' := by
  obtain ⟨last, heach, hlast⟩ := tokens_pass hplain hactive hrows hpolicy (run env levels) hplace
    e.session.conditionals.depth (LineMap.ofText source) (List.nil_append _).symm h
  refine ⟨last, ?_, hlast⟩
  have hdepth : e.session.conditionals.depth = last.session.conditionals.depth := by
    rw [h.conditionals, hlast.conditionals]
  rw [run, text, Node.ofSource, Node.ofTokens_uncommented _ _ _ hplain.uncommented]
  simp only [nodes_eq_finish]
  rw [heach, hdepth, finish_proceed]

theorem run_writes {source : String} (hplain : Plain source)
    (hactive : session.conditionals.isActive) (hrows : session.macros.rows = [])
    (hpolicy : env.options.undefinedMacro = .passthrough) (hdepth : 1 ≤ env.options.maxDepth)
    {origin : Origin} (hplace : NamesNoPlace env session origin.current source)
    (h : Passing session "" e) :
    ∃ e', run env env.options.maxDepth origin source e = (e', none) ∧ e'.output.text = source := by
  obtain ⟨levels, hlevels⟩ := Nat.exists_eq_add_of_le' hdepth
  obtain ⟨e', hrun, hpassed⟩ := run_passes hplain hactive hrows hpolicy levels hplace h
  refine ⟨e', hlevels ▸ hrun, ?_⟩
  rw [hpassed.output]
  exact (Output.write_text {} source).trans (String.empty_append ..)

end Evaluation

/-- Plain text comes out as it went in, if no macro is defined, calls of nothing may stay, one
level is left for them and none of them names a place. Nothing is being skipped, as nothing is
between runs. -/
theorem plain_text_passes_unchanged {env : Environment} {session : Session} {source : String}
    (file : Option Path) (hplain : Plain source) (hactive : session.conditionals.isActive)
    (hrows : session.macros.rows = []) (hpolicy : env.options.undefinedMacro = .passthrough)
    (hdepth : 1 ≤ env.options.maxDepth)
    (hplace : NamesNoPlace env session (Origin.current { file }) source) :
    (preprocess env file source session).result = .ok source := by
  have hwrites := fun e => @Evaluation.run_writes env session e source hplain hactive hrows hpolicy
    hdepth { file } hplace
  cases file with
  | none =>
    obtain ⟨e', hrun, htext⟩ := hwrites { session } ⟨rfl, rfl, rfl, rfl⟩
    simp only [preprocess, hrun]
    exact congrArg Except.ok htext
  | some path =>
    obtain ⟨e', hrun, htext⟩ := hwrites
      (Evaluation.enterFile { session } (path.identity env.tree.workdir)) ⟨rfl, rfl, rfl, rfl⟩
    simp only [preprocess, Evaluation.enterFile] at hrun ⊢
    rw [hrun]
    exact congrArg Except.ok htext

/-- A lone angle, a blank line, doubled quotes, an empty call and an unfinished last line. -/
theorem note_passes_unchanged :
    let source := "a < b\n\n\x7bGREET x\x7d\x7b\x7d \x7bnote.png\x7d\nq=\"say \"\"hi\"\"\" <<\"\n>>"
    let env : Environment :=
      ⟨.empty ["w"], {}, { maxDepth := 1, undefinedMacro := .passthrough }⟩
    Plain source ∧ NamesNoPlace env {} ⟨"."⟩ source ∧
      (preprocess env none source {}).result = .ok source := by
  intro source env
  have hplain : Plain source := ⟨by decide +kernel, by decide +kernel, by decide +kernel,
    by decide +kernel⟩
  have hplace : NamesNoPlace env {} ⟨"."⟩ source := by
    unfold NamesNoPlace
    decide +kernel
  exact ⟨hplain, hplace, plain_text_passes_unchanged none hplain rfl rfl rfl (by decide) hplace⟩

end CampaignMarkup
