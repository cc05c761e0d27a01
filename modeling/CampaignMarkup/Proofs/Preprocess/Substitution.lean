import CampaignMarkup.Proofs.Macros.CallReading
import CampaignMarkup.Proofs.Preprocess.Passage
import CampaignMarkup.Proofs.Preprocess.Restoration
import CampaignMarkup.Proofs.Token.Rereading

/-! # Calls of macros without parameters

The text that takes the place of each token: a token of another kind is written as it stands, and a
call of a macro without parameters becomes what the body of the macro is written as, one level
deeper. What a run writes is these texts one behind the other. -/
namespace CampaignMarkup

open Text Chars

namespace Definition

theorem fillHoles_none (cs : List Char) : fillHoles (fun _ => none) cs = cs := by
  induction cs with
  | nil => rw [fillHoles]
  | cons c cs ih =>
    rw [fillHoles, ih]
    split
    · split <;> rfl
    · rfl

theorem substitute_closed {d : Definition} (hparams : d.params = []) (hdefaults : d.defaults = [])
    (positional : List String) (keywords : List (String × String)) :
    d.substitute positional keywords = d.body := by
  have hfill : (fun name : List Char =>
      (d.fill? positional keywords (String.ofList name)).map String.toList) = fun _ => none := by
    funext name
    simp [fill?, hparams, hdefaults, Assoc.get?]
  rw [substitute, hfill, fillHoles_none, String.ofList_toList]

end Definition

/-- A name by which a macro can be called. -/
structure Callable (name : String) : Prop where
  ne_empty : name ≠ ""
  not_blank : ∀ c ∈ name.toList, isBlank c = false
  unbraced : '}' ∉ name.toList

theorem Callable.read_eq {name : String} (h : Callable name) :
    MacroCall.read name = ⟨name, []⟩ := by
  have hne : [] ++ name.toList ≠ [] := by
    simpa using h.ne_empty
  rw [MacroCall.read, splitArguments, splitArgumentsFrom_of_not_blank h.not_blank {} hne]
  simp

namespace Evaluation

variable {env : Environment} {deeper : Option Runner} {session : Session} {written : String}
  {e : Evaluation}

theorem Passing.collect (h : Passing session written e) :
    Passing session written e.collectBinaryPaths := by
  have hwrite := h.write "" e.warnings
  rwa [String.append_empty] at hwrite

/-- Wherever such a token stands, the text is written for it. -/
def Gives (env : Environment) (deeper : Option Runner) (session : Session)
    (p : TokenKind × String) (s : String) : Prop :=
  ∀ (t : Token) (lines : LineMap) (origin : Origin) (floor : Nat) (written : String)
    (e : Evaluation), t.bare = p → Passing session written e →
    ∃ n e', Node.ofToken? lines t = some n ∧
      e.nodeAndPaths env deeper origin floor n = proceed e' ∧ Passing session (written ++ s) e'

theorem gives_token (hactive : session.conditionals.isActive) {kind : TokenKind} {content : String}
    (hkind : kind ≠ .comment) (hcall : kind ≠ .macroCall)
    (hfed : kind = .endOfLine → content = "\n") :
    Gives env deeper session (kind, content) (String.ofList (kind.write content.toList)) := by
  intro t lines origin floor written e hbare h
  obtain ⟨rfl, rfl⟩ := Prod.mk.inj hbare
  have hactive : e.session.conditionals.isActive := h.conditionals ▸ hactive
  have hnode : Node.ofToken? lines t = some (.token t) := by
    unfold Node.ofToken?
    split
    · next hk => exact absurd hk hkind
    · next hk => exact absurd hk hcall
    · rfl
  refine ⟨_, _, hnode, ?_, h.write _ e.warnings⟩
  rw [nodeAndPaths_eq, ← Token.render_eq]
  simp only [node, hactive, if_true, writeToken_eq e.output hkind hfed]
  rfl

/-- The text that is written for tokens in a row. -/
inductive GivesAll (env : Environment) (deeper : Option Runner) (session : Session) :
    List (TokenKind × String) → String → Prop where
  | nil : GivesAll env deeper session [] ""
  | cons {p ps s rest} : Gives env deeper session p s → GivesAll env deeper session ps rest →
      GivesAll env deeper session (p :: ps) (s ++ rest)

theorem GivesAll.append {ps qs : List (TokenKind × String)} {s s' : String}
    (h : GivesAll env deeper session ps s) (h' : GivesAll env deeper session qs s') :
    GivesAll env deeper session (ps ++ qs) (s ++ s') := by
  induction h with
  | nil => rwa [String.empty_append]
  | cons hp _ ih =>
    rw [String.append_assoc]
    exact .cons hp ih

theorem GivesAll.uncommented {ps : List (TokenKind × String)} {s : String}
    (hps : GivesAll env deeper session ps s) (h : Passing session written e) :
    ∀ p ∈ ps, p.1 ≠ .comment := by
  induction hps with
  | nil => simp
  | @cons p ps s rest hp _ ih =>
    obtain ⟨kind, content⟩ := p
    obtain ⟨n, -, hnode, -, -⟩ := hp ⟨kind, content, default⟩ (LineMap.ofText "") {} 0 written e
      rfl h
    refine List.forall_mem_cons.mpr ⟨?_, ih⟩
    rintro rfl
    cases hnode

/-- The run: by induction on the tokens, each of which adds its text to what is written. -/
theorem each_gives {ts : List Token} {s : String}
    (hts : GivesAll env deeper session (ts.map Token.bare) s) (lines : LineMap) (origin : Origin)
    (floor : Nat) (h : Passing session written e) :
    ∃ e', each (nodeAndPaths env deeper origin floor) (ts.filterMap (Node.ofToken? lines)) e =
        proceed e' ∧ Passing session (written ++ s) e' := by
  induction ts generalizing s written e with
  | nil =>
    cases hts
    exact ⟨e, rfl, by rwa [String.append_empty]⟩
  | cons t ts ih =>
    rw [List.map_cons] at hts
    cases hts with
    | cons ht hrest =>
      obtain ⟨n, next, hnode, hstep, hnext⟩ := ht t lines origin floor written e rfl h
      obtain ⟨last, heach, hlast⟩ := ih hrest hnext
      refine ⟨last, ?_, by rwa [← String.append_assoc]⟩
      rw [List.filterMap_cons_some hnode, each_cons, hstep]
      exact heach

theorem text_gives {source s : String}
    (hlex : GivesAll env deeper session ((lex source).map Token.bare) s) (origin : Origin)
    (h : Passing session written e) :
    ∃ e', text env deeper origin source e = proceed e' ∧ Passing session (written ++ s) e' := by
  obtain ⟨last, heach, hlast⟩ := each_gives hlex (LineMap.ofText source) origin
    e.session.conditionals.depth h
  have huncommented : ∀ t ∈ lex source, t.kind ≠ .comment :=
    fun t ht => hlex.uncommented h t.bare (List.mem_map_of_mem ht)
  have hdepth : e.session.conditionals.depth = last.session.conditionals.depth := by
    rw [h.conditionals, hlast.conditionals]
  refine ⟨last, ?_, hlast⟩
  rw [text, Node.ofSource, Node.ofTokens_uncommented _ _ _ huncommented]
  simp only [nodes_eq_finish]
  rw [heach, hdepth, finish_proceed]

theorem run_gives_quoted (hactive : session.conditionals.isActive) (levels : Nat) (content : String)
    (origin : Origin) (h : Passing session written e) :
    let source := String.ofList (TokenKind.quoted.write content.toList)
    ∃ e', run env levels origin source e = proceed e' ∧ Passing session (written ++ source) e' := by
  intro source
  have hreads : Token.Reads source.toList [⟨.quoted, content, default⟩] := by
    have hquoted := @Token.reads_quoted ⟨.quoted, content, default⟩ [] [] rfl (by simp) .nil
    rwa [List.append_nil, ← String.toList_ofList (l := TokenKind.write _ _)] at hquoted
  have hlex : (lex source).map Token.bare = [(.quoted, content)] := by
    rw [lex, map_bare_merge hreads.map_bare_tokenize,
      merge_operand (Token.isOperand_of_quoted rfl), Token.extend_of_none rfl, mergeConcatenations]
    rfl
  have hgives : GivesAll env (below env levels) session ((lex source).map Token.bare)
      (source ++ "") := by
    rw [hlex]
    exact .cons (gives_token hactive (by decide) (by decide) (by simp)) .nil
  rw [String.append_empty] at hgives
  rw [run_eq_text]
  exact text_gives hgives origin h

/-- A call becomes the body of its macro, if the body is a string. -/
theorem gives_call (hactive : session.conditionals.isActive) (levels : Nat) {name content : String}
    (hname : Callable name) {d : Definition} (hlookup : session.macros.lookup name = some d)
    (hparams : d.params = []) (hdefaults : d.defaults = [])
    (hbody : d.body = String.ofList (TokenKind.quoted.write content.toList)) :
    Gives env (some (run env levels)) session (.macroCall, name) d.body := by
  intro t lines origin floor written e hbare h
  obtain ⟨hkind, rfl⟩ := Prod.mk.inj hbare
  obtain ⟨last, hrun, hlast⟩ := @run_gives_quoted env session written e hactive levels content
    { origin with anchor := some (origin.site (lines.lineOf t.span.start)).line } h
  have hactive : e.session.conditionals.isActive := h.conditionals ▸ hactive
  refine ⟨_, last.collectBinaryPaths, by rw [Node.ofToken?, hkind], ?_, hbody ▸ hlast.collect⟩
  have hlookup : e.session.macros.lookup t.content = some d := h.macros ▸ hlookup
  have hexpand : e.expand env (some (run env levels)) origin (MacroCall.read t.content) t.content
      (origin.site (lines.lineOf t.span.start)) = proceed last := by
    rw [hname.read_eq, expand, if_neg hname.ne_empty]
    simp only [hlookup, MacroCall.bind, List.foldl_nil, Definition.arity, hparams,
      Definition.substitute_closed hparams hdefaults, hbody]
    exact hrun
  rw [nodeAndPaths_eq]
  simp only [node, hactive, if_true, hexpand]
  rfl

end Evaluation

open Evaluation

/-- What the tokens of a text are written as is the answer to it, and the records are read from
that. -/
theorem preprocess_gives {env : Environment} {session : Session} {source s : String}
    (hlex : GivesAll env (below env env.options.maxDepth) session ((lex source).map Token.bare) s)
    (file : Option Path) :
    (preprocess env file source session).result = .ok s ∧
    (preprocess env file source session).session.records =
      session.records ++ if env.options.extractRecords then extractRecords s else [] := by
  have hpasses : ∀ origin e, Passing session "" e →
      ∃ e', run env env.options.maxDepth origin source e = (e', none) ∧ e'.output.text = s := by
    intro origin e h
    obtain ⟨e', htext, hpassed⟩ := text_gives hlex origin h
    refine ⟨e', by rw [run_eq_text]; exact htext, ?_⟩
    rw [hpassed.output, String.empty_append]
    exact (Output.write_text {} s).trans (String.empty_append ..)
  obtain ⟨e', houtcome, htext⟩ : ∃ e', (Request.text file source).outcome env session = (e', none) ∧
      e'.output.text = s := by
    cases file with
    | none => exact hpasses {} { session } ⟨rfl, rfl, rfl, rfl⟩
    | some path =>
      obtain ⟨e', hrun, htext⟩ := hpasses { file := some path }
        (enterFile { session } (path.identity env.tree.workdir)) ⟨rfl, rfl, rfl, rfl⟩
      exact ⟨e'.leaveFile, by rw [Request.outcome, hrun], htext⟩
  have hrestored := Request.outcome_restored env session (.text file source)
  have hreport := Request.report_eq env session (.text file source)
  rw [houtcome] at hrestored hreport
  rw [Request.report] at hreport
  rw [hreport, Report.records_of_success, htext, hrestored.records]
  exact ⟨congrArg Except.ok htext, rfl⟩

end CampaignMarkup
