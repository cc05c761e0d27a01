import CampaignMarkup.Editor.Query
import CampaignMarkup.Proofs.Comment.Tokens
import CampaignMarkup.Proofs.Preprocess.Sites
import CampaignMarkup.Proofs.Record.Seams
import CampaignMarkup.Proofs.Token.Chains

/-! # The line of a definition

A site counts every line break, and an editor only line feeds. So an editor is sent to the line
that holds the definition if a line feed belongs to every break before it. For each break of another
kind it is sent one line too far. -/
namespace CampaignMarkup

open Chars Text

namespace Chars

/-- The line breaks that are no line feed and no return in front of one. -/
def loneBreaks (cs : List Char) : Nat :=
  (unreturned cs).countP fun c => isLineBreak c && c != '\n'

theorem breaks_eq_count {next : Option Char} (hnext : next ≠ some '\n') (cs : List Char) :
    LineMap.breaks next cs = cs.count '\n' + loneBreaks cs := by
  induction cs with
  | nil => rfl
  | cons c cs ih =>
    have hlook : cs.head?.or next = some '\n' ↔ cs.head? = some '\n' := by
      cases cs <;> simp [hnext]
    rw [LineMap.breaks, ih, List.count_cons]
    simp only [loneBreaks, unreturned, hlook]
    by_cases hpair : c = '\r' ∧ cs.head? = some '\n'
    · simp [hpair]
    · rw [if_neg hpair, List.countP_cons]
      by_cases hfeed : c = '\n'
      · subst hfeed
        simp [isLineBreak]
        omega
      · by_cases hbreak : isLineBreak c
        · simp [hbreak, hpair, hfeed]
          omega
        · simp [hbreak, hfeed]

/-- The line that an editor finds a place in, as it counts. -/
theorem getElem?_splitOn_count (before after : List Char) :
    (splitOn '\n' (before ++ after))[before.count '\n']? =
      some (unended before ++ firstLine after) := by
  induction before using line_induction with
  | last line hline =>
    rw [List.count_eq_zero.mpr hline, unended_of_not_mem hline]
    have hfirst : '\n' ∉ line ++ firstLine after := by simp [hline, not_mem_firstLine]
    rcases firstLine_cases after with hafter | ⟨rest, hafter⟩
    · rw [← hafter] at hfirst ⊢
      rw [splitOn_of_not_mem hfirst]
      rfl
    · have hcut : line ++ after = (line ++ firstLine after) ++ '\n' :: rest := by
        rw [List.append_assoc, ← hafter]
      rw [hcut, splitOn_append hfirst]
      rfl
  | cons line rest hline ih =>
    rw [unended_append, List.append_assoc, List.cons_append, splitOn_append hline,
      List.count_append, List.count_eq_zero.mpr hline, List.count_cons_self, Nat.zero_add,
      List.getElem?_cons_succ]
    exact ih

theorem mem_unreturned {c : Char} {rest : List Char} (h : c = '\r' → rest.head? ≠ some '\n')
    (start : List Char) : c ∈ unreturned (start ++ c :: rest) := by
  induction start with
  | nil =>
    rw [List.nil_append, unreturned, if_neg fun hpair => h hpair.1 hpair.2]
    exact List.mem_cons_self
  | cons s start ih =>
    rw [List.cons_append, unreturned]
    split
    · exact ih
    · exact List.mem_cons_of_mem s ih

end Chars

/-- Where no break is lone, a break ends in a line feed. -/
theorem IsBreak.feed {start piece gap rest : List Char} (h : IsBreak piece (gap ++ rest))
    (hgap : '\n' ∉ gap) (hlone : loneBreaks (start ++ piece ++ gap) = 0) :
    ∃ line, start ++ piece = line ++ ['\n'] := by
  cases h with
  | returnAndFeed => exact ⟨start ++ ['\r'], by simp⟩
  | @single c _ hbreak _ =>
    -- a return here is followed by the gap, so it waits for no feed
    have hmem : c ∈ unreturned (start ++ [c] ++ gap) := by
      rw [List.append_assoc]
      exact mem_unreturned (fun _ hhead => hgap (List.mem_of_head? hhead)) start
    have hfeed := List.countP_eq_zero.mp hlone c hmem
    obtain rfl : c = '\n' := by simpa [hbreak] using hfeed
    exact ⟨start, rfl⟩

/-- Behind a break, or at the beginning of a text, a gap is all that its line has so far. -/
theorem unended_of_beginsLine {front gap rest : List Char}
    (hfront : front = [] ∨ ∃ start piece, front = start ++ piece ∧ IsBreak piece (gap ++ rest))
    (hgap : ∀ c ∈ gap, isGap c) (hlone : loneBreaks (front ++ gap) = 0) :
    unended (front ++ gap) = gap := by
  have hfeed : '\n' ∉ gap := Lexeme.not_mem_of_gap hgap
  rcases hfront with rfl | ⟨start, piece, rfl, hbreak⟩
  · exact unended_of_not_mem hfeed
  · obtain ⟨line, hline⟩ := hbreak.feed hfeed hlone
    rw [hline, List.append_assoc, List.singleton_append, unended_append, unended_of_not_mem hfeed]

namespace Token

variable {offset : Nat} {text : List Char} {earlier ts : List Token}

/-- Behind tokens with which a line begins, the text is at its beginning or behind a break, but for
a gap. -/
theorem Laid.beginsLine_inv (h : Laid offset text (earlier ++ ts)) (hbegins : BeginsLine earlier) :
    ∃ front gap rest, text = front ++ gap ++ rest ∧
      (front = [] ∨ ∃ start piece, front = start ++ piece ∧ IsBreak piece (gap ++ rest)) ∧
      (∀ c ∈ gap, isGap c) ∧ Laid (offset + byteSize (front ++ gap)) rest ts := by
  obtain ⟨before, gap, rfl, hline, hgap⟩ := hbegins
  rcases hline with rfl | ⟨lines, t, rfl, ht⟩
  · obtain ⟨blank, rest, rfl, hblank, hlaid⟩ := gap_inv h hgap
    exact ⟨[], blank, rest, rfl, .inl rfl, hblank, hlaid⟩
  · rw [List.append_assoc, List.append_assoc, List.singleton_append] at h
    obtain ⟨start, _, rfl, hlaid⟩ := h.append_inv
    obtain ⟨piece, _, rfl, hbreak, hlaid⟩ := Laid.break_inv hlaid ht
    obtain ⟨blank, rest, rfl, hblank, hlaid⟩ := Laid.gap_inv hlaid hgap
    refine ⟨start ++ piece, blank, rest, by simp, .inr ⟨start, piece, rfl, hbreak⟩, hblank, ?_⟩
    simpa [byteSize_append, Nat.add_assoc] using hlaid

end Token

/-- A directive begins with its keyword. -/
theorem Directive.display_prefix {comment : String} {d : Directive}
    (h : Directive.ofComment? comment = some d) : d.kind.display.toList <+: comment.toList := by
  unfold Directive.ofComment? at h
  split at h
  · next body hbody =>
    obtain ⟨kind, hkind, rfl⟩ := Option.map_eq_some_iff.mp h
    have hfound : kind.keyword = String.ofList (body.takeWhile (!isBlank ·)) := by
      simpa using List.find?_some hkind
    have hkeyword : kind.keyword.toList = body.takeWhile (!isBlank ·) := by
      rw [hfound, String.toList_ofList]
    rw [hbody, DirectiveKind.display, String.toList_append, hkeyword]
    exact (List.prefix_cons_inj '#').mpr (List.takeWhile_prefix _)
  · cases h

namespace OpenText

/-- The comment of a definition in its text: what stands before it, and what follows. -/
structure DefinedAt (t : OpenText) (token : Token) (before after : List Char) : Prop where
  source : t.source.toList = before ++ after
  start : token.span.start = byteSize before
  keyword : "#define".toList <+: after

variable {t : OpenText} {token : Token} {before after : List Char}

/-- Only a gap stands before a definition in its line, if no break before it is lone. -/
theorem At.definedAt {block : DefineBlock} (h : t.At (.define block) token) :
    ∃ before after, t.DefinedAt token before after ∧
      (loneBreaks before = 0 → ∀ c ∈ unended before, isBlank c) := by
  obtain ⟨-, -, earlier, later, -, -, hlex, -, hbegins⟩ := h.place
  cases h.read with
  | define hcomment hdirective hkind _ =>
    have hlaid := Token.laid_lex t.source
    rw [hlex] at hlaid
    obtain ⟨front, gap, after, hsource, hfront, hgap, hlaid⟩ :=
      hlaid.beginsLine_inv (hbegins hcomment)
    obtain ⟨rest, rfl, hstart⟩ := hlaid.comment_inv hcomment
    rw [Nat.zero_add] at hstart
    have hkeyword := Directive.display_prefix hdirective
    rw [hkind] at hkeyword
    refine ⟨front ++ gap, token.content.toList ++ rest,
      ⟨hsource, hstart, hkeyword.trans (List.prefix_append _ _)⟩, ?_⟩
    intro hlone
    rw [unended_of_beginsLine hfront hgap hlone]
    exact fun c hc => Lexeme.isBlank_of_isGap (hgap c hc)

/-- The parser's count: the line feeds before the definition, and the lone breaks. -/
theorem DefinedAt.lineOf_eq (h : t.DefinedAt token before after) :
    t.lineOf token = before.count '\n' + loneBreaks before := by
  obtain ⟨rest, hafter⟩ := h.keyword
  have hnext : after.head? ≠ some '\n' := by
    rw [← hafter]
    simp
  rw [lineOf, h.start, LineMap.lineOf_eq_breaks t.source h.source, breaks_eq_count hnext]

/-- The editor's count: the line feeds before the definition. -/
theorem DefinedAt.lineAt?_eq (h : t.DefinedAt token before after) :
    Text.lineAt? t.source (before.count '\n') = some (unended before ++ firstLine after) := by
  rw [Text.lineAt?, h.source, getElem?_splitOn_count]

theorem DefinedAt.trimStart (h : t.DefinedAt token before after)
    (hblank : ∀ c ∈ unended before, isBlank c) :
    "#define".toList <+: Chars.trimStart (unended before ++ firstLine after) := by
  obtain ⟨rest, rfl⟩ := h.keyword
  have hfirst : firstLine ("#define".toList ++ rest) = "#define".toList ++ firstLine rest :=
    List.takeWhile_append_of_pos (by simp)
  rw [Chars.trimStart, List.dropWhile_append_of_pos hblank, hfirst]
  exact List.prefix_append _ _

end OpenText

/-- A run keeps the table and its index in step. -/
theorem Request.Shows.consistent {env : Environment} {session : Session} {request : Request}
    {m : Moment} {texts : List OpenText} (hsession : session.macros.Consistent)
    (h : request.Shows env session m texts) : m.evaluation.session.macros.Consistent := by
  induction h with
  | start =>
    cases request with
    | text file source => cases file <;> exact hsession
    | place path => exact hsession
  | @step m _ _ _ ih =>
    rcases m.next_macros env with hm | ⟨name, hm⟩ | ⟨d, hd⟩
    · exact hm ▸ ih
    · exact hm ▸ MacroTable.undef_consistent ih name
    · exact hd.macros ▸ MacroTable.define_consistent d ih

theorem Request.report_consistent {env : Environment} {session : Session} (request : Request)
    (hsession : session.macros.Consistent) :
    (request.report env session).session.macros.Consistent := by
  obtain ⟨texts, hshows⟩ := (request.reaches_outcome env session).exists_shows
  rw [request.report_eq, Report.ofOutcome_macros]
  exact hshows.consistent hsession

/-- The innermost text, where it is no expansion, is at the definition that is recorded. -/
theorem Moment.Records.at_define {uses : List Use} {env : Environment} {request : Request}
    {m : Moment} {texts : List OpenText} {own : OpenText} {d : Definition}
    (hrecords : m.Records env d) (hshows : request.Shows env (.used uses) m texts)
    (hhead : texts.head? = some own) (hown : own.isOwn) :
    ∃ block token, own.At (.define block) token ∧ d.site = ⟨own.file, own.lineOf token⟩ := by
  obtain ⟨outer, rfl⟩ := List.head?_eq_some_iff.mp hhead
  obtain ⟨innermost, token, hpoints, hyields⟩ :=
    (hshows.attended (Session.used_includes uses)).yields hrecords.defining
  obtain rfl : own = innermost :=
    Option.some.inj ((innermostOwn?_own hown).symm.trans hpoints.innermost)
  cases hyields with
  | call hne _ => exact absurd hhead hne
  | @define block _ _ hat => exact ⟨block, token, hat, hpoints.site⟩

/-- At every moment of every run, with a session that was used in any way before, at which a
definition is recorded from a text that is no expansion: it is recorded with the line that holds it,
as an editor counts, and further by the lone breaks before it, and that is where an editor is sent.
So an editor is sent to the right line, and finds the definition there, exactly if there is no lone
break before it. -/
theorem definition_line_right_iff_no_lone_break {uses : List Use} {env : Environment}
    {request : Request} {m : Moment} {texts : List OpenText} {own : OpenText} {d : Definition}
    (hshows : request.Shows env (.used uses) m texts) (hrecords : m.Records env d)
    (hhead : texts.head? = some own) (hown : own.isOwn) :
    ∃ block token before after, own.At (.define block) token ∧ own.DefinedAt token before after ∧
      Text.lineAt? own.source (before.count '\n') = some (unended before ++ firstLine after) ∧
      d.site = ⟨own.file, before.count '\n' + loneBreaks before⟩ ∧
      (∀ (macros : MacroTable) source p word uri,
        macros.under? source p = some (word, d) → d.site.uri? env.tree.workdir = some uri →
        macros.target? env.tree.workdir source p =
          some ⟨uri, before.count '\n' + loneBreaks before⟩) ∧
      (loneBreaks before = 0 ↔ d.site.line = before.count '\n' ∧
        ∃ line, Text.lineAt? own.source d.site.line = some line ∧
          "#define".toList <+: Chars.trimStart line) := by
  obtain ⟨block, token, hat, hsite⟩ := hrecords.at_define hshows hhead hown
  obtain ⟨before, after, hdefined, hblank⟩ := hat.definedAt
  rw [hdefined.lineOf_eq] at hsite
  have hline := hdefined.lineAt?_eq
  refine ⟨block, token, before, after, hat, hdefined, hline, hsite, ?_, ?_⟩
  · intro macros source p word uri hunder huri
    rw [hsite] at huri
    simp [MacroTable.target?, hunder, hsite, huri]
  · rw [hsite]
    constructor
    · intro hlone
      rw [hlone, Nat.add_zero]
      exact ⟨rfl, _, hline, hdefined.trimStart (hblank hlone)⟩
    · rintro ⟨hright, -⟩
      exact Nat.add_eq_left.mp hright

/-- A return that stands with a line feed, and what indents the definition, do no harm. -/
theorem indented_definition_line_right :
    let source := "# note\r\n\t#define A\r\n#enddef\r\n"
    let env : Environment := ⟨.empty ["w"], {}, {}⟩
    let request := Request.text (some ⟨"a.cfg"⟩) source
    ∃ m texts own d, request.Shows env (.used []) m texts ∧ m.Records env d ∧
      texts.head? = some own ∧ own.isOwn ∧ own.source = source ∧
      (d.name, d.site) = ("A", ⟨some ⟨"a.cfg"⟩, 1⟩) ∧
      ∃ before, before <+: source.toList ∧ loneBreaks before = 0 ∧
        d.site.line = before.count '\n' ∧ ∃ line, Text.lineAt? source d.site.line = some line ∧
          "#define".toList <+: Chars.trimStart line := by
  intro source env request
  let m := (request.start env {}).next env
  have hshows : request.Shows env (.used []) m _ :=
    .step .start (by simp [request, Request.start])
  have htext : ((request.start env {}).track env request.texts).head?.map
      (fun t => (t.isOwn, t.source)) = some (true, source) := by
    decide +kernel
  obtain ⟨own, hhead, hpair⟩ := Option.map_eq_some_iff.mp htext
  obtain ⟨hown, hsource⟩ := Prod.mk.inj hpair
  have hrows : (m.next env).evaluation.session.macros.rows.map (fun d => (d.name, d.site)) =
      [("A", ⟨some ⟨"a.cfg"⟩, 1⟩)] := by
    decide +kernel
  obtain ⟨d, hd, hsite⟩ := List.map_eq_singleton_iff.mp hrows
  have hnone : m.evaluation.session.macros.rows = [] := by decide +kernel
  have hrecords : m.Records env d := ⟨by decide +kernel, by rw [hnone, hd]; rfl⟩
  obtain ⟨block, token, before, after, -, hdefined, -, -, -, hright⟩ :=
    definition_line_right_iff_no_lone_break hshows hrecords hhead hown
  have hcut := hdefined.source
  rw [hsource] at hcut hright
  -- the text holds the keyword once, so there is one place to cut it
  have hfirst : ∀ b ∈ source.toList.inits, "#define".toList <+: source.toList.drop b.length →
      loneBreaks b = 0 := by
    decide +kernel
  have hlone : loneBreaks before = 0 := by
    apply hfirst before
    · exact (List.mem_inits before source.toList).mpr ⟨after, hcut.symm⟩
    · rw [hcut, List.drop_left]
      exact hdefined.keyword
  exact ⟨m, _, own, d, hshows, hrecords, hhead, hown, hsource, hsite, before, ⟨after, hcut.symm⟩,
    hlone, hright.mp hlone⟩

/-- A separator in a string ends a line for the site but not for the editor, which is sent one line
too far. -/
theorem separator_in_string_sends_editor_too_far :
    let source := "\"\u2028\"\n#define A\n#enddef\n"
    let env : Environment :=
      ⟨(FileTree.empty ["w"]).put ["w", "a.cfg"] (.file (.text source)), {}, {}⟩
    let macros := ((Request.place ⟨"a.cfg"⟩).report env {}).session.macros
    macros.rows.map (fun d => (d.name, d.site)) = [("A", ⟨some ⟨"a.cfg"⟩, 2⟩)] ∧
    (macros.target? env.tree.workdir "A" ⟨0, 0⟩).map Target.line = some 2 ∧
    Text.lineAt? source 1 = some "#define A".toList ∧
    Text.lineAt? source 2 = some "#enddef".toList ∧
    ¬ "#define".toList <+: Chars.trimStart "#enddef".toList := by
  intro source env macros
  have hrows : macros.rows.map (fun d => (d.name, d.site)) =
      [("A", ⟨some ⟨"a.cfg"⟩, 2⟩)] := by
    decide +kernel
  obtain ⟨d, hd, hpair⟩ := List.map_eq_singleton_iff.mp hrows
  obtain ⟨hname, hsite⟩ := Prod.mk.inj hpair
  have hconsistent : macros.Consistent := Request.report_consistent _ MacroTable.empty_consistent
  have hlookup : macros.lookup "A" = some d := by
    rw [MacroTable.lookup_eq hconsistent, hd]
    simp [hname]
  have hword : Word.at? "A" ⟨0, 0⟩ = some ⟨"A", 0, 0, 1⟩ := by decide +kernel
  have hline : ((Site.mk (some ⟨"a.cfg"⟩) 2).uri? env.tree.workdir).isSome := by decide +kernel
  obtain ⟨uri, huri⟩ := Option.isSome_iff_exists.mp hline
  refine ⟨hrows, ?_, by decide +kernel⟩
  simp [MacroTable.target?, MacroTable.under?, hword, hlookup, hsite, huri]

end CampaignMarkup
