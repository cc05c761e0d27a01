import CampaignMarkup.Proofs.Preprocess.Substitution
import CampaignMarkup.Proofs.Record.Legibility
import CampaignMarkup.Proofs.Token.Chains

/-! # Concatenations with macro calls

The value of an attribute is a concatenation, and some of its strings are the bodies of macros.
Strings are joined before calls are expanded, so that a call never becomes part of a string: the
body is written between the signs that were around the call, and extraction takes the string at the
front. -/
namespace CampaignMarkup

open Text Chars Evaluation

/-- The macro that the operand calls, if any, has no parameters and the string as its body. -/
def Operand.DefinedIn (table : MacroTable) (o : Operand) : Prop :=
  ∀ name ∈ o.call, Callable name ∧ ∃ d, table.lookup name = some d ∧ d.params = [] ∧
    d.defaults = [] ∧ d.body = String.ofList o.quoted

/-- A block with one attribute. -/
def attributeBlock (tag key : String) (value : List Char) : String :=
  String.ofList ('[' :: (tag.toList ++ [']']) ++ '\n' :: (key.toList ++ '=' :: value ++ '\n' ::
    ('[' :: ('/' :: tag.toList ++ [']']) ++ ['\n'])))

/-! ## The tokens of the block -/

namespace Token

def feed : Token :=
  ⟨.endOfLine, "\n", default⟩

theorem reads_feed {rest : List Char} {us : List Token} (h : Reads rest us) :
    Reads ('\n' :: rest) (feed :: us) := by
  have hcut : Lexeme.CutBefore ⟨.endOfLine, ['\n']⟩ rest := .lineBreak (by decide) (by simp)
  exact .cons ⟨.form hcut rfl, rfl, rfl⟩ h

/-- The tokens of a block with one attribute, whose value has these tokens. -/
def inBlock (tag key : String) (ts : List Token) : List Token :=
  word ('[' :: (tag.toList ++ [']'])) :: feed :: word (key.toList ++ ['=']) ::
    (ts ++ [feed, word ('[' :: ('/' :: tag.toList ++ [']'])), feed])

end Token

open Token

theorem isPlain_of_isNameChar {c : Char} (h : MarkupLine.isNameChar c) : Lexeme.isPlain c := by
  have hne : ∀ d, MarkupLine.isNameChar d = false → c ≠ d := by
    rintro d hd rfl
    simp [h] at hd
  simp [Lexeme.isPlain, MarkupLine.isBlank_of_isNameChar h, hne '#' (by decide),
    hne '"' (by decide), hne '<' (by decide), hne '{' (by decide)]

theorem isWord_of_name {name front back : List Char} (h : MarkupLine.IsName name)
    (hfront : front.all Lexeme.isPlain) (hback : back.all Lexeme.isPlain) :
    Lexeme.IsWord (front ++ (name ++ back)) := by
  apply Lexeme.isWord_of_plain
  · simp [h.ne_nil]
  · intro c hc
    rw [List.mem_append, List.mem_append] at hc
    rcases hc with hc | hc | hc
    · exact List.all_eq_true.mp hfront c hc
    · exact isPlain_of_isNameChar (h.chars c hc)
    · exact List.all_eq_true.mp hback c hc

/-- Only the value has anything to join. -/
theorem merge_inBlock {tag key : String} {ts ts' : List Token}
    (hts : ∀ us : List Token, nextOperand? (ts ++ us) = none)
    (hmerge : ∀ {us}, nextOperand? us = none →
      mergeConcatenations (ts ++ us) = ts' ++ mergeConcatenations us) :
    mergeConcatenations (inBlock tag key ts) = inBlock tag key ts' := by
  have hfeed : ∀ us, nextOperand? (feed :: us) = none := fun us => nextOperand?_other rfl rfl us
  have hbracket : ∀ cs, (word ('[' :: (cs ++ [']']))).isOperand :=
    fun cs => isOperand_word (by simp)
  have hkey : (word (key.toList ++ ['='])).isOperand :=
    isOperand_word fun heq => by simpa using congrArg List.getLast? heq
  have hend : Settled [feed, word ('[' :: ('/' :: tag.toList ++ [']'])), feed] :=
    ⟨by simp [feed, isOperand], fun _ => hfeed [], by simp [feed, isOperand], trivial⟩
  rw [inBlock, merge_operand (hbracket _), extend_of_none (hfeed _), merge_other rfl,
    merge_operand hkey, extend_of_none (hts _), hmerge (hfeed _), merge_of_settled hend]
  rfl

section Block

variable {tag key : String} (htag : MarkupLine.IsName tag.toList)
  (hkey : MarkupLine.IsName key.toList)
include htag hkey

theorem reads_attributeBlock {value : List Char} {ts : List Token}
    (hvalue : ∀ {rest us}, rest.head? ≠ some '"' → Reads rest us → Reads (value ++ rest) (ts ++ us))
    (hts : ∀ us : List Token, ∀ t ∈ (ts ++ us).head?, t.kind ≠ .text) :
    Reads (attributeBlock tag key value).toList (inBlock tag key ts) := by
  have hopening : Lexeme.IsWord ('[' :: (tag.toList ++ [']'])) :=
    @isWord_of_name _ ['['] [']'] htag (by decide) (by decide)
  have hclosing : Lexeme.IsWord ('[' :: ('/' :: tag.toList ++ [']'])) :=
    @isWord_of_name _ ['[', '/'] [']'] htag (by decide) (by decide)
  have hequals : Lexeme.IsWord (key.toList ++ ['=']) :=
    @isWord_of_name _ [] ['='] hkey (by decide) (by decide)
  have hfeed : ∀ {rest us} w, Reads ('\n' :: rest) (feed :: us) → Stops w ('\n' :: rest) := by
    intro rest us w hreads
    have hstop := hreads.stops (p := []) (by simp [feed]) (by simp)
    exact ⟨hstop.no_text, by simp⟩
  -- from the end of the text to its start
  have hend := reads_feed .nil
  have hlast := reads_feed (reads_word hclosing (hfeed _ hend) hend)
  have hassigned := hvalue (by simp) hlast
  have hkeyed := reads_feed
    (reads_word hequals (hassigned.stops (hts _) (by simp)) hassigned)
  have hwhole := reads_word hopening (hfeed _ hkeyed) hkeyed
  simpa [attributeBlock, inBlock] using hwhole

theorem extractRecords_attributeBlock {value : List Char}
    (hhead : ∀ c ∈ value.head?, isBlank c = false) (hvalue : Delimiter.Sealed value) :
    extractRecords (attributeBlock tag key value) =
      [{ tag, attributes := [(key,
        AttributeValue.read (String.ofList (keptOf (unreturned value))))] }] := by
  have hstatements := Pending.statements_value hkey hhead hvalue.hidden hvalue.closed
    ('[' :: ('/' :: tag.toList ++ [']']) ++ ['\n'])
  rw [extractRecords_eq, statementsOf, attributeBlock, String.toList_ofList,
    Pending.statements_opening htag, hstatements, Pending.statements_closing htag]
  simp [Pending.statements, lines_nil, Extraction.obey, Extraction.set, Extraction.close,
    Extraction.closeThrough, Extraction.finish, Extraction.closeAll, Record.setAttribute,
    Assoc.insert]

end Block

/-! ## What is written for a chain -/

theorem detokenize_gap {gap : String} (h : ∀ c ∈ gap.toList, isGap c) :
    detokenize (tokenize gap) = gap := by
  have hwhite := (reads_tokenize gap).isWhitespace_of_gap h
  have hclosed : missingDelimiter gap = "" := by
    rw [missingDelimiter]
    cases hlast : (tokenize gap).getLast? with
    | none => rfl
    | some t =>
      have hkind : t.kind = .whitespace := by
        simpa [isWhitespace] using hwhite t (List.mem_of_getLast? hlast)
      simp [hkind, TokenKind.missing, TokenKind.isOpen]
  rw [detokenize_tokenize, hclosed, String.append_empty]

section Written

variable {env : Environment} {session : Session} {levels : Nat}
  (hactive : session.conditionals.isActive)
include hactive

theorem givesAll_gap {deeper : Option Runner} {gap : String} (h : ∀ c ∈ gap.toList, isGap c) :
    GivesAll env deeper session ((tokenize gap).map bare) gap := by
  have hwhite := (reads_tokenize gap).isWhitespace_of_gap h
  suffices hall : ∀ ts : List Token, (∀ t ∈ ts, t.isWhitespace) →
      GivesAll env deeper session (ts.map bare) (detokenize ts) by
    have hgap := hall _ hwhite
    rwa [detokenize_gap h] at hgap
  intro ts hts
  induction ts with
  | nil => exact .nil
  | cons t ts ih =>
    obtain ⟨ht, hts⟩ := List.forall_mem_cons.mp hts
    have hkind : t.kind = .whitespace := by simpa [isWhitespace] using ht
    rw [detokenize, List.map_cons, List.map_cons, String.join_cons, render_eq]
    exact .cons (gives_token hactive (by simp [hkind]) (by simp [hkind]) (by simp [hkind])) (ih hts)

theorem Operand.gives {o : Operand} (h : o.DefinedIn session.macros) :
    Gives env (some (run env levels)) session o.token.bare (String.ofList o.quoted) := by
  obtain ⟨content, call⟩ := o
  cases call with
  | none =>
    exact @gives_token env _ session hactive .quoted content (by decide) (by decide) (by simp)
  | some name =>
    obtain ⟨hname, d, hlookup, hparams, hdefaults, hbody⟩ := h name rfl
    rw [← hbody]
    exact gives_call hactive levels hname hlookup hparams hdefaults hbody

theorem gives_word (deeper : Option Runner) (w : List Char) :
    Gives env deeper session (word w).bare (String.ofList w) := by
  have hword := @gives_token env deeper session hactive .text (String.ofList w) (by decide)
    (by decide) (by simp)
  rwa [String.toList_ofList] at hword

theorem Chain.gives {c : Chain} (hbefore : ∀ l ∈ c.links, ∀ d ∈ l.before.toList, isGap d)
    (hafter : ∀ l ∈ c.links, ∀ d ∈ l.after.toList, isGap d)
    (hdefined : ∀ o ∈ c.operands, o.DefinedIn session.macros) :
    GivesAll env (some (run env levels)) session (c.tokens.map bare)
      (String.ofList (c.spell Operand.quoted)) := by
  obtain ⟨first, ls⟩ := c
  induction ls generalizing first with
  | nil =>
    have hfirst := @Operand.gives env session levels hactive first
      (hdefined first List.mem_cons_self)
    have hall := GivesAll.cons hfirst .nil
    rw [String.append_empty] at hall
    simpa [Chain.tokens, Chain.spell] using hall
  | cons l ls ih =>
    obtain ⟨hfirst, hdefined⟩ := List.forall_mem_cons.mp hdefined
    obtain ⟨hgap, hbefore⟩ := List.forall_mem_cons.mp hbefore
    obtain ⟨hspace, hafter⟩ := List.forall_mem_cons.mp hafter
    have hrest := ih l.operand hbefore hafter hdefined
    have hlink := GivesAll.cons (gives_word hactive _ ['+'])
      ((givesAll_gap hactive hspace).append hrest)
    have hall := GivesAll.cons (Operand.gives hactive hfirst)
      ((givesAll_gap hactive hgap).append hlink)
    have htext : String.ofList ((⟨first, l :: ls⟩ : Chain).spell Operand.quoted) =
        String.ofList first.quoted ++ (l.before ++ (String.ofList ['+'] ++ (l.after ++
          String.ofList ((⟨l.operand, ls⟩ : Chain).spell Operand.quoted)))) := by
      apply String.toList_injective
      simp [Chain.spell, Link.spell]
    rw [htext]
    simpa [Chain.tokens, Link.tokens] using hall

theorem givesAll_inBlock {deeper : Option Runner} (tag key : String) {ts : List Token}
    {value : List Char}
    (h : GivesAll env deeper session (ts.map bare) (String.ofList value)) :
    GivesAll env deeper session ((inBlock tag key ts).map bare) (attributeBlock tag key value) := by
  have hfeed : Gives env deeper session feed.bare "\n" :=
    gives_token hactive (by decide) (by decide) fun _ => rfl
  have hword := fun w => @gives_word env session hactive deeper w
  have hend := GivesAll.cons hfeed (.cons (hword ('[' :: ('/' :: tag.toList ++ [']'])))
    (.cons hfeed .nil))
  have hall := GivesAll.cons (hword ('[' :: (tag.toList ++ [']']))) (.cons hfeed
    (.cons (hword (key.toList ++ ['='])) (h.append hend)))
  have htext : attributeBlock tag key value =
      String.ofList ('[' :: (tag.toList ++ [']'])) ++ ("\n" ++
        (String.ofList (key.toList ++ ['=']) ++ (String.ofList value ++ ("\n" ++
          (String.ofList ('[' :: ('/' :: tag.toList ++ [']'])) ++ ("\n" ++ "")))))) := by
    apply String.toList_injective
    simp [attributeBlock]
  rw [htext]
  simpa [inBlock] using hall

end Written

/-! ## What is extracted -/

theorem Chain.sealed_links {ls : List Link} (hbefore : ∀ l ∈ ls, ∀ d ∈ l.before.toList, isGap d)
    (hafter : ∀ l ∈ ls, ∀ d ∈ l.after.toList, isGap d) :
    Delimiter.Sealed (ls.flatMap (Link.spell Operand.quoted)) := by
  have hgap : ∀ cs : List Char, (∀ c ∈ cs, isGap c) → Delimiter.Sealed cs := by
    intro cs hcs
    apply Delimiter.sealed_inert
    · intro c hc
      exact Delimiter.isInert_of_isBlank (Lexeme.isBlank_of_isGap (hcs c hc))
    · exact Lexeme.not_mem_of_gap hcs
  have hplus : Delimiter.Sealed ['+'] :=
    Delimiter.sealed_inert (List.forall_mem_singleton.mpr (by decide)) (by decide)
  induction ls with
  | nil => exact ⟨trivial, rfl⟩
  | cons l ls ih =>
    obtain ⟨hbefore, hbefores⟩ := List.forall_mem_cons.mp hbefore
    obtain ⟨hafter, hafters⟩ := List.forall_mem_cons.mp hafter
    have hlink := (hgap _ hbefore).append (hplus.append ((hgap _ hafter).append
      (Delimiter.sealed_quoted l.operand.content.toList)))
    rw [List.flatMap_cons]
    exact Delimiter.Sealed.append hlink (ih hbefores hafters)

theorem extractRecords_chain {tag key : String} (htag : MarkupLine.IsName tag.toList)
    (hkey : MarkupLine.IsName key.toList) {c : Chain}
    (hbefore : ∀ l ∈ c.links, ∀ d ∈ l.before.toList, isGap d)
    (hafter : ∀ l ∈ c.links, ∀ d ∈ l.after.toList, isGap d) :
    extractRecords (attributeBlock tag key (c.spell Operand.quoted)) =
      [{ tag, attributes := [(key,
        .string (String.ofList (keptOf (unreturned c.first.content.toList))))] }] := by
  have hquote : (c.links.flatMap (Link.spell Operand.quoted)).head? ≠ some '"' := by
    have hhead := @Chain.head?_links _ Operand.quoted hbefore [] (by simp)
    rwa [List.append_nil] at hhead
  have hvalue : c.spell Operand.quoted = '"' :: (doubleQuotes c.first.content.toList ++ '"' ::
      c.links.flatMap (Link.spell Operand.quoted)) := by
    simp [Chain.spell, Operand.quoted, TokenKind.write]
  have hsealed : Delimiter.Sealed (c.spell Operand.quoted) :=
    (Delimiter.sealed_quoted c.first.content.toList).append (Chain.sealed_links hbefore hafter)
  have hhead : ∀ d ∈ (c.spell Operand.quoted).head?, isBlank d = false := by
    rw [hvalue]
    intro d hd
    cases hd
    decide
  rw [extractRecords_attributeBlock htag hkey hhead hsealed, hvalue,
    AttributeValue.read_kept_quoted hquote]

theorem map_bare_lex_chain {tag key : String} (htag : MarkupLine.IsName tag.toList)
    (hkey : MarkupLine.IsName key.toList) {c : Chain} (hspaced : c.Spaced)
    (hnames : ∀ o ∈ c.operands, ∀ name ∈ o.call, '}' ∉ name.toList) :
    (lex (attributeBlock tag key (c.spell Operand.source))).map bare =
      (inBlock tag key c.joined.tokens).map bare := by
  have hreads : Reads (attributeBlock tag key (c.spell Operand.source)).toList
      (inBlock tag key c.tokens) := by
    apply reads_attributeBlock htag hkey
    · exact Chain.reads_spell hspaced.before hspaced.after hnames
    · intro us t ht
      cases ht
      exact c.first.kind_token
  have hmerge : mergeConcatenations (inBlock tag key c.tokens) =
      inBlock tag key c.joined.tokens := by
    apply merge_inBlock
    · intro us
      apply nextOperand?_other
      · have hspacing := c.first.isSpacing_token
        simp only [isSpacing, Bool.or_eq_false_iff] at hspacing
        exact hspacing.1
      · by_contra hplus
        exact c.first.kind_token (isPlus_iff.mp (by simpa using hplus)).1
    · exact Chain.merge_tokens hspaced.before hspaced.after
  rw [lex, map_bare_merge hreads.map_bare_tokenize, hmerge]

/-- What a run writes for a chain, and the record that is read from it. -/
theorem preprocess_chain {env : Environment} {session : Session} {tag key : String}
    (file : Option Path) {c : Chain} (htag : MarkupLine.IsName tag.toList)
    (hkey : MarkupLine.IsName key.toList) (hspaced : c.Spaced)
    (hdefined : ∀ o ∈ c.operands, o.DefinedIn session.macros)
    (hactive : session.conditionals.isActive) (hdepth : 1 ≤ env.options.maxDepth)
    (hrecords : env.options.extractRecords) :
    let report := preprocess env file (attributeBlock tag key (c.spell Operand.source)) session
    report.result = .ok (attributeBlock tag key (c.joined.spell Operand.quoted)) ∧
    report.session.records = session.records ++
      [{ tag, attributes := [(key,
        .string (String.ofList (keptOf (unreturned c.leading.toList))))] }] := by
  intro report
  obtain ⟨levels, hlevels⟩ := Nat.exists_eq_add_of_le' hdepth
  have hbelow : below env env.options.maxDepth = some (run env levels) := by
    rw [hlevels]
    rfl
  have hjoined : ∀ o ∈ c.joined.operands, o.DefinedIn session.macros :=
    Chain.forall_operands_join (fun _ => by simp [Operand.DefinedIn]) hdefined
  have hgives := givesAll_inBlock hactive tag key
    (@Chain.gives env session levels hactive c.joined hspaced.before_joined hspaced.inLine hjoined)
  have hlex := map_bare_lex_chain htag hkey hspaced
    fun o ho name hname => (hdefined o ho name hname).1.unbraced
  rw [← hlex, ← hbelow] at hgives
  have hreport := preprocess_gives hgives file
  have hleading : c.joined.first.content = c.leading := congrArg Operand.content Chain.first_join
  rw [if_pos hrecords, extractRecords_chain htag hkey hspaced.before_joined hspaced.inLine,
    hleading] at hreport
  exact hreport

/-- The attribute is what the strings in front of the first call say, or the call that comes first.
That is all that the operands say where none of them is a call. -/
theorem concatenation_gives_strings_before_call {env : Environment} {session : Session}
    {tag key : String} (file : Option Path) {c : Chain} (htag : MarkupLine.IsName tag.toList)
    (hkey : MarkupLine.IsName key.toList) (hspaced : c.Spaced)
    (hdefined : ∀ o ∈ c.operands, o.DefinedIn session.macros)
    (hactive : session.conditionals.isActive) (hdepth : 1 ≤ env.options.maxDepth)
    (hrecords : env.options.extractRecords) :
    let report := preprocess env file (attributeBlock tag key (c.spell Operand.source)) session
    report.result = .ok (attributeBlock tag key (c.joined.spell Operand.quoted)) ∧
    (∃ v, report.session.records = session.records ++ [{ tag, attributes := [(key, .string v)] }] ∧
      (¬ ['\r', '\n'] <:+: c.leading.toList →
        (∀ first rest, c.leading.toList = first ++ '\n' :: rest → '\n' ∉ first →
          ∀ d ∈ first.getLast?, isBlank d = false) → v = c.leading)) ∧
    c.contents = c.leading ++ c.trailing ∧
    ((∀ o ∈ c.operands, o.isLiteral) → c.leading = c.contents) := by
  intro report
  obtain ⟨hresult, hrecord⟩ :=
    preprocess_chain file htag hkey hspaced hdefined hactive hdepth hrecords
  refine ⟨hresult, ⟨_, hrecord, ?_⟩, c.contents_eq, ?_⟩
  · intro hreturns hblanks
    rw [unreturned_eq_self_iff.mpr hreturns, keptOf_eq_self_iff.mpr hblanks, String.ofList_toList]
  · intro hliteral
    rw [c.contents_eq, Chain.trailing_of_isLiteral hliteral, String.append_empty]

/-- A session in which `M` is defined as a string. -/
def noted : Session where
  macros := .ofList [{ name := "M", body := "\"b\"" }]

theorem definedIn_noted {o : Operand} (h : o.isLiteral ∨ o = ⟨"b", some "M"⟩) :
    o.DefinedIn noted.macros := by
  rcases h with h | rfl
  · rw [Operand.eq_of_isLiteral h]
    simp [Operand.DefinedIn]
  · have hlookup : noted.macros.lookup "M" = some { name := "M", body := "\"b\"" } := by
      rw [noted, MacroTable.lookup_eq (MacroTable.ofList_consistent _), MacroTable.rows_ofList]
      decide +kernel
    intro name hname
    cases hname
    have hcallable : Callable "M" := ⟨by decide, by simp [isBlank], by decide⟩
    exact ⟨hcallable, _, hlookup, rfl, rfl, by decide +kernel⟩

/-- Two strings on two lines are joined; the call behind them and the string behind the call are
not. -/
theorem two_strings_before_call :
    let c : Chain := ⟨⟨"a", none⟩, [⟨" ", " \n\t", ⟨"x", none⟩⟩, ⟨" ", "", ⟨"b", some "M"⟩⟩,
      ⟨"", " ", ⟨"d", none⟩⟩]⟩
    attributeBlock "t" "k" (c.spell Operand.source) =
      "[t]\nk=\"a\" + \n\t\"x\" +\x7bM\x7d+ \"d\"\n[/t]\n" ∧
    (preprocess ⟨.empty ["w"], {}, {}⟩ none (attributeBlock "t" "k" (c.spell Operand.source))
      noted).session.records = [{ tag := "t", attributes := [("k", .string "ax")] }] := by
  intro c
  have hspaced : c.Spaced := by decide +kernel
  have hoperands : ∀ o ∈ c.operands, o.isLiteral ∨ o = ⟨"b", some "M"⟩ := by decide +kernel
  obtain ⟨-, ⟨v, hrecords, hv⟩, -⟩ := @concatenation_gives_strings_before_call
    ⟨.empty ["w"], {}, {}⟩ noted "t" "k" none c (by decide) (by decide) hspaced
    (fun o ho => definedIn_noted (hoperands o ho)) rfl (by decide) rfl
  have hleading : c.leading = "ax" := by decide +kernel
  have honeLine : '\n' ∉ c.leading.toList := by
    rw [hleading]
    decide
  have hwhole : v = c.leading := by
    apply hv
    · intro hreturns
      exact honeLine (hreturns.subset (by simp))
    · intro first rest hbroken
      have hmem : '\n' ∈ c.leading.toList := by
        rw [hbroken]
        simp
      exact absurd hmem honeLine
  refine ⟨by decide +kernel, ?_⟩
  rw [hrecords, hwhole, hleading]
  rfl

/-- With the second string behind a call, only the first is left. -/
theorem called_string_not_joined :
    let literal : Chain := ⟨⟨"a", none⟩, [⟨" ", " ", ⟨"b", none⟩⟩]⟩
    let called : Chain := ⟨⟨"a", none⟩, [⟨" ", " ", ⟨"b", some "M"⟩⟩]⟩
    let recordsOf := fun c : Chain => (preprocess ⟨.empty ["w"], {}, {}⟩ none
      (attributeBlock "t" "k" (c.spell Operand.source)) noted).session.records
    attributeBlock "t" "k" (called.spell Operand.source) =
      "[t]\nk=\"a\" + \x7bM\x7d\n[/t]\n" ∧
    literal.contents = "ab" ∧ called.contents = "ab" ∧
    recordsOf literal = [{ tag := "t", attributes := [("k", .string "ab")] }] ∧
    recordsOf called = [{ tag := "t", attributes := [("k", .string "a")] }] ∧
    recordsOf called ≠ recordsOf literal := by
  intro literal called recordsOf
  have hrecords : ∀ c : Chain, c.Spaced → (∀ o ∈ c.operands, o.isLiteral ∨ o = ⟨"b", some "M"⟩) →
      recordsOf c = [{ tag := "t", attributes := [("k",
        .string (String.ofList (keptOf (unreturned c.leading.toList))))] }] := by
    intro c hspaced hoperands
    exact (@preprocess_chain ⟨.empty ["w"], {}, {}⟩ noted "t" "k" none c (by decide) (by decide)
      hspaced (fun o ho => definedIn_noted (hoperands o ho)) rfl (by decide) rfl).2
  have hliteral := hrecords literal (by decide +kernel) (by decide +kernel)
  have hcalled := hrecords called (by decide +kernel) (by decide +kernel)
  have hboth : String.ofList (keptOf (unreturned literal.leading.toList)) = "ab" := by
    decide +kernel
  have hfirst : String.ofList (keptOf (unreturned called.leading.toList)) = "a" := by
    decide +kernel
  rw [hliteral, hcalled, hboth, hfirst]
  exact ⟨by decide +kernel, by decide +kernel, by decide +kernel, rfl, rfl, by simp⟩

end CampaignMarkup
