import CampaignMarkup.Proofs.Macros.Wrapping
import CampaignMarkup.Proofs.Record.QuotedValue
import CampaignMarkup.Proofs.Token.Lossless

/-! # Arguments in quotes

Whatever a text holds, in quotes and with its own quotes doubled it is one argument of a call, and
its value is the text. -/
namespace CampaignMarkup

open Text Chars

/-- A name that stands by itself in front of arguments. -/
structure CallName (name : String) : Prop where
  ne_empty : name ≠ ""
  not_blank : ∀ c ∈ name.toList, isBlank c = false
  undelimited : ∀ c ∈ ['"', '(', '<', '{', '}'], c ∉ name.toList

/-- The text in quotes, its own quotes doubled. -/
def inQuotes (value : String) : List Char :=
  TokenKind.quoted.write value.toList

/-- The content of a call of the name with each of the texts in quotes, one blank before each. -/
def quotedCall (name : String) (values : List String) : String :=
  String.ofList (name.toList ++ values.flatMap fun v => ' ' :: inQuotes v)

namespace CallReader

/-- Nothing is opened. -/
theorem foldl_unopened {cs : List Char} (h : ∀ c ∈ ['"', '(', '<'], c ∉ cs) :
    cs.foldl step {} = {} := by
  induction cs with
  | nil => rfl
  | cons c cs ih =>
    have hne : ∀ d ∈ ['"', '(', '<'], c ≠ d ∧ d ∉ cs := by
      intro d hd
      obtain ⟨hc, hcs⟩ : d ≠ c ∧ d ∉ cs := by simpa using h d hd
      exact ⟨hc.symm, hcs⟩
    have hstep : step {} c = {} := by
      simp [step, Delimiter.step, Delimiter.isOutside, (hne '"' (by simp)).1,
        (hne '(' (by simp)).1, (hne '<' (by simp)).1]
    rw [List.foldl_cons, hstep]
    exact ih fun d hd => (hne d hd).2

/-- Between the quotes the reader is inside, or at a quote that is written twice. -/
theorem doubleQuotes_within (content : List Char) (n : Nat) :
    Unbroken ⟨.quoted, n⟩ (doubleQuotes content) ∧
      (doubleQuotes content).foldl step ⟨.quoted, n⟩ = ⟨.quoted, n⟩ := by
  induction content with
  | nil => exact ⟨trivial, rfl⟩
  | cons c content ih =>
    by_cases hc : c = '"'
    · have hquotes : doubleQuotes (c :: content) = '"' :: '"' :: doubleQuotes content := by
        rw [doubleQuotes, if_pos hc]
      have hpair : step (step ⟨.quoted, n⟩ '"') '"' = ⟨.quoted, n⟩ := rfl
      rw [hquotes]
      refine ⟨⟨rfl, rfl, ?_⟩, ?_⟩
      · rw [hpair]
        exact ih.1
      · rw [List.foldl_cons, List.foldl_cons, hpair]
        exact ih.2
    · have hstep : step ⟨.quoted, n⟩ c = ⟨.quoted, n⟩ := by
        simp [step, Delimiter.step, Delimiter.isOutside, hc]
      rw [doubleQuotes, if_neg hc]
      refine ⟨⟨by simp [isNeutral, Delimiter.isOutside], ?_⟩, ?_⟩
      · rw [hstep]
        exact ih.1
      · rw [List.foldl_cons, hstep]
        exact ih.2

theorem inQuotes_unbroken (value : String) : Unbroken {} (inQuotes value) := by
  have hwithin := doubleQuotes_within value.toList 0
  refine ⟨rfl, unbroken_append.mpr ⟨hwithin.1, ?_⟩⟩
  exact ⟨rfl, trivial⟩

theorem foldl_inQuotes (value : String) : (inQuotes value).foldl step {} = {} := by
  have hopen : step {} '"' = ⟨.quoted, 0⟩ := rfl
  rw [inQuotes, TokenKind.write, List.foldl_cons, hopen, List.foldl_append,
    (doubleQuotes_within value.toList 0).2]
  rfl

end CallReader

open CallReader

theorem splitArgumentsFrom_quoted {piece : List Char} (hpiece : piece ≠ [])
    (values : List String) :
    splitArgumentsFrom {} piece (values.flatMap fun v => ' ' :: inQuotes v) =
      piece.reverse :: values.map inQuotes := by
  -- The blank behind `piece` cuts, and the quotes bring the reader back outside for the next one.
  induction values generalizing piece with
  | nil => rw [List.flatMap_nil, splitArgumentsFrom, if_neg (by simpa using hpiece), List.map_nil]
  | cons v values ih =>
    rw [List.flatMap_cons, List.cons_append, splitArgumentsFrom_blank (by decide) rfl hpiece,
      splitArgumentsFrom_unbroken (inQuotes_unbroken v), foldl_inQuotes,
      ih (by simp [inQuotes, TokenKind.write]), List.map_cons]
    simp

theorem splitArguments_quotedCall {name : String} (h : CallName name) (values : List String) :
    splitArguments (quotedCall name values).toList = name.toList :: values.map inQuotes := by
  have hne : name.toList.reverse ++ [] ≠ [] := by
    simpa using h.ne_empty
  have hunopened : ∀ c ∈ ['"', '(', '<'], c ∉ name.toList :=
    fun c hc => h.undelimited c (List.mem_append_left ['{', '}'] hc)
  rw [splitArguments, quotedCall, String.toList_ofList,
    splitArgumentsFrom_unbroken (unbroken_of_not_blank h.not_blank {}),
    foldl_unopened hunopened, splitArgumentsFrom_quoted hne]
  simp

namespace Chars

theorem stripWrapping_inQuotes (value : String) : stripWrapping (inQuotes value) = value.toList :=
  (Unwraps.quotes value.toList).stripWrapping_eq

theorem keyword?_inQuotes (value : String) : keyword? (inQuotes value) = none := by
  have hquote : isKeywordStart '"' = false := by decide
  unfold keyword?
  split
  · next c key rest heq =>
    obtain ⟨rfl, -⟩ := List.cons.inj (splitOnce_eq_some.mp heq).1
    rw [hquote, Bool.false_and, if_neg (by simp)]
  · rfl

end Chars

theorem ofRaw_inQuotes (value : String) :
    Argument.ofRaw (inQuotes value) = ⟨String.ofList (inQuotes value), value, none⟩ := by
  rw [Argument.ofRaw, stripWrapping_inQuotes, keyword?_inQuotes, String.ofList_toList]
  rfl

theorem read_quotedCall {name : String} (h : CallName name) (values : List String) :
    MacroCall.read (quotedCall name values) =
      ⟨name, values.map fun v => ⟨String.ofList (inQuotes v), v, none⟩⟩ := by
  rw [MacroCall.read, splitArguments_quotedCall h]
  simp only [String.ofList_toList, List.map_map, Function.comp_def, ofRaw_inQuotes]

/-- Arguments that are not of the form `key=value` go to the positional parameters. -/
theorem bind_of_keyword_none {call : MacroCall} (h : ∀ a ∈ call.args, a.keyword = none)
    (d : Definition) : call.bind d = ⟨call.args.map Argument.value, []⟩ := by
  have hfold : ∀ (args : List Argument) (bound : Bound), (∀ a ∈ args, a.keyword = none) →
      args.foldl (MacroCall.bindArgument d) bound =
        ⟨bound.positional ++ args.map Argument.value, bound.keywords⟩ := by
    intro args
    induction args with
    | nil => intro bound _; simp
    | cons a args ih =>
      intro bound hargs
      obtain ⟨ha, hrest⟩ := List.forall_mem_cons.mp hargs
      rw [List.foldl_cons, ih _ hrest, MacroCall.bindArgument, ha]
      simp
  rw [MacroCall.bind, hfold call.args {} h]
  rfl

/-- A call in braces is one token of its text. -/
theorem lex_macroCall {content : String} (h : '}' ∉ content.toList) :
    lex ("\x7b" ++ content ++ "\x7d") =
      [⟨.macroCall, content, ⟨0, ("\x7b" ++ content ++ "\x7d").utf8ByteSize⟩⟩] := by
  let x : Lexeme := ⟨.macroCall, '{' :: (content.toList ++ ['}'])⟩
  have hchars : ("\x7b" ++ content ++ "\x7d").toList = x.chars := by simp [x]
  have hcut : x.CutBefore [] := .macroCall h
  have hfuse : Lexeme.fuse (Lexeme.scan x.chars) = [x] := by
    have hform := Lexeme.fuse_scan_form hcut rfl
    rwa [List.append_nil, Lexeme.scan_nil, Lexeme.fuse] at hform
  have hcontent : x.content = content.toList := Lexeme.content_macroCall content.toList
  rw [lex, tokenize, utf8ByteSize_eq, hchars, hfuse, Token.ofLexemes, Token.ofLexemes,
    Token.ofLexeme, hcontent, String.ofList_toList, merge_other rfl, mergeConcatenations,
    Nat.zero_add]
  rfl

theorem not_mem_quotedCall {name : String} (hname : CallName name) {values : List String}
    (h : ∀ v ∈ values, '}' ∉ v.toList) : '}' ∉ (quotedCall name values).toList := by
  have hbrace : '}' ∉ name.toList := hname.undelimited '}' (by simp)
  simpa [quotedCall, inQuotes, TokenKind.write, mem_doubleQuotes, hbrace] using h

/-- A call with texts in quotes passes on these texts, in their order and to positional parameters,
whatever blanks, parentheses, quotes or raw delimiters they hold; and unless one of them holds a
closing brace, the call stands as one token in the markup. -/
theorem quoted_arguments_arrive {name : String} (hname : CallName name) (values : List String) :
    let content := quotedCall name values
    let call := MacroCall.read content
    (call.name = name ∧ call.args.map Argument.value = values ∧
      ∀ a ∈ call.args, a.keyword = none) ∧
      (∀ d, call.bind d = ⟨values, []⟩) ∧
      ((∀ v ∈ values, '}' ∉ v.toList) →
        lex ("\x7b" ++ content ++ "\x7d") =
          [⟨.macroCall, content, ⟨0, ("\x7b" ++ content ++ "\x7d").utf8ByteSize⟩⟩]) := by
  intro content call
  have hcall : call = ⟨name, values.map fun v => ⟨String.ofList (inQuotes v), v, none⟩⟩ :=
    read_quotedCall hname values
  have hvalues : call.args.map Argument.value = values := by
    rw [hcall, List.map_map]
    exact List.map_id values
  have hkeywords : ∀ a ∈ call.args, a.keyword = none := by
    rw [hcall]
    intro a ha
    obtain ⟨v, -, rfl⟩ := List.mem_map.mp ha
    rfl
  refine ⟨⟨by rw [hcall], hvalues, hkeywords⟩, ?_, ?_⟩
  · intro d
    rw [bind_of_keyword_none hkeywords, hvalues]
  · intro hbraces
    exact lex_macroCall (not_mem_quotedCall hname hbraces)

/-- Quotes in a value, an open parenthesis, raw delimiters, a line break, an equality sign, and the
empty value. -/
theorem awkward_arguments_arrive :
    CallName "M" ∧
      let content := quotedCall "M" ["a \"b\" (c", "k=<<x\n", ""]
      content = "M \"a \"\"b\"\" (c\" \"k=<<x\n\" \"\"" ∧
        (MacroCall.read content).args.map Argument.value = ["a \"b\" (c", "k=<<x\n", ""] ∧
        (MacroCall.read content).bind { name := "M", defaults := [("k", "")] } =
          ⟨["a \"b\" (c", "k=<<x\n", ""], []⟩ ∧
        lex ("\x7b" ++ content ++ "\x7d") =
          [⟨.macroCall, content, ⟨0, ("\x7b" ++ content ++ "\x7d").utf8ByteSize⟩⟩] := by
  have hname : CallName "M" := by
    refine ⟨by decide, ?_, by simp⟩
    intro c hc
    obtain rfl : c = 'M' := by simpa using hc
    decide
  obtain ⟨⟨-, hvalues, -⟩, hbind, hlex⟩ :=
    quoted_arguments_arrive hname ["a \"b\" (c", "k=<<x\n", ""]
  exact ⟨hname, by decide +kernel, hvalues, hbind _, hlex (by decide)⟩

end CampaignMarkup
