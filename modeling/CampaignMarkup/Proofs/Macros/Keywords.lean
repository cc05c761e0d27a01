import CampaignMarkup.Preprocess.Evaluation
import CampaignMarkup.Proofs.Macros.Holes
import CampaignMarkup.Proofs.Macros.QuotedArguments

/-! # Keyword arguments

A definition takes any word for the key of a keyword parameter, and a call only an identifier. So a
parameter whose key is an identifier can be given a value, whatever else the call holds, and any
other one keeps its default in every call. -/
namespace CampaignMarkup

open Text Chars CallReader

/-- A letter or underscore, and behind it letters, digits and underscores. -/
def IsIdentifier (key : String) : Prop :=
  key.toList.head?.any isKeywordStart ∧ key.toList.tail.all isKeywordChar

instance : DecidablePred IsIdentifier :=
  fun _ => inferInstanceAs (Decidable (_ ∧ _))

/-- A value that is read as it is written: nothing in it cuts a call, opens anything or ends the
call. -/
def IsPlain (value : String) : Prop :=
  ∀ c ∈ value.toList, isBlank c = false ∧ c ∉ ['"', '(', ')', '<', '}']

instance : DecidablePred IsPlain :=
  fun value => List.decidableBAll _ value.toList

/-- An argument that names the parameter it is for. -/
def assigned (key value : String) : List Char :=
  key.toList ++ '=' :: value.toList

/-- The name of a call with what stands before an argument of it, and what stands behind the
argument: nothing is left open before it, and behind it no value is given for the key. -/
structure Around (key : String) (before after : List Char) : Prop where
  named : splitArguments before ≠ []
  closed : (before.foldl step {}).isNeutral
  parted : Parted after
  final : ∀ raw ∈ splitArguments after, ∀ value,
    (Argument.ofRaw raw).keyword ≠ some (key, value)

/-- The content of a call with an argument between the others. -/
def callContent (before : List Char) (blank : Char) (argument after : List Char) : String :=
  String.ofList (before ++ blank :: (argument ++ after))

/-! ## Identifiers -/

theorem isKeywordChar_of_isKeywordStart {c : Char} (h : isKeywordStart c) : isKeywordChar c := by
  simp only [isKeywordStart, isKeywordChar, Char.isAlphanum, Bool.or_eq_true] at h ⊢
  rcases h with h | h
  · exact .inl (.inl h)
  · exact .inr h

namespace IsIdentifier

variable {key : String}

theorem keywordChar (h : IsIdentifier key) : ∀ c ∈ key.toList, isKeywordChar c := by
  obtain ⟨hstart, hrest⟩ := h
  intro c hc
  cases hkey : key.toList with
  | nil =>
    rw [hkey] at hc
    cases hc
  | cons d ds =>
    rw [hkey] at hc hstart hrest
    rcases List.mem_cons.mp hc with rfl | hc
    · exact isKeywordChar_of_isKeywordStart hstart
    · exact List.all_eq_true.mp hrest c hc

theorem not_mem (h : IsIdentifier key) {c : Char} (hc : isKeywordChar c = false) :
    c ∉ key.toList := by
  intro hmem
  rw [h.keywordChar c hmem] at hc
  cases hc

theorem keyword?_assigned (h : IsIdentifier key) (value : String) :
    keyword? (assigned key value) = some (key.toList, value.toList) := by
  have hsplit : splitOnce '=' (assigned key value) = some (key.toList, value.toList) :=
    splitOnce_eq_some.mpr ⟨rfl, h.not_mem (by decide)⟩
  obtain ⟨hstart, hrest⟩ := h
  rw [keyword?, hsplit]
  cases hkey : key.toList with
  | nil =>
    rw [hkey] at hstart
    cases hstart
  | cons c cs =>
    rw [hkey] at hstart hrest
    have hboth : (isKeywordStart c && cs.all isKeywordChar) = true :=
      Bool.and_eq_true_iff.mpr ⟨hstart, hrest⟩
    dsimp only
    rw [if_pos hboth]

end IsIdentifier

/-- Only identifiers are keys in a call. -/
theorem isIdentifier_of_keyword {raw : List Char} {key value : String}
    (h : (Argument.ofRaw raw).keyword = some (key, value)) : IsIdentifier key := by
  obtain ⟨⟨ks, vs⟩, hkeyword, heq⟩ := Option.map_eq_some_iff.mp h
  obtain ⟨rfl, -⟩ := Prod.mk.inj heq
  unfold keyword? at hkeyword
  split at hkeyword
  · next c cs v hsplit =>
    split at hkeyword
    · next hboth =>
      obtain ⟨rfl, -⟩ := Prod.mk.inj (Option.some.inj hkeyword)
      rw [IsIdentifier, String.toList_ofList]
      exact Bool.and_eq_true_iff.mp hboth
    · cases hkeyword
  · cases hkeyword

/-! ## Plain values -/

theorem IsPlain.stripWrapping {value : String} (h : IsPlain value) :
    stripWrapping value.toList = value.toList := by
  apply stripWrapping_of_not_delimited
  have hfirst : ∀ c ∈ ['"', '<', '('], ∀ cs, value.toList ≠ c :: cs := by
    intro c hc cs heq
    have hsub : ['"', '<', '('] ⊆ ['"', '(', ')', '<', '}'] := by simp
    exact (h c (heq ▸ List.mem_cons_self)).2 (hsub hc)
  intro hdelimited
  generalize hcs : value.toList = cs at hdelimited
  cases hdelimited with
  | quotes inner => exact hfirst '"' (by simp) _ hcs
  | angles inner => exact hfirst '<' (by simp) _ hcs
  | parens inner => exact hfirst '(' (by simp) _ hcs

theorem ofRaw_assigned {key value : String} (hkey : IsIdentifier key) (hvalue : IsPlain value) :
    (Argument.ofRaw (assigned key value)).keyword = some (key, value) := by
  rw [Argument.ofRaw, hkey.keyword?_assigned, Option.map_some]
  dsimp only
  rw [hvalue.stripWrapping, String.ofList_toList, String.ofList_toList]

/-! ## Where the argument stands -/

section Call

variable {key value : String} {before after : List Char} {blank : Char}

theorem mem_assigned {c : Char} (hkey : IsIdentifier key) (hvalue : IsPlain value)
    (h : c ∈ assigned key value) : isBlank c = false ∧ c ∉ ['"', '(', '<', '}'] := by
  have hall : ∀ d, isKeywordChar d = true → d ∉ ['"', '(', '<', '}'] := by
    intro d hd hmem
    simp only [List.mem_cons, List.not_mem_nil, or_false] at hmem
    rcases hmem with rfl | rfl | rfl | rfl <;> exact absurd hd (by decide)
  rcases List.mem_append.mp h with h | h
  · have hc := hkey.keywordChar c h
    exact ⟨MarkupLine.isBlank_of_isNameChar hc, hall c hc⟩
  · rcases List.mem_cons.mp h with rfl | h
    · decide
    · obtain ⟨hblank, hopen⟩ := hvalue c h
      refine ⟨hblank, fun hmem => hopen ?_⟩
      have hsub : ['"', '(', '<', '}'] ⊆ ['"', '(', ')', '<', '}'] := by simp
      exact hsub hmem

/-- The argument is a piece of its own, and the others are those of the call without it. -/
theorem splitArguments_callContent (hkey : IsIdentifier key) (hvalue : IsPlain value)
    (hblank : isBlank blank) (h : Around key before after) :
    splitArguments (callContent before blank (assigned key value) after).toList =
      splitArguments before ++ assigned key value :: splitArguments after := by
  have hunopened : ∀ c ∈ ['"', '(', '<'], c ∉ assigned key value := by
    intro c hc hmem
    exact (mem_assigned hkey hvalue hmem).2 (List.mem_append_left ['}'] hc)
  have hneutral : ((assigned key value).foldl step {}).isNeutral := by
    rw [foldl_unopened hunopened]
    rfl
  have hone : splitArguments (assigned key value) = [assigned key value] := by
    apply splitArgumentsFrom_of_not_blank (fun c hc => (mem_assigned hkey hvalue hc).1)
    simp [assigned]
  have hparted : Parted (blank :: (assigned key value ++ after)) := by
    rintro c ⟨⟩
    exact hblank
  rw [callContent, String.toList_ofList, splitArguments_append h.closed hparted,
    splitArguments_cons_blank hblank, splitArguments_append hneutral h.parted, hone]
  rfl

theorem splitArguments_without (h : Around key before after) :
    splitArguments (before ++ after) = splitArguments before ++ splitArguments after :=
  splitArguments_append h.closed h.parted

end Call

/-! ## Binding -/

/-- The value arrives under the key, and nothing else is bound in another way. -/
structure Supplies (key value : String) (bound without : Bound) : Prop where
  positional : bound.positional = without.positional
  keyword : Assoc.get? key bound.keywords = some value
  others : ∀ other, other ≠ key →
    Assoc.get? other bound.keywords = Assoc.get? other without.keywords

section Binding

variable {d : Definition} {key value : String} {bound without : Bound}

theorem bindArgument_keyword {arg : Argument} (h : arg.keyword = some (key, value))
    (hkey : Assoc.contains key d.defaults) :
    MacroCall.bindArgument d bound arg =
      { bound with keywords := Assoc.insert key value bound.keywords } := by
  rw [MacroCall.bindArgument, h]
  exact if_pos hkey

/-- An argument binds under its key or by position, whatever is bound already. -/
theorem bindArgument_cases (d : Definition) (arg : Argument) :
    (∃ key value, arg.keyword = some (key, value) ∧
      ∀ bound, MacroCall.bindArgument d bound arg =
        { bound with keywords := Assoc.insert key value bound.keywords }) ∨
    ∀ bound, MacroCall.bindArgument d bound arg =
      { bound with positional := bound.positional ++ [arg.value] } := by
  cases harg : arg.keyword with
  | none =>
    refine .inr fun bound => ?_
    rw [MacroCall.bindArgument, harg]
  | some entry =>
    obtain ⟨key, value⟩ := entry
    by_cases hkey : Assoc.contains key d.defaults
    · exact .inl ⟨key, value, rfl, fun bound => bindArgument_keyword harg hkey⟩
    · refine .inr fun bound => ?_
      rw [MacroCall.bindArgument, harg]
      exact if_neg hkey

theorem get?_bindArgument {arg : Argument} (h : ∀ v, arg.keyword ≠ some (key, v))
    (bound : Bound) : Assoc.get? key (MacroCall.bindArgument d bound arg).keywords =
      Assoc.get? key bound.keywords := by
  rcases bindArgument_cases d arg with ⟨k, v, hkeyword, hbind⟩ | hbind
  · have hne : key ≠ k := by
      rintro rfl
      exact h v hkeyword
    rw [hbind, Assoc.get?_insert, if_neg hne]
  · rw [hbind]

theorem get?_foldl_bindArgument {args : List Argument}
    (h : ∀ arg ∈ args, ∀ v, arg.keyword ≠ some (key, v)) (bound : Bound) :
    Assoc.get? key (args.foldl (MacroCall.bindArgument d) bound).keywords =
      Assoc.get? key bound.keywords := by
  induction args generalizing bound with
  | nil => rfl
  | cons arg args ih =>
    obtain ⟨harg, hrest⟩ := List.forall_mem_cons.mp h
    rw [List.foldl_cons, ih hrest, get?_bindArgument harg]

theorem supplies_bindArgument {arg : Argument} (harg : arg.keyword = some (key, value))
    (hkey : Assoc.contains key d.defaults) (bound : Bound) :
    Supplies key value (MacroCall.bindArgument d bound arg) bound := by
  rw [bindArgument_keyword harg hkey]
  refine ⟨rfl, ?_, fun other hother => ?_⟩
  · rw [Assoc.get?_insert, if_pos rfl]
  · rw [Assoc.get?_insert, if_neg hother]

/-- A later argument with another key binds the same in both. -/
theorem Supplies.step (h : Supplies key value bound without) {arg : Argument}
    (harg : ∀ v, arg.keyword ≠ some (key, v)) :
    Supplies key value (MacroCall.bindArgument d bound arg)
      (MacroCall.bindArgument d without arg) := by
  have hkeyword := (get?_bindArgument (d := d) harg bound).trans h.keyword
  rcases bindArgument_cases d arg with ⟨k, v, -, hbind⟩ | hbind
  · refine ⟨?_, hkeyword, fun other hother => ?_⟩
    · rw [hbind, hbind]
      exact h.positional
    · rw [hbind, hbind, Assoc.get?_insert, Assoc.get?_insert, h.others other hother]
  · refine ⟨?_, hkeyword, fun other hother => ?_⟩
    · rw [hbind, hbind, h.positional]
    · rw [hbind, hbind]
      exact h.others other hother

theorem Supplies.steps (h : Supplies key value bound without) {args : List Argument}
    (hargs : ∀ arg ∈ args, ∀ v, arg.keyword ≠ some (key, v)) :
    Supplies key value (args.foldl (MacroCall.bindArgument d) bound)
      (args.foldl (MacroCall.bindArgument d) without) := by
  induction args generalizing bound without with
  | nil => exact h
  | cons arg args ih =>
    obtain ⟨harg, hrest⟩ := List.forall_mem_cons.mp hargs
    exact ih (h.step harg) hrest

theorem Supplies.fill? (h : Supplies key value bound without) {byDefault : String}
    (hdefault : Assoc.get? key d.defaults = some byDefault) (hparam : key ∉ d.params)
    (name : String) :
    d.fill? bound.positional bound.keywords name =
      if name = key then some value else d.fill? without.positional without.keywords name := by
  by_cases hname : name = key
  · subst hname
    rw [if_pos rfl, Definition.fill?_of_not_mem_params hparam, hdefault, h.keyword]
    rfl
  · rw [if_neg hname, h.positional]
    unfold Definition.fill?
    rw [h.others name hname]

/-- No call has a value for a key that is no identifier. -/
theorem get?_bind_of_not_isIdentifier (h : ¬ IsIdentifier key) (content : String)
    (d : Definition) : Assoc.get? key ((MacroCall.read content).bind d).keywords = none := by
  refine get?_foldl_bindArgument ?_ {}
  intro arg harg v hkeyword
  unfold MacroCall.read at harg
  split at harg
  · cases harg
  · obtain ⟨raw, -, rfl⟩ := List.mem_map.mp harg
    exact h (isIdentifier_of_keyword hkeyword)

end Binding

/-- The argument of the first call is for the keyword parameter: but for its value there the call
is the second one, which has every argument but this. -/
structure Passed (d : Definition) (key value : String) (call without : MacroCall) : Prop where
  name : call.name = without.name
  bound : Supplies key value (call.bind d) (without.bind d)
  filled : ∀ name, d.fill? (call.bind d).positional (call.bind d).keywords name =
    if name = key then some value
    else d.fill? (without.bind d).positional (without.bind d).keywords name
  expanded : ∀ env run origin raw site (e : Evaluation),
    e.session.macros.lookup call.name = some d → (without.bind d).positional.length = d.arity →
    e.expand env (some run) origin call raw site =
      run { origin with anchor := some site.line }
        (d.substitute (call.bind d).positional (call.bind d).keywords) e

theorem read_eq {content : String} {name : List Char} {args : List (List Char)}
    (h : splitArguments content.toList = name :: args) :
    MacroCall.read content = ⟨String.ofList name, args.map Argument.ofRaw⟩ := by
  rw [MacroCall.read, h]

theorem passed_of_isIdentifier {d : Definition} {key value byDefault : String}
    {before after : List Char} {blank : Char}
    (hdefault : Assoc.get? key d.defaults = some byDefault) (hparam : key ∉ d.params)
    (hkey : IsIdentifier key) (hvalue : IsPlain value) (hblank : isBlank blank)
    (h : Around key before after) :
    Passed d key value (MacroCall.read (callContent before blank (assigned key value) after))
      (MacroCall.read (String.ofList (before ++ after))) := by
  obtain ⟨name, args, hbefore⟩ := List.exists_cons_of_ne_nil h.named
  have hcontent := splitArguments_callContent hkey hvalue hblank h
  have hrest := splitArguments_without h
  rw [hbefore, List.cons_append] at hcontent hrest
  rw [← String.toList_ofList (l := before ++ after)] at hrest
  rw [read_eq hcontent, read_eq hrest]
  have hname : String.ofList name ≠ "" := by
    have hne : name ≠ [] := ne_nil_of_mem_splitArgumentsFrom (hbefore ▸ List.mem_cons_self)
    exact fun heq => hne (String.ofList_injective heq)
  have hbound : Supplies key value
      (MacroCall.bind ⟨String.ofList name,
        (args ++ assigned key value :: splitArguments after).map Argument.ofRaw⟩ d)
      (MacroCall.bind ⟨String.ofList name,
        (args ++ splitArguments after).map Argument.ofRaw⟩ d) := by
    have hassigned := supplies_bindArgument (d := d) (ofRaw_assigned hkey hvalue)
      (Assoc.contains_iff.mpr ⟨byDefault, hdefault⟩)
      ((args.map Argument.ofRaw).foldl (MacroCall.bindArgument d) {})
    rw [MacroCall.bind, MacroCall.bind, List.map_append, List.map_append, List.map_cons,
      List.foldl_append, List.foldl_append, List.foldl_cons]
    apply hassigned.steps
    intro arg harg
    obtain ⟨raw, hraw, rfl⟩ := List.mem_map.mp harg
    exact h.final raw hraw
  refine ⟨rfl, hbound, hbound.fill? hdefault hparam, ?_⟩
  intro env run origin raw site e hlookup hlength
  rw [Evaluation.expand, if_neg hname, hlookup]
  dsimp only
  rw [hbound.positional, hlength, if_neg (not_not_intro rfl)]

/-- A keyword parameter whose key is an identifier takes the value that a call gives for it, and the
call is read as one; any other keyword parameter has its default in every call. -/
theorem keyword_supplied_iff_identifier {d : Definition} {key byDefault : String}
    (hdefault : Assoc.get? key d.defaults = some byDefault) (hparam : key ∉ d.params) :
    (IsIdentifier key → ∀ value before blank after, IsPlain value → isBlank blank →
        Around key before after →
      let content := callContent before blank (assigned key value) after
      Passed d key value (MacroCall.read content)
          (MacroCall.read (String.ofList (before ++ after))) ∧
        ('}' ∉ before → '}' ∉ after →
          lex ("\x7b" ++ content ++ "\x7d") =
            [⟨.macroCall, content, ⟨0, ("\x7b" ++ content ++ "\x7d").utf8ByteSize⟩⟩])) ∧
    (¬ IsIdentifier key → ∀ content,
      let bound := (MacroCall.read content).bind d
      Assoc.get? key bound.keywords = none ∧
        d.fill? bound.positional bound.keywords key = some byDefault) := by
  constructor
  · intro hkey value before blank after hvalue hblank h content
    refine ⟨passed_of_isIdentifier hdefault hparam hkey hvalue hblank h, ?_⟩
    intro hbefore hafter
    apply lex_macroCall
    have hassigned : '}' ∉ assigned key value :=
      fun hmem => (mem_assigned hkey hvalue hmem).2 (by simp)
    have hne : '}' ≠ blank := by
      rintro rfl
      exact absurd hblank (by decide)
    simp only [content, callContent, String.toList_ofList, List.mem_append, List.mem_cons, not_or]
    exact ⟨hbefore, hne, hassigned, hafter⟩
  · intro hkey content bound
    have hnone := get?_bind_of_not_isIdentifier hkey content d
    refine ⟨hnone, ?_⟩
    rw [Definition.fill?_of_not_mem_params hparam, hdefault, hnone]
    rfl

theorem size_supplied :
    let d : Definition := { name := "M", body := "\x7bsize\x7d", defaults := [("size", "3")] }
    IsIdentifier "size" ∧ IsPlain "5" ∧ Around "size" ['M'] [] ∧
      Passed d "size" "5" (MacroCall.read "M size=5") (MacroCall.read "M") := by
  intro d
  have hkey : IsIdentifier "size" := by decide
  have hvalue : IsPlain "5" := by decide
  have haround : Around "size" ['M'] [] := by
    refine ⟨by decide, by decide, nofun, ?_⟩
    intro raw hraw
    cases hraw
  have hdefault : Assoc.get? "size" d.defaults = some "3" := by decide
  have hparam : "size" ∉ d.params := List.not_mem_nil
  have hcontent : callContent ['M'] ' ' (assigned "size" "5") [] = "M size=5" := by decide
  have hpassed := (keyword_supplied_iff_identifier hdefault hparam).1 hkey "5" ['M'] ' ' []
    hvalue (by decide) haround
  rw [hcontent] at hpassed
  exact ⟨hkey, hvalue, haround, hpassed.1⟩

/-- The key is recorded, and in a call that gives a value for it this is an argument by position. -/
theorem hyphenated_key_not_supplied :
    let block : DefineBlock :=
      ⟨⟨.define, ["M", "size-x=3"], "M size-x=3"⟩, "\x7bsize-x\x7d", [], none, 0⟩
    let d : Definition :=
      { name := "M", body := "\x7bsize-x\x7d", defaults := [("size-x", "3")] }
    Node.ofSource "#define M size-x=3\n\x7bsize-x\x7d#enddef" = .ok [.define block] ∧
      Evaluation.define {} {} block =
        Evaluation.proceed { session := { macros := ({} : MacroTable).define d } } ∧
      IsPlain "5" ∧ (MacroCall.read "M size-x=5").bind d = ⟨["size-x=5"], []⟩ ∧ d.arity = 0 := by
  exact ⟨by decide +kernel, rfl, by decide, by decide, rfl⟩

end CampaignMarkup
