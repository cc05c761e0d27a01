import CampaignMarkup.Proofs.Document.Definitions
import CampaignMarkup.Proofs.Document.Stretches

/-! # Definitions that are printed

A definition is printed as a `#define` with its names, an `#arg` block for each default text, the
body and an `#enddef`. Where the body and the default texts are made of stretches, the text falls
into the pieces it was printed from, and they are gathered into the same body and default texts. -/
namespace CampaignMarkup

open Token Lexeme Enclosure

namespace Capture

theorem argValue_feed {cs : List Char} (h : '\r' ∉ cs) :
    argValue (cs ++ ['\n']) = String.ofList cs := by
  have hnone : Chars.dropEnding? ['\r', '\n'] (cs ++ ['\n']) = none := by
    rw [Option.eq_none_iff_forall_not_mem]
    intro rest hrest
    have heq := Chars.dropEnding?_eq_some.mp hrest
    have hcut : rest ++ ['\r', '\n'] = (rest ++ ['\r']) ++ ['\n'] := List.append_cons ..
    rw [hcut, List.append_left_inj] at heq
    exact h (by simp [heq])
  have hsome : Chars.dropEnding? ['\n'] (cs ++ ['\n']) = some cs :=
    Chars.dropEnding?_eq_some.mpr rfl
  simp [argValue, hnone, hsome]

theorem argValue_of_not_break {cs : List Char}
    (h : ∀ c ∈ cs.getLast?, Text.isLineBreak c = false) : argValue cs = String.ofList cs := by
  have hnone : ∀ ending ∈ [['\r', '\n'], ['\n'], ['\r'], ['\u2028'], ['\u2029']],
      Chars.dropEnding? ending cs = none := by
    intro ending hending
    have hany : ending.getLast?.any Text.isLineBreak := by
      revert ending
      decide
    obtain ⟨c, hc, hbreak⟩ := (Option.any_eq_true _ _).mp hany
    rw [Option.eq_none_iff_forall_not_mem]
    intro rest hrest
    have heq := Chars.dropEnding?_eq_some.mp hrest
    have hlast := h c (by rw [heq, List.getLast?_append, hc]; rfl)
    rw [hbreak] at hlast
    cases hlast
  unfold argValue
  dsimp only
  rw [List.findSome?_eq_none_iff.mpr hnone, Option.getD_none]

end Capture

namespace Lexeme

theorem Pieces.of_append {ws zs : List Lexeme} {rest : List Char}
    (h : Pieces (spell ws ++ rest) (ws ++ zs)) : ∀ y ∈ ws.getLast?, y.PieceBefore rest := by
  induction ws with
  | nil => simp
  | cons x ws ih =>
    rw [spell_cons, List.append_assoc] at h
    obtain ⟨hx, hws⟩ := h.cons_inv
    cases ws with
    | nil =>
      rintro y ⟨⟩
      exact hx
    | cons y ws =>
      rw [List.getLast?_cons_cons]
      exact ih hws

/-- Only a line break ends with a line break, unless it was never closed. -/
theorem PieceBefore.last_not_break {x : Lexeme} {rest : List Char} (h : x.PieceBefore rest)
    (hrest : rest ≠ []) (hkind : x.token.kind ≠ .endOfLine) :
    ∀ c ∈ x.chars.getLast?, Text.isLineBreak c = false := by
  intro c hc
  have hmem := List.mem_of_getLast? hc
  cases h with
  | word hw _ _ =>
    rcases hw.chars c hmem with hplain | rfl
    · exact (isPlain_iff.mp hplain).1
    · decide
  | form hcut htext =>
    cases hcut with
    | comment hbody _ =>
      rcases List.mem_cons.mp hmem with rfl | hc
      · decide
      · exact hbody c hc
    | returnAndFeed => exact absurd rfl hkind
    | lineBreak _ _ => exact absurd rfl hkind
    | whitespace _ hgap _ =>
      have hc := hgap c hmem
      simp only [Text.isGap, Bool.and_eq_true, Bool.not_eq_true'] at hc
      exact hc.2
    | quoted _ =>
      obtain rfl : '"' = c := by simpa [List.getLast?_cons] using hc
      decide
    | rawQuoted _ =>
      obtain rfl : '>' = c := by simpa [List.getLast?_cons] using hc
      decide
    | macroCall _ =>
      obtain rfl : '}' = c := by simpa [List.getLast?_cons] using hc
      decide
    | openQuoted => exact absurd rfl hrest
    | openRawQuoted _ => exact absurd rfl hrest
    | openMacroCall _ => exact absurd rfl hrest
    | loneAngle _ => cases htext
    | text => cases htext

namespace Stretch

variable {inArg : Bool} {vs : List Lexeme}

/-- A stretch can be ended with its line. -/
theorem feed (h : Stretch inArg vs) : Stretch inArg (vs ++ [lineFeed]) := by
  have hstep : ((outer inArg).through vs).step lineFeed.token =
      { (outer inArg).through vs with atLineStart := true } :=
    Enclosure.step_break _ rfl
  constructor
  case rests =>
    refine rests_append.mpr ⟨h.rests, ?_, ?_, trivial⟩
    · rw [hstep, h.depth]
      exact Nat.one_ne_zero
    · rw [hstep]
  case depth =>
    rw [through_append, through_cons, through_nil, hstep]
    exact h.depth
  case lined => exact fun _ => .inr (by simp)
  case feeds =>
    rw [spell_append]
    refine List.forall_mem_append.mpr ⟨h.feeds, ?_⟩
    simp [lineFeed]
  case stands =>
    intro rest zs hrest _
    have hfeed : Pieces ('\n' :: rest) (lineFeed :: zs) := .cons (lineFeed_pieceBefore rest) hrest
    rw [spell_append, List.append_assoc, List.append_assoc]
    exact h.stands _ _ hfeed (.inr (.inr rfl))

/-- The text of a stretch that does not end with its line ends with no line break at all. -/
theorem last_not_break (h : Stretch inArg vs) (hlined : ¬ vs.getLast? = some lineFeed) :
    ∀ c ∈ (spell vs).getLast?, Text.isLineBreak c = false := by
  rcases List.eq_nil_or_concat' vs with rfl | ⟨front, y, rfl⟩
  · simp
  have hfollowed := h.stands _ _ (pieces_fuse_scan ['#']) (.inr (.inl rfl))
  have hbefore := hfollowed.of_append y (by simp)
  have hne := hbefore.ne_nil
  have hkind : y.token.kind ≠ .endOfLine := by
    intro hbreak
    refine hlined ?_
    rw [hbefore.eq_lineFeed hbreak fun c hc => h.feeds c (by simp [hc])]
    simp
  rw [spell_append, spell_cons, spell_nil, List.append_nil, List.getLast?_append_of_ne_nil _ hne]
  exact hbefore.last_not_break (List.cons_ne_nil _ _) hkind

theorem not_mem_return (h : Stretch inArg vs) : '\r' ∉ spell vs :=
  fun hmem => absurd (h.feeds '\r' hmem rfl) (by decide)

end Stretch

/-- The lines of an `#arg` block that has this default text. -/
structure Prints (value : String) (us : List Lexeme) : Prop where
  stretch : Stretch true us
  ends : us.getLast? = some lineFeed
  spelled : spell us = value.toList ++ ['\n']
  value_eq : Capture.argValue (spell us) = value

/-- A default text can be printed. The line break that it lost is there, or it is added. -/
theorem Stretch.exists_prints {vs : List Lexeme} (h : Stretch true vs) :
    ∃ us, Prints (Capture.argValue (spell vs)) us := by
  by_cases hends : vs.getLast? = some lineFeed
  · obtain ⟨front, rfl⟩ := List.getLast?_eq_some_iff.mp hends
    have hreturn : '\r' ∉ spell front := by
      have hno := h.not_mem_return
      simp only [spell_append, List.mem_append, not_or] at hno
      exact hno.1
    have hspell : spell (front ++ [lineFeed]) = spell front ++ ['\n'] := spell_append ..
    have hvalue := Capture.argValue_feed hreturn
    refine ⟨_, h, hends, ?_, rfl⟩
    rw [hspell, hvalue, String.toList_ofList]
  · have hspell : spell (vs ++ [lineFeed]) = spell vs ++ ['\n'] := spell_append ..
    rw [Capture.argValue_of_not_break (h.last_not_break hends)]
    refine ⟨_, h.feed, by simp, ?_, ?_⟩
    · rw [hspell, String.toList_ofList]
    · rw [hspell, Capture.argValue_feed h.not_mem_return]

theorem Stretch.plain {w : List Char} (hne : w ≠ []) (h : ∀ c ∈ w, isPlain c) (inArg : Bool) :
    Stretch inArg [⟨.text, w⟩] := by
  have hstep : (outer inArg).step (token ⟨.text, w⟩) = { outer inArg with atLineStart := false } :=
    Enclosure.step_plain _ nofun nofun rfl
  have hbreak : ∀ c ∈ w, Text.isLineBreak c = false := fun c hc => (isPlain_iff.mp (h c hc)).1
  constructor
  case rests =>
    refine ⟨?_, ?_, trivial⟩
    · rw [hstep]
      exact Nat.one_ne_zero
    · rw [hstep]
  case depth =>
    rw [through_cons, through_nil, hstep]
    rfl
  case lined =>
    rw [through_cons, through_nil, hstep]
    nofun
  case feeds =>
    intro c hc hfeed
    rw [hbreak c (by simpa using hc)] at hfeed
    cases hfeed
  case stands =>
    intro rest zs hrest hcond
    have hlined : ¬ Lined [⟨.text, w⟩] := by simp [Lined, lineFeed]
    have hshape : wordShape w = .text := by
      refine wordShape_of_ne ?_
      rintro rfl
      exact absurd (h '<' (by simp)) (by decide)
    have hkind : firstKind rest ≠ some .text ∧ rest.head? ≠ some '<' := by
      rcases hcond.resolve_left hlined with hhead | hhead
      · rw [firstKind_hash hhead, hhead]
        decide
      · rw [firstKind_lineFeed hhead, hhead]
        decide
    have hword := PieceBefore.word (isWord_of_plain hne h) hkind.1 fun _ => hkind.2
    rw [hshape] at hword
    rw [spell_cons, spell_nil, List.append_nil]
    exact .cons hword hrest

/-- Plain text is the text of a stretch, also where there is none of it. -/
theorem exists_stretch_of_plain {value : String} (h : ∀ c ∈ value.toList, isPlain c) :
    ∃ vs, Stretch true vs ∧ Capture.argValue (spell vs) = value := by
  have hvalue : Capture.argValue value.toList = value := by
    rw [Capture.argValue_of_not_break, String.ofList_toList]
    exact fun c hc => (isPlain_iff.mp (h c (List.mem_of_getLast? hc))).1
  by_cases hne : value.toList = []
  · rw [hne] at hvalue
    exact ⟨[], .nil true, hvalue⟩
  · refine ⟨[⟨.text, value.toList⟩], .plain hne h true, ?_⟩
    rwa [spell_cons, spell_nil, List.append_nil]

/-! ## The pieces that are printed -/

/-- A directive with its words. -/
def directiveOf (kind : DirectiveKind) (names : List String) : Lexeme :=
  ⟨.comment, (kind.display ++ String.join (names.map (" " ++ ·))).toList⟩

/-- The `#arg` block of a default text. -/
def argBlock (p : String × List Lexeme) : List Lexeme :=
  directiveOf .arg [p.1] :: lineFeed :: (p.2 ++ [directiveOf .endarg [], lineFeed])

/-- What is printed below a `#define`. -/
def printed (blocks : List (String × List Lexeme)) (body : List Lexeme) : List Lexeme :=
  blocks.flatMap argBlock ++ (body ++ [directiveOf .enddef []])

section Directives

variable (kind : DirectiveKind) (names : List String)

theorem exists_directive? (h : ∀ name ∈ names, Chars.Unbroken name.toList) :
    ∃ rest, (directiveOf kind names).token.directive? = some ⟨kind, names, rest⟩ := by
  obtain ⟨rest, hrest⟩ := Directive.ofComment?_listed kind h
  refine ⟨rest, directive?_eq_some.mpr ⟨rfl, ?_⟩⟩
  change Directive.ofComment? (String.ofList (String.toList _)) = _
  rwa [String.ofList_toList]

theorem directiveOf_pieceBefore (h : ∀ name ∈ names, Chars.Unbroken name.toList) {rest : List Char}
    (hrest : ∀ c ∈ rest.head?, Text.isLineBreak c) : (directiveOf kind names).PieceBefore rest := by
  unfold directiveOf
  rw [toList_display_listed]
  refine .form (.comment ?_ hrest) rfl
  refine List.forall_mem_append.mpr ⟨kind.unbroken_keyword.isLineBreak, ?_⟩
  exact Chars.isLineBreak_of_mem_listed (by simpa using h)

theorem head?_directiveOf (rest : List Char) :
    ((directiveOf kind names).chars ++ rest).head? = some '#' := by
  rw [directiveOf, toList_display_listed]
  rfl

end Directives

theorem Pieces.cons_directiveOf (kind : DirectiveKind) (names : List String)
    (h : ∀ name ∈ names, Chars.Unbroken name.toList) {rest : List Char} {zs : List Lexeme}
    (hrest : Pieces rest zs) :
    Pieces (spell [directiveOf kind names, lineFeed] ++ rest)
      ([directiveOf kind names, lineFeed] ++ zs) := by
  have hfeed : Pieces ('\n' :: rest) (lineFeed :: zs) := .cons (lineFeed_pieceBefore rest) hrest
  have hline := Pieces.cons (directiveOf_pieceBefore kind names h (by simp; decide)) hfeed
  simpa [lineFeed] using hline

theorem Pieces.append_argBlock {p : String × List Lexeme} (hname : Chars.Unbroken p.1.toList)
    (hp : Stretch true p.2) {rest : List Char} {zs : List Lexeme} (hrest : Pieces rest zs) :
    Pieces (spell (argBlock p) ++ rest) (argBlock p ++ zs) := by
  have hend := hrest.cons_directiveOf .endarg [] (by simp)
  have hinside := hp.stands _ _ hend (.inr (.inl (head?_directiveOf .endarg [] _)))
  have hall := hinside.cons_directiveOf .arg [p.1] (by simpa using hname)
  simpa [argBlock] using hall

theorem pieces_printed {body : List Lexeme} {blocks : List (String × List Lexeme)}
    (hblocks : ∀ p ∈ blocks, Chars.Unbroken p.1.toList ∧ Stretch true p.2)
    (hbody : Stretch false body) : Pieces (spell (printed blocks body)) (printed blocks body) := by
  induction blocks with
  | nil =>
    have hend : Pieces ((directiveOf .enddef []).chars ++ []) [directiveOf .enddef []] :=
      .cons (directiveOf_pieceBefore .enddef [] (by simp) (by simp)) .nil
    have hall := hbody.stands _ _ hend (.inr (.inl (head?_directiveOf .enddef [] [])))
    simpa [printed] using hall
  | cons p blocks ih =>
    obtain ⟨⟨hname, hp⟩, hblocks⟩ := List.forall_mem_cons.mp hblocks
    have hall := (ih hblocks).append_argBlock hname hp
    simpa [printed] using hall

end Lexeme

namespace Gathering

theorem taken_of_stretch {g : Gathering} {inArg : Bool} (h : Stretch inArg g.held)
    (hlevel : g.level = (outer inArg).through g.held) : g.taken = g.held := by
  unfold taken
  split
  · next hstart =>
    rw [List.rdropWhile_eq_self_iff]
    intro hne
    rw [hlevel] at hstart
    have hlast := (h.lined hstart).resolve_left hne
    rw [List.getLast?_eq_some_getLast hne] at hlast
    rw [Option.some.inj hlast]
    decide
  · rfl

variable (body : List Lexeme) (defaults : List (String × List Lexeme))

theorem gather_opening {name : String} (hname : Chars.Unbroken name.toList) (xs : List Lexeme) :
    gather { body, defaults } (directiveOf .arg [name] :: lineFeed :: xs) =
      gather { body, defaults, arg := some name, level := outer true } xs := by
  obtain ⟨rest, hd⟩ := exists_directive? .arg [name] (by simpa using hname)
  have hstep : ({ body, defaults } : Gathering).level.step (directiveOf .arg [name]).token =
      { outer true with atLineStart := false } := by
    rw [Enclosure.step_directive _ hd]
    rfl
  have hnext : ({ body, defaults } : Gathering).close.renew { outer true with atLineStart := false }
      (some name) = { body, defaults, arg := some name, level := outer true } := by
    simp [close, renew, taken, outer]
  rw [gather_openArg (by simp [hstep, outer]) rfl (by simp [hstep, outer]), hd, hstep]
  exact congrArg (gather · xs) hnext

theorem gather_closing (name : String) {vs : List Lexeme} (h : Stretch true vs) (hlined : Lined vs)
    (xs : List Lexeme) :
    gather { body, defaults, arg := some name, held := vs, level := outer true }
        (directiveOf .endarg [] :: lineFeed :: xs) =
      gather { body, defaults := defaults ++ [(name, vs)] } xs := by
  obtain ⟨rest, hd⟩ := exists_directive? .endarg [] (by simp)
  obtain ⟨g, hg⟩ : ∃ g : Gathering,
    g = { body, defaults, arg := some name, held := vs, level := outer true } := ⟨_, rfl⟩
  have hstep : g.level.step (directiveOf .endarg []).token =
      { outer false with atLineStart := false } := by
    rw [Enclosure.step_directive _ hd, hg]
    rfl
  have htaken : g.taken = vs := by
    rw [hg]
    exact taken_of_stretch h (h.through_eq hlined).symm
  have hnext : g.close.renew { outer false with atLineStart := false } none =
      { body, defaults := defaults ++ [(name, vs)] } := by
    unfold close
    rw [htaken, hg]
    rfl
  rw [← hg, gather_closeArg (by simp [hstep, outer]) (by rw [hg]; rfl) (by simp [hstep, outer]),
    hstep]
  exact congrArg (gather · xs) hnext

/-- An `#arg` block that is printed is gathered as it was. -/
theorem gather_argBlock {p : String × List Lexeme} (hname : Chars.Unbroken p.1.toList)
    (hp : Stretch true p.2) (hlined : Lined p.2) (xs : List Lexeme) :
    gather { body, defaults } (argBlock p ++ xs) =
      gather { body, defaults := defaults ++ [p] } xs := by
  have hblock : argBlock p ++ xs =
      directiveOf .arg [p.1] :: lineFeed :: (p.2 ++ directiveOf .endarg [] :: lineFeed :: xs) := by
    simp [argBlock]
  have hlevel := hp.through_eq hlined
  rw [hblock, gather_opening _ _ hname, gather_rests hp.rests, hlevel, List.nil_append,
    gather_closing _ _ _ hp hlined]

/-- The body that is printed is gathered as it was. -/
theorem gather_body (h : Stretch false body) :
    ∃ g, gather { defaults } (body ++ [directiveOf .enddef []]) = some (g, []) ∧ g.body = body ∧
      g.defaults = defaults := by
  obtain ⟨rest, hd⟩ := exists_directive? .enddef [] (by simp)
  obtain ⟨g, hg⟩ : ∃ g : Gathering,
    g = { defaults, held := body, level := (outer false).through body } := ⟨_, rfl⟩
  have hgather : gather { defaults } (body ++ [directiveOf .enddef []]) =
      gather g [directiveOf .enddef []] := by
    rw [hg]
    exact gather_rests h.rests _
  have hdepth : (g.level.step (directiveOf .enddef []).token).depth = 0 := by
    rw [Enclosure.step_directive _ hd, hg]
    exact Nat.sub_eq_zero_of_le h.depth.le
  have htaken : g.taken = body := by
    rw [hg]
    exact taken_of_stretch h rfl
  refine ⟨g.close, ?_, ?_, ?_⟩
  · rw [hgather, gather_finish hdepth]
    rfl
  · unfold close
    rw [htaken, hg]
    rfl
  · unfold close
    rw [hg]

theorem gather_printed {body : List Lexeme} {blocks : List (String × List Lexeme)}
    (hblocks : ∀ p ∈ blocks, Chars.Unbroken p.1.toList ∧ Stretch true p.2 ∧ Lined p.2)
    (hbody : Stretch false body) :
    ∃ g, gather {} (printed blocks body) = some (g, []) ∧ g.body = body ∧ g.defaults = blocks := by
  have hall : ∀ defaults, ∃ g, gather { defaults } (printed blocks body) = some (g, []) ∧
      g.body = body ∧ g.defaults = defaults ++ blocks := by
    induction blocks with
    | nil =>
      intro defaults
      simpa [printed] using gather_body body defaults hbody
    | cons p blocks ih =>
      intro defaults
      obtain ⟨⟨hname, hp, hlined⟩, hblocks⟩ := List.forall_mem_cons.mp hblocks
      obtain ⟨g, hgather, hsame, hdefaults⟩ := ih hblocks (defaults ++ [p])
      refine ⟨g, ?_, hsame, ?_⟩
      · rw [printed, List.flatMap_cons, List.append_assoc, gather_argBlock _ _ hname hp hlined]
        exact hgather
      · rw [hdefaults, ← List.append_cons]
  exact hall []

end Gathering

/-- A definition that is printed is the only node of its text. -/
theorem Node.ofSource_printed {source : String} {names : List String} {body : List Lexeme}
    {blocks : List (String × List Lexeme)}
    (hsource : source.toList = spell ([directiveOf .define names, lineFeed] ++ printed blocks body))
    (hnames : ∀ name ∈ names, Chars.Unbroken name.toList)
    (hblocks : ∀ p ∈ blocks, Chars.Unbroken p.1.toList ∧ Stretch true p.2 ∧ Lined p.2)
    (hbody : Stretch false body) :
    ∃ rest line, Node.ofSource source = .ok [.define ⟨⟨.define, names, rest⟩,
      String.ofList (spell body), blocks.map fun p => (p.1, Capture.argValue (spell p.2)), none,
      line⟩] := by
  obtain ⟨rest, hd⟩ := exists_directive? .define names hnames
  obtain ⟨g, hgather, rfl, rfl⟩ := Gathering.gather_printed hblocks hbody
  have hpieces := pieces_printed (fun p hp => ⟨(hblocks p hp).1, (hblocks p hp).2.1⟩) hbody
  have hall := hpieces.cons_directiveOf .define names hnames
  rw [← spell_append, ← hsource] at hall
  obtain ⟨line, hline⟩ := Node.ofSource_of_gathered hall hd rfl rfl hgather
  exact ⟨rest, line, hline⟩

end CampaignMarkup
