import CampaignMarkup.Proofs.Document.Definitions
import CampaignMarkup.Proofs.Document.Groups
import CampaignMarkup.Proofs.Document.Stretches

/-! # What a definition holds

Between its `#define` and the `#enddef` that closes it a definition consists of the text of its body
and of `#arg` blocks. The body is that text without the blocks, and a default text is what stands
between the line of an `#arg` and its `#endarg`. White space in front of a directive that comes
first in its line is part of neither. -/
namespace CampaignMarkup

open Token Lexeme Enclosure

/-- What stands in front of a directive, without its indentation. -/
def unindented (inArg : Bool) (ws : List Lexeme) : List Lexeme :=
  if ((outer inArg).through ws).atLineStart then ws.rdropWhile isSpace else ws

/-- The body and the default texts that pieces hold up to the `#enddef` that closes a definition,
and the pieces from that `#enddef` on. The first of the pieces stand in the `#arg` block with this
name, which need not be closed, or in the body. -/
inductive Holds : Option String → List Lexeme → List Lexeme → List (String × List Lexeme) →
    List Lexeme → Prop where
  | body {ws x xs} : (outer false).Rests ws → ((outer false).through ws).Closes x.token →
      Holds none (ws ++ x :: xs) (unindented false ws) [] (x :: xs)
  | unclosed {name ws x xs} : (outer true).Rests ws → ((outer true).through ws).Closes x.token →
      Holds (some name) (ws ++ x :: xs) [] [(name, unindented true ws)] (x :: xs)
  | arg {name ws x xs d body defaults rest} : (outer false).Rests ws →
      ((outer false).through ws).atLineStart → ((outer false).through ws).depth = 1 →
      x.token.directive? = some d → d.kind = .arg → d.args.head? = some name →
      Holds (some name) (behindBreak xs) body defaults rest →
      Holds none (ws ++ x :: xs) (unindented false ws ++ body) defaults rest
  | endarg {name ws x xs d body defaults rest} : (outer true).Rests ws →
      ((outer true).through ws).depth = 1 → x.token.directive? = some d → d.kind = .endarg →
      Holds none (behindBreak xs) body defaults rest →
      Holds (some name) (ws ++ x :: xs) body ((name, unindented true ws) :: defaults) rest

theorem suffix_of_behind (ws : List Lexeme) (x : Lexeme) (xs : List Lexeme) :
    behindBreak xs <:+ ws ++ x :: xs :=
  (behindBreak_suffix xs).trans ((List.suffix_cons x xs).trans (List.suffix_append ws _))

namespace Holds

variable {arg : Option String} {xs body rest : List Lexeme} {defaults : List (String × List Lexeme)}

theorem suffix (h : Holds arg xs body defaults rest) : rest <:+ xs := by
  induction h with
  | body _ _ => exact List.suffix_append _ _
  | unclosed _ _ => exact List.suffix_append _ _
  | arg _ _ _ _ _ _ _ ih => exact ih.trans (suffix_of_behind _ _ _)
  | endarg _ _ _ _ _ ih => exact ih.trans (suffix_of_behind _ _ _)

/-- The pieces end in front of an `#enddef`. -/
theorem exists_enddef (h : Holds arg xs body defaults rest) :
    ∃ x us, rest = x :: us ∧ ∃ d, x.token.directive? = some d ∧ d.kind = .enddef := by
  induction h with
  | body _ hcloses => exact ⟨_, _, rfl, hcloses.2⟩
  | unclosed _ hcloses => exact ⟨_, _, rfl, hcloses.2⟩
  | arg _ _ _ _ _ _ _ ih => exact ih
  | endarg _ _ _ _ _ ih => exact ih

theorem shape_ne {x : Lexeme} {us : List Lexeme} (h : Holds arg xs body defaults (x :: us)) :
    x.shape ≠ .endOfLine := by
  obtain ⟨y, vs, heq, d, hd, -⟩ := h.exists_enddef
  obtain ⟨rfl, rfl⟩ := List.cons.inj heq
  intro hshape
  cases (directive?_eq_some.mp hd).1.symm.trans (kind_eq_endOfLine.mpr hshape)

end Holds

namespace Gathering

theorem Resting.taken_eq {g : Gathering} (h : Resting g) :
    g.taken = unindented g.arg.isSome g.held := by
  rw [taken, unindented, h.level]

/-- The directive that closes the definition also closes what is held. -/
theorem Resting.holds_close {g : Gathering} {x : Lexeme} (h : Resting g)
    (hcloses : g.level.Closes x.token) (xs : List Lexeme) :
    ∃ body defaults y us, Holds g.arg (g.held ++ x :: xs) body defaults (y :: us) ∧
      behindBreak xs = behindBreak us ∧ g.close.body = g.body ++ body ∧
      g.close.defaults = g.defaults ++ defaults := by
  have htaken := h.taken_eq
  obtain ⟨hrests, hlevel⟩ := h
  rw [hlevel] at hcloses
  cases harg : g.arg with
  | none =>
    rw [harg] at htaken hrests hcloses
    rw [close_of_none harg, htaken]
    exact ⟨_, _, x, xs, .body hrests hcloses, rfl, rfl, by simp⟩
  | some name =>
    rw [harg] at htaken hrests hcloses
    rw [close_of_some harg, htaken]
    exact ⟨_, _, x, xs, .unclosed hrests hcloses, rfl, by simp, rfl⟩

/-- An `#arg` line ends a stretch of the body, and the rest is held from behind it. -/
theorem Resting.holds_arg {g : Gathering} {x : Lexeme} {xs body rest : List Lexeme} {d : Directive}
    {name : String} {defaults : List (String × List Lexeme)} (h : Resting g) (hnone : g.arg = none)
    (hstart : g.level.atLineStart) (hone : g.level.depth = 1) (hd : x.token.directive? = some d)
    (hkind : d.kind = .arg) (hname : d.args.head? = some name)
    (hrest : Holds (some name) (behindBreak xs) body defaults rest) :
    Holds none (g.held ++ x :: xs) (unindented false g.held ++ body) defaults rest ∧
      g.close.body = g.body ++ unindented false g.held ∧ g.close.defaults = g.defaults := by
  have htaken := h.taken_eq
  obtain ⟨hrests, hlevel⟩ := h
  rw [hnone] at htaken hrests hlevel
  rw [hlevel] at hstart hone
  rw [close_of_none hnone, htaken]
  exact ⟨.arg hrests hstart hone hd hkind hname hrest, rfl, rfl⟩

/-- An `#endarg` line ends a default text. -/
theorem Resting.holds_endarg {g : Gathering} {x : Lexeme} {xs body rest : List Lexeme}
    {d : Directive} {name : String} {defaults : List (String × List Lexeme)} (h : Resting g)
    (hname : g.arg = some name) (hone : g.level.depth = 1) (hd : x.token.directive? = some d)
    (hkind : d.kind = .endarg) (hrest : Holds none (behindBreak xs) body defaults rest) :
    Holds (some name) (g.held ++ x :: xs) body ((name, unindented true g.held) :: defaults) rest ∧
      g.close.body = g.body ∧
      g.close.defaults = g.defaults ++ [(name, unindented true g.held)] := by
  have htaken := h.taken_eq
  obtain ⟨hrests, hlevel⟩ := h
  rw [hname] at htaken hrests hlevel
  rw [hlevel] at hone
  rw [close_of_some hname, htaken]
  exact ⟨.endarg hrests hone hd hkind hrest, rfl, rfl⟩

/-- By induction on the pieces. What is held is taken at the next directive of the outer level. -/
theorem holds_of_gather {g g' : Gathering} {xs zs : List Lexeme} (h : Resting g)
    (hgather : gather g xs = some (g', zs)) :
    ∃ body defaults x us, Holds g.arg (g.held ++ xs) body defaults (x :: us) ∧
      zs = behindBreak us ∧ g'.body = g.body ++ body ∧ g'.defaults = g.defaults ++ defaults := by
  induction hn : xs.length using Nat.strong_induction_on generalizing g xs with
  | _ n ih =>
    cases xs with
    | nil => simp [gather] at hgather
    | cons x xs =>
      rw [List.length_cons] at hn
      have hlen := (behindBreak_suffix xs).length_le
      by_cases hdepth : (g.level.step x.token).depth = 0
      · have hcloses := closes_of_depth h.depth_ne hdepth
        rw [gather_finish hdepth] at hgather
        cases hgather
        exact h.holds_close hcloses xs
      by_cases hsame : (g.level.step x.token).inArg = g.level.inArg
      · rw [gather_hold hdepth hsame] at hgather
        have hheld : (g.hold x).held ++ xs = g.held ++ x :: xs := by simp [Gathering.hold]
        exact hheld ▸ ih _ (by omega) (h.hold hdepth hsame) hgather rfl
      cases harg : g.level.inArg with
      | false =>
        have hnone : g.arg = none := by simpa [harg] using h.inArg_eq
        have harg' : (g.level.step x.token).inArg = true := by simpa [harg] using hsame
        obtain ⟨d, hd, hkind, hstart, hone⟩ := Enclosure.opens harg harg'
        rw [gather_openArg hdepth harg harg', hd, Option.bind_some] at hgather
        obtain ⟨name, hname, hgather⟩ := Option.bind_eq_some_iff.mp hgather
        have hrenewed : Resting (g.close.renew (g.level.step x.token) (some name)) :=
          .renew (behind_arg hd hkind hstart hone)
        obtain ⟨body, defaults, y, us, hholds, hzs, hbody, hdefaults⟩ :=
          ih _ (by omega) hrenewed hgather rfl
        obtain ⟨hheld, hbody', hdefaults'⟩ :=
          h.holds_arg hnone hstart hone hd hkind hname hholds
        refine ⟨_, _, y, us, hnone ▸ hheld, hzs, ?_, ?_⟩
        · rw [hbody, renew, hbody', List.append_assoc]
        · rw [hdefaults, renew, hdefaults']
      | true =>
        obtain ⟨name, hname⟩ := Option.isSome_iff_exists.mp (h.inArg_eq.symm.trans harg)
        have harg' : (g.level.step x.token).inArg = false := by simpa [harg] using hsame
        obtain ⟨d, hd, hkind, hone⟩ := Enclosure.shuts harg harg'
        rw [gather_closeArg hdepth harg harg'] at hgather
        have hrenewed : Resting (g.close.renew (g.level.step x.token) none) :=
          .renew (behind_endarg hd hkind hone)
        obtain ⟨body, defaults, y, us, hholds, hzs, hbody, hdefaults⟩ :=
          ih _ (by omega) hrenewed hgather rfl
        obtain ⟨hheld, hbody', hdefaults'⟩ := h.holds_endarg hname hone hd hkind hholds
        refine ⟨_, _, y, us, hname ▸ hheld, hzs, ?_, ?_⟩
        · rw [hbody, renew, hbody']
        · rw [hdefaults, renew, hdefaults', List.append_assoc, List.singleton_append]

end Gathering

/-! ## The block of a definition -/

namespace Lexeme

theorem suffix_behindBreak {x : Lexeme} {xs ys : List Lexeme} (h : x :: xs <:+ ys)
    (hx : x.shape ≠ .endOfLine) : x :: xs <:+ behindBreak ys := by
  cases ys with
  | nil => exact h
  | cons y ys =>
    rw [behindBreak]
    split
    · next hy =>
      rcases List.suffix_cons_iff.mp h with heq | htail
      · rw [(List.cons.inj heq).1] at hx
        exact absurd hy hx
      · exact htail
    · exact h

/-- A piece that is no line break is known by what comes behind its line. -/
theorem eq_of_behindBreak {x y : Lexeme} {xs ys zs : List Lexeme} (hxs : x :: xs <:+ zs)
    (hys : y :: ys <:+ zs) (hx : x.shape ≠ .endOfLine) (hy : y.shape ≠ .endOfLine)
    (heq : behindBreak xs = behindBreak ys) : x = y ∧ xs = ys := by
  wlog h : x :: xs <:+ y :: ys generalizing x y xs ys
  · have hother := (List.suffix_or_suffix_of_suffix hxs hys).resolve_left h
    obtain ⟨rfl, rfl⟩ := this hys hxs hy hx heq.symm hother
    exact ⟨rfl, rfl⟩
  rcases List.suffix_cons_iff.mp h with hsame | htail
  · exact List.cons.inj hsame
  · have hlong := (suffix_behindBreak htail hx).length_le
    have hshort := (behindBreak_suffix xs).length_le
    rw [← heq, List.length_cons] at hlong
    omega

variable {source : String} {t u : Token} {x y : Lexeme} {xs ys : List Lexeme}

theorem TokenAt.suffix (h : TokenAt source t x xs) : x :: xs <:+ fuse (scan source.toList) := by
  obtain ⟨front, hpieces, -⟩ := h
  exact ⟨front, hpieces.symm⟩

theorem TokenAt.skipLineBreak (h : TokenAt source t x xs) :
    skipLineBreak (tokensAtEnd source.toList xs) = tokensAtEnd source.toList (behindBreak xs) := by
  obtain ⟨before, hbefore⟩ := h.exists_before
  have hbehind : source.toList = (before ++ x.chars) ++ spell xs := by simp [hbefore]
  exact skipLineBreak_tokensAtEnd hbehind

theorem TokenAt.shape_ne (h : TokenAt source t x xs) (hkind : t.kind = .comment) :
    x.shape ≠ .endOfLine := by
  obtain ⟨front, -, rfl⟩ := h
  intro hshape
  cases hkind.symm.trans (kind_eq_endOfLine.mpr hshape)

/-- Where the tokens from two places on are the same, the places are. -/
theorem eq_of_tokensAtEnd (source : String) (hxs : xs <:+ fuse (scan source.toList))
    (hys : ys <:+ fuse (scan source.toList))
    (h : mergeConcatenations (tokensAtEnd source.toList xs) =
      mergeConcatenations (tokensAtEnd source.toList ys)) : xs = ys := by
  have hpieces := pieces_fuse_scan source.toList
  have hspell : ∀ {zs}, zs <:+ fuse (scan source.toList) → spell zs =
      Chars.dropBytes (offsetOf (Chars.byteSize source.toList)
        (mergeConcatenations (tokensAtEnd source.toList zs))) source.toList := by
    rintro zs ⟨front, hfront⟩
    have hsource : source.toList = spell front ++ spell zs := by
      rw [← spell_append, hfront]
      exact hpieces.flatMap_chars.symm
    rw [offsetOf_merge, offsetOf_tokensAtEnd hsource]
    conv_rhs => rw [hsource]
    rw [Chars.dropBytes_append]
  calc xs = fuse (scan (spell xs)) := (hpieces.suffix hxs).eq_fuse
    _ = fuse (scan (spell ys)) := by rw [hspell hxs, h, ← hspell hys]
    _ = ys := (hpieces.suffix hys).eq_fuse.symm

end Lexeme

namespace TokenGroup

theorem divided_append {above below : List TokenGroup} {rest : List Token}
    (h : Divided (above ++ below) rest) :
    Divided above (below.flatMap tokens ++ rest) ∧ Divided below rest := by
  induction above with
  | nil => exact ⟨trivial, h⟩
  | cons g gs ih =>
    obtain ⟨hg, hline, hrest⟩ := h
    obtain ⟨hgs, hbelow⟩ := ih hrest
    refine ⟨⟨hg, hline.imp_right ?_, hgs⟩, hbelow⟩
    rintro ⟨hnil, rfl⟩
    obtain ⟨rfl, rfl⟩ := List.append_eq_nil_iff.mp hnil
    exact ⟨rfl, rfl⟩

/-- The definition of a block holds what the pieces of the text do, from behind the line of its
`#define` up to its `#enddef`. -/
theorem exists_holds {source : String} {gap inside ending rest : List Token} {header close : Token}
    {lines : LineMap} {docs : List String} {b : DefineBlock}
    (hg : (block gap header inside close ending).WellFormed)
    (hsuffix : (block gap header inside close ending).tokens ++ rest <:+ lex source)
    (hline : EndsLine (block gap header inside close ending).tokens ∨ rest = [])
    (hblock : Capture.block source.toList lines b.header docs b.line
      (skipLineBreak (inside ++ close :: (ending ++ rest))) = .ok (b, rest)) :
    ∃ x xs y ys body defaults, TokenAt source header x xs ∧ TokenAt source close y ys ∧
      Holds none (behindBreak xs) body defaults (y :: ys) ∧ b.body = String.ofList (spell body) ∧
      b.argDefaults = defaults.map fun p => (p.1, Capture.argValue (spell p.2)) := by
  obtain ⟨-, ⟨d, hd, -⟩, -, ⟨-, d', hd', -⟩, hending⟩ := hg
  have hheader := (directive?_eq_some.mp hd).1
  have hclose := (directive?_eq_some.mp hd').1
  have htokens : (block gap header inside close ending).tokens ++ rest =
      gap ++ header :: (inside ++ close :: (ending ++ rest)) := by
    simp [tokens]
  rw [htokens] at hsuffix
  have hfrom : header :: (inside ++ close :: (ending ++ rest)) <:+ lex source :=
    (List.suffix_append _ _).trans hsuffix
  have hupto : close :: (ending ++ rest) <:+ lex source :=
    (List.suffix_append _ _).trans ((List.suffix_cons header _).trans hfrom)
  obtain ⟨x, xs, hx, hbehind⟩ := exists_tokenAt hfrom hheader
  obtain ⟨y, ys, hy, hafter⟩ := exists_tokenAt hupto hclose
  rw [hbehind] at hblock
  obtain ⟨g, zs, hgather, hbody, hdefaults, hmore⟩ := Capture.gathered_of_block hx hblock
  obtain ⟨body, defaults, y', ys', hholds, rfl, hbody', hdefaults'⟩ :=
    Gathering.holds_of_gather (g := {}) ⟨trivial, rfl⟩ hgather
  -- the piece that closes what is held is that of the `#enddef`
  have hlast : EndsLine (gap ++ header :: inside ++ close :: ending) ∨ rest = [] := by
    simpa [tokens] using hline
  have hskip := hending.skipLineBreak_append hclose hlast
  have hupper : y' :: ys' <:+ fuse (scan source.toList) :=
    hholds.suffix.trans ((suffix_of_behind [] x xs).trans hx.suffix)
  have hlower := hy.suffix
  have hsame : behindBreak ys = behindBreak ys' := by
    refine eq_of_tokensAtEnd source ?_ ?_ ?_
    · exact (suffix_of_behind [] y ys).trans hlower
    · exact (suffix_of_behind [] y' ys').trans hupper
    · rw [← hmore, ← hskip, hafter, skipLineBreak_merge, hy.skipLineBreak]
  obtain ⟨rfl, rfl⟩ :=
    eq_of_behindBreak hlower hupper (hy.shape_ne hclose) hholds.shape_ne hsame
  refine ⟨x, xs, y, ys, body, defaults, hx, hy, hholds, ?_, ?_⟩
  · rw [hbody, hbody', List.nil_append]
  · rw [hdefaults, Gathering.values, hdefaults', List.nil_append]

/-- A block gives one definition, among the nodes of the groups above it and below it. Its body and
its default texts are what the pieces of the text hold from behind the line of its `#define` up to
its `#enddef`. -/
theorem block_holds_definition {source : String} {above below : List TokenGroup}
    {gap inside ending : List Token} {header close : Token} {nodes : List Node}
    (htokens : (above ++ block gap header inside close ending :: below).flatMap tokens = lex source)
    (hdivided : Divided (above ++ block gap header inside close ending :: below) [])
    (hread : Node.ofSource source = .ok nodes) :
    let lines := LineMap.ofText source
    let g := block gap header inside close ending
    ∃ first b last, nodes = first ++ .define b :: last ∧ YieldsAll lines [] above first ∧
      Yields lines (docs above) g [.define b] ∧ YieldsAll lines (above ++ [g]) below last ∧
      ∃ x xs y ys body defaults, TokenAt source header x xs ∧ TokenAt source close y ys ∧
        Holds none (behindBreak xs) body defaults (y :: ys) ∧ b.body = String.ofList (spell body) ∧
        b.argDefaults = defaults.map fun p => (p.1, Capture.argValue (spell p.2)) := by
  intro lines g
  obtain ⟨habove, hbelow⟩ := divided_append hdivided
  have hend := (laid_lex source).commentsEnd
  rw [List.flatMap_append] at htokens
  rw [← htokens] at hend
  rw [List.append_nil] at habove
  obtain ⟨first, hfirst, hreadAbove⟩ := ofTokens_groups source.toList lines habove hend []
  obtain ⟨hg, hline, hrest⟩ := hbelow
  have hdone : EndsLine g.tokens ∨ below.flatMap tokens = [] :=
    hline.imp_right fun h => by simp [h.1]
  rw [List.flatMap_cons] at htokens hend hreadAbove
  obtain ⟨b, hyields, hblock, hreadBlock⟩ :=
    ofTokens_block source.toList lines hg hdone hend.right above
  obtain ⟨last, hlast, hreadBelow⟩ := ofTokens_groups source.toList lines hrest
    (by simpa using hend.right.right) (above ++ [g])
  refine ⟨first, b, last, ?_, hfirst, hyields, hlast,
    exists_holds hg ⟨_, htokens⟩ hdone hblock⟩
  have hends : ∀ ds, Node.ofTokens source.toList lines ds [] = .ok [] := fun ds => by
    rw [Node.ofTokens]
  rw [List.append_nil, docs_other rfl, hends] at hreadBelow
  rw [htokens, List.nil_append, hreadBlock, hreadBelow] at hreadAbove
  have hall := hread.symm.trans hreadAbove
  simpa [Except.map] using hall

end TokenGroup

end CampaignMarkup
