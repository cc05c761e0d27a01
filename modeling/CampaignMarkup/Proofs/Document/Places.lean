import CampaignMarkup.Proofs.Document.Directives
import CampaignMarkup.Proofs.Token.Layout

/-! # Where nodes stand

Every node is read from a token of its own, in the order of the source, and takes its line from
where that token begins. A directive or a definition is read only from a comment with which a line
begins. A fault in the structure has the line of the comment that is at fault. -/
namespace CampaignMarkup

open Token

namespace Token

/-- The tokens are done with a line. -/
def EndsLine (ts : List Token) : Prop :=
  ∃ before t, ts = before ++ [t] ∧ t.isLineBreak

/-- A line begins behind these tokens, but for white space. -/
def BeginsLine (earlier : List Token) : Prop :=
  ∃ before gap, earlier = before ++ gap ∧ (before = [] ∨ EndsLine before) ∧
    ∀ t ∈ gap, t.isWhitespace

/-- Behind a comment comes a line break or nothing. -/
def CommentsEnd (ts : List Token) : Prop :=
  ts.IsChain fun t u => t.kind = .comment → u.isLineBreak

theorem EndsLine.append {ts : List Token} (h : EndsLine ts) (front : List Token) :
    EndsLine (front ++ ts) := by
  obtain ⟨before, t, rfl, ht⟩ := h
  exact ⟨front ++ before, t, (List.append_assoc _ _ _).symm, ht⟩

theorem CommentsEnd.right {front ts : List Token} (h : CommentsEnd (front ++ ts)) :
    CommentsEnd ts :=
  (List.isChain_append.mp h).2.1

theorem Laid.commentsEnd {offset : Nat} {text : List Char} {ts : List Token}
    (h : Laid offset text ts) : CommentsEnd ts := by
  induction h with
  | nil => exact .nil
  | @cons offset piece rest t ts hne hover hspan hrest ih =>
    refine List.isChain_cons.mpr ⟨?_, ih⟩
    intro u hu hkind
    obtain ⟨us, rfl⟩ := List.head?_eq_some_iff.mp hu
    exact (Laid.cons hne hover hspan hrest).isLineBreak_of_comment hkind

/-- Behind a comment the next line begins, if there is one. -/
theorem CommentsEnd.skipLineBreak {t : Token} {rest : List Token} (h : CommentsEnd (t :: rest))
    (hkind : t.kind = .comment) : ∃ line, t :: rest = line ++ Token.skipLineBreak rest ∧
      t ∈ line ∧ (Token.skipLineBreak rest = [] ∨ EndsLine line) := by
  cases rest with
  | nil => exact ⟨[t], rfl, List.mem_singleton_self t, .inl rfl⟩
  | cons u us =>
    have hbreak : u.isLineBreak := (List.isChain_cons_cons.mp h).1 hkind
    refine ⟨[t, u], ?_, List.mem_cons_self, .inr ⟨[t], u, rfl, hbreak⟩⟩
    simp [Token.skipLineBreak, hbreak]

theorem endsLine_splitLine (ts : List Token) :
    (splitLine ts).2 = [] ∨ EndsLine (splitLine ts).1 := by
  induction ts with
  | nil => exact .inl rfl
  | cons t ts ih =>
    rw [splitLine]
    split
    · next hbreak => exact .inr ⟨[], t, rfl, hbreak⟩
    · rcases ih with ih | ih
      · exact .inl ih
      · exact .inr (ih.append [t])

end Token

/-- The token that a node is read from. -/
inductive Node.ReadFrom (lines : LineMap) : Node → Token → Prop where
  | token {t} : t.kind ≠ .comment → t.kind ≠ .macroCall → ReadFrom lines (.token t) t
  | call {t} : t.kind = .macroCall → ReadFrom lines
      (.call (MacroCall.read t.content) t.content (lines.lineOf t.span.start)) t
  | directive {t d} : t.kind = .comment → Directive.ofComment? t.content = some d →
      ReadFrom lines (.directive d (lines.lineOf t.span.start)) t
  | define {t block} : t.kind = .comment → Directive.ofComment? t.content = some block.header →
      block.header.kind = .define → block.line = lines.lineOf t.span.start →
      ReadFrom lines (.define block) t

/-- The comment that is at fault. -/
inductive StructureError.ReadFrom (lines : LineMap) : StructureError → Token → Prop where
  | define {t d} : t.kind = .comment → Directive.ofComment? t.content = some d →
      d.kind = .define → ReadFrom lines
        (.unterminatedDefine (d.args.head?.getD "") (lines.lineOf t.span.start)) t
  | arg {t d} : t.kind = .comment → Directive.ofComment? t.content = some d → d.kind = .arg →
      d.args = [] → ReadFrom lines (.missingArgName (lines.lineOf t.span.start)) t

/-- Nodes read one after the other from tokens that come behind `earlier`. -/
inductive Node.Follow (lines : LineMap) : List Token → List Node → List Token → Prop where
  | nil {earlier ts} : Follow lines earlier [] ts
  | skip {earlier ns t ts} : Follow lines (earlier ++ [t]) ns ts → Follow lines earlier ns (t :: ts)
  | read {earlier n ns t ts} : n.ReadFrom lines t → (t.kind = .comment → BeginsLine earlier) →
      Follow lines (earlier ++ [t]) ns ts → Follow lines earlier (n :: ns) (t :: ts)

namespace Capture

/-- What reading a body comes to: a fault in one of its lines, no end, or a rest that begins a
line. -/
def Leaves (lines : LineMap) (ts : List Token) :
    Except StructureError (Option (Capture × List Token)) → Prop
  | .error e => ∃ t ∈ ts, e.ReadFrom lines t
  | .ok none => True
  | .ok (some (_, rest)) => ∃ line, ts = line ++ rest ∧ (rest = [] ∨ EndsLine line)

theorem Leaves.append {lines : LineMap} {ts : List Token}
    {result : Except StructureError (Option (Capture × List Token))} (h : Leaves lines ts result)
    (front : List Token) : Leaves lines (front ++ ts) result := by
  cases result with
  | error e =>
    obtain ⟨t, ht, he⟩ := h
    exact ⟨t, List.mem_append_right front ht, he⟩
  | ok found =>
    cases found with
    | none => trivial
    | some p =>
      obtain ⟨line, rfl, hend⟩ := h
      exact ⟨front ++ line, (List.append_assoc _ _ _).symm, hend.imp_right (·.append front)⟩

theorem turn_openArg {c : Capture} {kind : DirectiveKind} (h : c.turn kind = .openArg) :
    kind = .arg := by
  unfold turn at h
  split at h
  · split at h <;> cases h
  · split at h <;> cases h
  · rfl
  · split at h <;> cases h
  · cases h

theorem read_leaves (source : List Char) (lines : LineMap) (c : Capture) {ts : List Token}
    (hend : CommentsEnd ts) : Leaves lines ts (read source lines c ts) := by
  induction hn : ts.length using Nat.strong_induction_on generalizing c ts with
  | _ n ih =>
    cases ts with
    | nil =>
      rw [read]
      trivial
    | cons t rest =>
      rw [List.length_cons] at hn
      have hrest : CommentsEnd rest := @CommentsEnd.right [t] rest hend
      have hstep : ∀ d : Capture, Leaves lines (t :: rest) (read source lines d rest) :=
        fun d => (ih rest.length (by omega) d hrest rfl).append [t]
      by_cases hbreak : t.kind = .endOfLine
      · rw [read_endOfLine _ _ _ _ hbreak]
        exact hstep _
      by_cases hgap : t.kind = .whitespace
      · rw [read_whitespace _ _ _ _ hgap]
        exact hstep _
      by_cases hcomment : t.kind = .comment
      · cases hd : Directive.ofComment? t.content with
        | none =>
          rw [read_remark _ _ _ _ hcomment hd]
          exact hstep _
        | some d =>
          obtain ⟨line, hline, ht, hnext⟩ := hend.skipLineBreak hcomment
          have hle := skipLineBreak_length_le rest
          have hafter : CommentsEnd (skipLineBreak rest) := by
            rw [hline] at hend
            exact hend.right
          have hbehind : ∀ d : Capture,
              Leaves lines (t :: rest) (read source lines d (skipLineBreak rest)) := by
            intro d
            have hleaves := (ih _ (by omega) d hafter rfl).append line
            rwa [← hline] at hleaves
          rw [read_directive _ _ _ _ hcomment hd]
          dsimp only
          cases hturn : c.turn d.kind with
          | ignore => exact hstep _
          | nest => exact hstep _
          | leave => exact hstep _
          | finish => exact ⟨line, hline, hnext⟩
          | closeArg => exact hbehind _
          | openArg =>
            dsimp only
            cases hname : d.args.head? with
            | none =>
              have hargs : d.args = [] := List.head?_eq_none_iff.mp hname
              exact ⟨t, List.mem_cons_self, .arg hcomment hd (turn_openArg hturn) hargs⟩
            | some name => exact hbehind _
      · rw [read_other _ _ _ _ hbreak hgap hcomment]
        exact hstep _

end Capture

namespace Node

/-- What reading nodes comes to: a fault in one of the lines, or nodes that follow one another. -/
def Placed (lines : LineMap) (earlier ts : List Token) : Except StructureError (List Node) → Prop
  | .error e => ∃ t ∈ ts, e.ReadFrom lines t
  | .ok ns => Follow lines earlier ns ts

section

variable {lines : LineMap} {earlier ts : List Token} {ns : List Node}

theorem Follow.skipAll (front : List Token) (h : Follow lines (earlier ++ front) ns ts) :
    Follow lines earlier ns (front ++ ts) := by
  induction front generalizing earlier with
  | nil => simpa using h
  | cons t front ih =>
    apply Follow.skip
    apply ih
    simpa using h

theorem Placed.append {result : Except StructureError (List Node)} (front : List Token)
    (h : Placed lines (earlier ++ front) ts result) :
    Placed lines earlier (front ++ ts) result := by
  cases result with
  | error e =>
    obtain ⟨t, ht, he⟩ := h
    exact ⟨t, List.mem_append_right front ht, he⟩
  | ok ns => exact Follow.skipAll front h

theorem readFrom_ofToken? {t : Token} {n : Node} (h : ofToken? lines t = some n) :
    n.ReadFrom lines t ∧ t.kind ≠ .comment := by
  unfold ofToken? at h
  split at h
  · cases h
  · next hkind =>
    cases h
    exact ⟨.call hkind, by simp [hkind]⟩
  · next hcomment hcall =>
    cases h
    exact ⟨.token hcomment hcall, hcomment⟩

/-- A line that is no directive is read token by token. -/
theorem Follow.line (line : List Token) (h : Follow lines (earlier ++ line) ns ts) :
    Follow lines earlier (line.filterMap (ofToken? lines) ++ ns) (line ++ ts) := by
  induction line generalizing earlier with
  | nil => simpa using h
  | cons t line ih =>
    have hrest : Follow lines (earlier ++ [t]) (line.filterMap (ofToken? lines) ++ ns)
        (line ++ ts) := by
      apply ih
      simpa using h
    cases hn : ofToken? lines t with
    | none =>
      rw [List.filterMap_cons_none hn]
      exact .skip hrest
    | some n =>
      obtain ⟨hread, hno⟩ := readFrom_ofToken? hn
      rw [List.filterMap_cons_some hn]
      exact .read hread (fun hc => absurd hc hno) hrest

theorem Placed.line {result : Except StructureError (List Node)} (line : List Token)
    (h : Placed lines (earlier ++ line) ts result) :
    Placed lines earlier (line ++ ts)
      (result.map (line.filterMap (ofToken? lines) ++ ·)) := by
  cases result with
  | error e => exact Placed.append line h
  | ok ns => exact Follow.line line h

/-- A node read from the comment with which a line begins, where the line is done with it. -/
theorem Placed.comment {result : Except StructureError (List Node)} {n : Node} {t : Token}
    {gap rest after line : List Token} (hbegins : BeginsLine (earlier ++ gap))
    (hread : n.ReadFrom lines t) (hline : t :: rest = line ++ after) (hne : line ≠ [])
    (h : Placed lines (earlier ++ gap ++ line) after result) :
    Placed lines earlier (gap ++ t :: rest) (result.map (n :: ·)) := by
  cases result with
  | error e =>
    rw [hline]
    apply Placed.append gap
    exact Placed.append line h
  | ok ns =>
    obtain ⟨first, line, rfl⟩ := List.exists_cons_of_ne_nil hne
    obtain ⟨rfl, rfl⟩ := List.cons.inj hline
    apply Follow.skipAll gap
    refine .read hread (fun _ => hbegins) ?_
    apply Follow.skipAll line
    have hlines : earlier ++ gap ++ t :: line = earlier ++ gap ++ [t] ++ line := by simp
    rw [hlines] at h
    exact h

end

/-- A definition that cannot be read is at fault itself, or one of its lines is. -/
theorem block_error {source : List Char} {lines : LineMap} {d : Directive} {docs : List String}
    {t : Token} {ts : List Token} {e : StructureError} (hend : CommentsEnd ts)
    (hkind : t.kind = .comment) (hd : Directive.ofComment? t.content = some d)
    (hdefine : d.kind = .define)
    (h : Capture.block source lines d docs (lines.lineOf t.span.start) ts = .error e) :
    ∃ u ∈ t :: ts, e.ReadFrom lines u := by
  have hleaves := Capture.read_leaves source lines
    (Capture.begin (offsetOf (Chars.byteSize source) ts)) hend
  unfold Capture.block at h
  split at h
  · next hread =>
    cases h
    rw [hread] at hleaves
    obtain ⟨u, hu, hfault⟩ := hleaves
    exact ⟨u, List.mem_cons_of_mem t hu, hfault⟩
  · cases h
    exact ⟨t, List.mem_cons_self, .define hkind hd hdefine⟩
  · cases h

theorem block_ok {source : List Char} {lines : LineMap} {d : Directive} {docs : List String}
    {line : Nat} {b : DefineBlock} {ts more : List Token} (hend : CommentsEnd ts)
    (h : Capture.block source lines d docs line ts = .ok (b, more)) :
    b.header = d ∧ b.line = line ∧ ∃ body, ts = body ++ more ∧ (more = [] ∨ EndsLine body) := by
  have hleaves := Capture.read_leaves source lines
    (Capture.begin (offsetOf (Chars.byteSize source) ts)) hend
  unfold Capture.block at h
  split at h
  · cases h
  · cases h
  · next hread =>
    cases h
    rw [hread] at hleaves
    exact ⟨rfl, rfl, hleaves⟩

section

variable {source : List Char} {lines : LineMap} {earlier ts : List Token}

/-- Fewer tokens than these are read in place, wherever a line begins. -/
def PlacesBelow (source : List Char) (lines : LineMap) (n : Nat) : Prop :=
  ∀ docs earlier ts, ts.length < n → CommentsEnd ts → (ts = [] ∨ earlier = [] ∨ EndsLine earlier) →
    Placed lines earlier ts (ofTokens source lines docs ts)

theorem line_placed (docs : List String) (ih : PlacesBelow source lines ts.length)
    (hend : CommentsEnd ts) (hne : ts ≠ [])
    (hplain : ∀ t ∈ (ts.dropWhile isWhitespace).head?, t.kind ≠ .comment) :
    Placed lines earlier ts (ofTokens source lines docs ts) := by
  have hsplit := splitLine_append ts
  have hshort : (splitLine ts).2.length < ts.length := by
    obtain ⟨t, ts, rfl⟩ := List.exists_cons_of_ne_nil hne
    have := splitLine_length_le t ts
    rw [List.length_cons]
    omega
  have hrest : CommentsEnd (splitLine ts).2 := by
    rw [← hsplit] at hend
    exact hend.right
  have hbegins : (splitLine ts).2 = [] ∨ earlier ++ (splitLine ts).1 = [] ∨
      EndsLine (earlier ++ (splitLine ts).1) :=
    (endsLine_splitLine ts).imp_right fun h => .inr (h.append earlier)
  have hplaced := (ih [] _ _ hshort hrest hbegins).line
  rw [hsplit] at hplaced
  rw [ofTokens_line _ _ _ hne hplain]
  exact hplaced

/-- A line of a comment is a remark, a directive, or a definition with all its lines. -/
theorem comment_placed {gap rest : List Token} {t : Token} (docs : List String)
    (ih : PlacesBelow source lines (gap ++ t :: rest).length) (hend : CommentsEnd (t :: rest))
    (hgap : ∀ u ∈ gap, u.isWhitespace) (hkind : t.kind = .comment)
    (hbegins : earlier = [] ∨ EndsLine earlier) :
    Placed lines earlier (gap ++ t :: rest) (ofTokens source lines docs (gap ++ t :: rest)) := by
  have hfront : BeginsLine (earlier ++ gap) := ⟨earlier, gap, rfl, hbegins, hgap⟩
  have hdrop : (gap ++ t :: rest).dropWhile isWhitespace = t :: rest := by
    rw [List.dropWhile_append_of_pos hgap,
      List.dropWhile_cons_of_neg (by simp [isWhitespace, hkind])]
  obtain ⟨line, hline, ht, hnext⟩ := hend.skipLineBreak hkind
  have hle := skipLineBreak_length_le rest
  have hlength : (gap ++ t :: rest).length = gap.length + (rest.length + 1) := by simp
  have hafter : CommentsEnd (skipLineBreak rest) := by
    rw [hline] at hend
    exact hend.right
  have hbehind : ∀ docs, Placed lines (earlier ++ gap ++ line) (skipLineBreak rest)
      (ofTokens source lines docs (skipLineBreak rest)) := fun docs =>
    ih docs _ _ (by omega) hafter (hnext.imp_right fun h => .inr (h.append _))
  rw [ofTokens_comment _ _ _ hdrop hkind]
  cases hd : Directive.ofComment? t.content with
  | none =>
    rw [hline]
    apply Placed.append gap
    exact (hbehind _).append line
  | some d =>
    dsimp only
    by_cases hdefine : d.kind = .define
    · rw [if_pos hdefine]
      cases hblock : Capture.block source lines d docs (lines.lineOf t.span.start)
          (skipLineBreak rest) with
      | error e =>
        obtain ⟨u, hu, hfault⟩ := block_error hafter hkind hd hdefine hblock
        refine ⟨u, List.mem_append_right gap ?_, hfault⟩
        rcases List.mem_cons.mp hu with rfl | hu
        · exact List.mem_cons_self
        · rw [hline]
          exact List.mem_append_right line hu
      | ok read =>
        obtain ⟨block, more⟩ := read
        obtain ⟨hheader, hat, body, hbody, hover⟩ := block_ok hafter hblock
        have hshort := congrArg List.length hbody
        rw [List.length_append] at hshort
        have hlast : CommentsEnd more := by
          rw [hbody] at hafter
          exact hafter.right
        have hread : ReadFrom lines (.define block) t :=
          .define hkind (hheader ▸ hd) (hheader ▸ hdefine) hat
        have hlines : t :: rest = line ++ body ++ more := by
          rw [List.append_assoc, ← hbody, hline]
        refine Placed.comment hfront hread hlines ?_ ?_
        · simp [List.ne_nil_of_mem ht]
        · refine ih [] _ _ (by omega) hlast (hover.imp_right fun h => .inr ?_)
          exact (h.append line).append _
    · rw [if_neg hdefine]
      exact Placed.comment hfront (.directive hkind hd) hline (List.ne_nil_of_mem ht) (hbehind [])

theorem ofTokens_placed (docs : List String) (hend : CommentsEnd ts)
    (hbegins : ts = [] ∨ earlier = [] ∨ EndsLine earlier) :
    Placed lines earlier ts (ofTokens source lines docs ts) := by
  induction hn : ts.length using Nat.strong_induction_on generalizing docs earlier ts with
  | _ n ih =>
    by_cases hne : ts = []
    · subst hne
      rw [ofTokens]
      exact Follow.nil
    have hbelow : PlacesBelow source lines ts.length := fun docs earlier ts' hlen hend hbegins =>
      ih ts'.length (hn ▸ hlen) docs hend hbegins rfl
    have hgap := List.takeWhile_append_dropWhile (p := isWhitespace) (l := ts)
    cases hdrop : ts.dropWhile isWhitespace with
    | nil => exact line_placed docs hbelow hend hne (by simp [hdrop])
    | cons t rest =>
      by_cases hkind : t.kind = .comment
      · rw [hdrop] at hgap
        rw [← hgap] at hbelow hend ⊢
        exact comment_placed docs hbelow hend.right (fun u hu => List.mem_takeWhile_imp hu) hkind
          (hbegins.resolve_left hne)
      · exact line_placed docs hbelow hend hne (by simpa [hdrop] using hkind)

end

/-- The nodes before one are read from the tokens before its own. -/
theorem Follow.split {lines : LineMap} {earlier ts : List Token} {done rest : List Node} {n : Node}
    (h : Follow lines earlier (done ++ n :: rest) ts) :
    ∃ before t after, ts = before ++ t :: after ∧ Follow lines earlier done before ∧
      n.ReadFrom lines t ∧ (t.kind = .comment → BeginsLine (earlier ++ before)) := by
  generalize hns : done ++ n :: rest = ns at h
  induction h generalizing done with
  | nil => simp at hns
  | @skip earlier ns t ts _ ih =>
    obtain ⟨before, u, after, rfl, hdone, hread, hbegins⟩ := ih hns
    refine ⟨t :: before, u, after, rfl, .skip hdone, hread, ?_⟩
    simpa using hbegins
  | @read earlier m ns t ts hread hbegins hrest ih =>
    cases done with
    | nil =>
      obtain ⟨rfl, rfl⟩ := List.cons.inj hns
      refine ⟨[], t, ts, rfl, .nil, hread, ?_⟩
      simpa using hbegins
    | cons first done =>
      obtain ⟨rfl, htail⟩ := List.cons.inj hns
      obtain ⟨before, u, after, rfl, hdone, hread', hbegins'⟩ := ih htail
      refine ⟨t :: before, u, after, rfl, .read hread hbegins hdone, hread', ?_⟩
      simpa using hbegins'

theorem ofSource_placed (source : String) :
    Placed (LineMap.ofText source) [] (lex source) (ofSource source) :=
  ofTokens_placed [] (laid_lex source).commentsEnd (.inr (.inl rfl))

end Node

end CampaignMarkup
