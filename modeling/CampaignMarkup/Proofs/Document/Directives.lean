import CampaignMarkup.Document.Reader
import CampaignMarkup.Proofs.Token.Joins

/-! # The directives a reader recognises

They depend on the kinds and the lines of the tokens and on the comments that are directives, and on
nothing else. Two lists of tokens that agree on this much are read as the same directives, or with
the same error. -/
namespace CampaignMarkup

namespace Capture

/-- What a directive does to a body being captured. -/
inductive Turn where
  | ignore
  | nest
  | leave
  | finish
  | openArg
  | closeArg

def turn (c : Capture) (kind : DirectiveKind) : Turn :=
  match kind, c.openArg with
  | .define, _ => if c.atLineStart then .nest else .ignore
  | .enddef, _ => if c.depth ≤ 1 then .finish else .leave
  | .arg, none => if c.atLineStart && c.depth == 1 then .openArg else .ignore
  | .endarg, some _ => if c.depth == 1 then .closeArg else .ignore
  | _, _ => .ignore

section Equations

variable (source : List Char) (lines : LineMap) (c : Capture) {t : Token} (rest : List Token)

theorem read_endOfLine (h : t.kind = .endOfLine) :
    read source lines c (t :: rest) = read source lines (c.newLine t.span.stop) rest := by
  rw [read, h]

theorem read_whitespace (h : t.kind = .whitespace) :
    read source lines c (t :: rest) = read source lines c rest := by
  rw [read, h]

theorem read_remark (h : t.kind = .comment) (hnone : Directive.ofComment? t.content = none) :
    read source lines c (t :: rest) = read source lines c.inLine rest := by
  rw [read, h]
  simp only [hnone]

theorem read_other (h₁ : t.kind ≠ .endOfLine) (h₂ : t.kind ≠ .whitespace) (h₃ : t.kind ≠ .comment) :
    read source lines c (t :: rest) = read source lines c.inLine rest := by
  rw [read]
  cases hk : t.kind <;> first | rfl | exact absurd hk ‹_›

theorem read_directive (h : t.kind = .comment) {d : Directive}
    (hsome : Directive.ofComment? t.content = some d) :
    read source lines c (t :: rest) =
      let after := Token.skipLineBreak rest
      let offset := Token.offsetOf (Chars.byteSize source) after
      match c.turn d.kind with
      | .ignore => read source lines c.inLine rest
      | .nest => read source lines { c.inLine with depth := c.depth + 1 } rest
      | .leave => read source lines { c.inLine with depth := c.depth - 1 } rest
      | .finish => .ok (some (c.close source (c.cutAt t), after))
      | .openArg =>
        match d.args.head? with
        | none => .error (.missingArgName (lines.lineOf t.span.start))
        | some name =>
          read source lines
            { (c.takeBody source (c.cutAt t)).newLine offset with openArg := some (name, offset) }
            after
      | .closeArg =>
        read source lines { (c.close source (c.cutAt t)).newLine offset with cursor := offset }
          after := by
  rw [read, h]
  simp only [hsome]
  unfold turn
  cases hk : d.kind <;> cases ho : c.openArg <;> simp only
  all_goals split <;> rfl

end Equations

/-- Captures that have read the same directives. -/
structure Like (c c' : Capture) : Prop where
  names : c.defaults.map Prod.fst = c'.defaults.map Prod.fst
  openArg : c.openArg.map Prod.fst = c'.openArg.map Prod.fst
  atLineStart : c.atLineStart = c'.atLineStart
  depth : c.depth = c'.depth

namespace Like

variable {c c' : Capture}

theorem begins (offset offset' : Nat) : Like (begin offset) (begin offset') :=
  ⟨rfl, rfl, rfl, rfl⟩

theorem inLine (h : Like c c') : Like c.inLine c'.inLine :=
  ⟨h.names, h.openArg, rfl, h.depth⟩

theorem newLine (h : Like c c') (offset offset' : Nat) :
    Like (c.newLine offset) (c'.newLine offset') :=
  ⟨h.names, h.openArg, rfl, h.depth⟩

theorem takeBody (h : Like c c') (source source' : List Char) (cut cut' : Nat) :
    Like (c.takeBody source cut) (c'.takeBody source' cut') :=
  ⟨h.names, h.openArg, h.atLineStart, h.depth⟩

theorem close (h : Like c c') (source source' : List Char) (cut cut' : Nat) :
    Like (c.close source cut) (c'.close source' cut') := by
  have hopen := h.openArg
  unfold Capture.close
  cases hc : c.openArg with
  | none =>
    have hc' : c'.openArg = none := by simpa [hc] using hopen.symm
    rw [hc']
    exact h.takeBody source source' cut cut'
  | some p =>
    obtain ⟨q, hc', hname⟩ : ∃ q, c'.openArg = some q ∧ q.1 = p.1 := by
      simpa [hc] using hopen.symm
    rw [hc']
    refine ⟨?_, rfl, h.atLineStart, h.depth⟩
    simp [h.names, hname]

theorem turn_eq (h : Like c c') (kind : DirectiveKind) : c.turn kind = c'.turn kind := by
  have hopen := congrArg Option.isSome h.openArg
  simp only [Option.isSome_map] at hopen
  unfold turn
  rw [h.atLineStart, h.depth]
  cases hc : c.openArg with
  | none =>
    have hc' : c'.openArg = none := by simpa [hc] using hopen.symm
    rw [hc']
  | some p =>
    obtain ⟨q, hc'⟩ := Option.isSome_iff_exists.mp (by rw [← hopen, hc]; rfl)
    rw [hc']
    cases kind <;> rfl

end Like

end Capture

/-- Tokens of two texts that a reader of directives treats alike. -/
structure Token.Heeded (lines lines' : LineMap) (a b : Token) : Prop where
  kind : a.kind = b.kind
  line : lines.lineOf a.span.start = lines'.lineOf b.span.start
  directive : a.kind = .comment → Directive.ofComment? a.content = Directive.ofComment? b.content

namespace Token

variable {lines lines' : LineMap} {as bs : List Token}

theorem forall₂_skipLineBreak (h : List.Forall₂ (Heeded lines lines') as bs) :
    List.Forall₂ (Heeded lines lines') (skipLineBreak as) (skipLineBreak bs) := by
  cases h with
  | nil => exact .nil
  | cons hab hrest =>
    rw [skipLineBreak, skipLineBreak, isLineBreak, isLineBreak, hab.kind]
    split
    · exact hrest
    · exact .cons hab hrest

theorem forall₂_dropWhitespace (h : List.Forall₂ (Heeded lines lines') as bs) :
    List.Forall₂ (Heeded lines lines') (as.dropWhile isWhitespace) (bs.dropWhile isWhitespace) := by
  induction h with
  | nil => exact .nil
  | @cons a b as bs hab hrest ih =>
    have hsame : a.isWhitespace = b.isWhitespace := by rw [isWhitespace, isWhitespace, hab.kind]
    cases ha : a.isWhitespace with
    | true =>
      rw [List.dropWhile_cons_of_pos ha, List.dropWhile_cons_of_pos (hsame ▸ ha)]
      exact ih
    | false =>
      rw [List.dropWhile_cons_of_neg (by simp [ha]),
        List.dropWhile_cons_of_neg (by simp [← hsame, ha])]
      exact .cons hab hrest

theorem forall₂_splitLine (h : List.Forall₂ (Heeded lines lines') as bs) :
    List.Forall₂ (Heeded lines lines') (splitLine as).2 (splitLine bs).2 := by
  induction h with
  | nil => exact .nil
  | cons hab hrest ih =>
    rw [splitLine, splitLine, isLineBreak, isLineBreak, hab.kind]
    split
    · exact hrest
    · exact ih

end Token

namespace Capture

open Token

variable {source source' : List Char} {lines lines' : LineMap}

/-- Results of two captures: the same error, no end in either, or like captures and what follows. -/
inductive Agree (lines lines' : LineMap) :
    Except StructureError (Option (Capture × List Token)) →
      Except StructureError (Option (Capture × List Token)) → Prop where
  | error (e) : Agree lines lines' (.error e) (.error e)
  | unfinished : Agree lines lines' (.ok none) (.ok none)
  | done {c c' rest rest'} : Like c c' → List.Forall₂ (Heeded lines lines') rest rest' →
      Agree lines lines' (.ok (some (c, rest))) (.ok (some (c', rest')))

theorem read_agree {c c' : Capture} {as bs : List Token} (hc : Like c c')
    (h : List.Forall₂ (Heeded lines lines') as bs) :
    Agree lines lines' (read source lines c as) (read source' lines' c' bs) := by
  induction hn : as.length using Nat.strong_induction_on generalizing c c' as bs with
  | _ n ih =>
    cases h with
    | nil =>
      rw [read, read]
      exact .unfinished
    | @cons a b as bs hab hrest =>
      rw [List.length_cons] at hn
      have hstep : ∀ {d d' : Capture}, Like d d' →
          Agree lines lines' (read source lines d as) (read source' lines' d' bs) :=
        fun hd => ih as.length (by omega) hd hrest rfl
      by_cases hbreak : a.kind = .endOfLine
      · rw [read_endOfLine _ _ _ _ hbreak, read_endOfLine _ _ _ _ (hab.kind ▸ hbreak)]
        exact hstep (hc.newLine _ _)
      by_cases hgap : a.kind = .whitespace
      · rw [read_whitespace _ _ _ _ hgap, read_whitespace _ _ _ _ (hab.kind ▸ hgap)]
        exact hstep hc
      by_cases hcomment : a.kind = .comment
      · have hsame := hab.directive hcomment
        have hcomment' : b.kind = .comment := hab.kind ▸ hcomment
        cases hd : Directive.ofComment? a.content with
        | none =>
          rw [read_remark _ _ _ _ hcomment hd, read_remark _ _ _ _ hcomment' (hsame ▸ hd)]
          exact hstep hc.inLine
        | some d =>
          have hafter := forall₂_skipLineBreak hrest
          have hle := skipLineBreak_length_le as
          rw [read_directive _ _ _ _ hcomment hd, read_directive _ _ _ _ hcomment' (hsame ▸ hd),
            ← hc.turn_eq]
          dsimp only
          cases c.turn d.kind with
          | ignore => exact hstep hc.inLine
          | nest =>
            exact hstep ⟨hc.names, hc.openArg, rfl, congrArg (· + 1) hc.depth⟩
          | leave =>
            exact hstep ⟨hc.names, hc.openArg, rfl, congrArg (· - 1) hc.depth⟩
          | finish => exact .done (hc.close _ _ _ _) hafter
          | openArg =>
            dsimp only
            cases d.args.head? with
            | none =>
              rw [hab.line]
              exact .error _
            | some name =>
              exact ih _ (by omega) ⟨hc.names, rfl, rfl, hc.depth⟩ hafter rfl
          | closeArg =>
            have hclose := hc.close source source' (c.cutAt a) (c'.cutAt b)
            exact ih _ (by omega) ⟨hclose.names, hclose.openArg, rfl, hclose.depth⟩ hafter rfl
      · rw [read_other _ _ _ _ hbreak hgap hcomment, read_other _ _ _ _ (hab.kind ▸ hbreak)
          (hab.kind ▸ hgap) (hab.kind ▸ hcomment)]
        exact hstep hc.inLine

end Capture

namespace Node

open Token

/-- The directive of a node with its line, and the names of the `#arg` blocks of a definition. -/
def recognised : Node → Option (Directive × List String × Nat)
  | .directive d line => some (d, [], line)
  | .define b => some (b.header, b.argDefaults.map Prod.fst, b.line)
  | .token _ | .call _ _ _ => none

/-- The directives of a text in order, or what is wrong with its structure. -/
def directives (source : String) : Except StructureError (List (Directive × List String × Nat)) :=
  (ofSource source).map (List.filterMap recognised)

section Equations

variable (source : List Char) (lines : LineMap) (docs : List String) {tokens rest : List Token}
  {comment : Token}

/-- A line that begins with a comment is a directive or a remark. -/
theorem ofTokens_comment (hdrop : tokens.dropWhile isWhitespace = comment :: rest)
    (hkind : comment.kind = .comment) :
    ofTokens source lines docs tokens =
      match Directive.ofComment? comment.content with
      | none => ofTokens source lines (docs ++ [docText comment.content]) (skipLineBreak rest)
      | some d =>
        let line := lines.lineOf comment.span.start
        if d.kind = .define then
          match Capture.block source lines d docs line (skipLineBreak rest) with
          | .error e => .error e
          | .ok (b, more) => (ofTokens source lines [] more).map (.define b :: ·)
        else (ofTokens source lines [] (skipLineBreak rest)).map (.directive d line :: ·) := by
  cases tokens with
  | nil => cases hdrop
  | cons t ts =>
    rw [ofTokens]
    split
    · next heq =>
      rw [hdrop] at heq
      cases heq
      rw [if_pos hkind]
      cases Directive.ofComment? comment.content with
      | none => rfl
      | some d =>
        by_cases hdefine : d.kind = .define
        · simp only [hdefine, if_true]
          split <;> simp_all
        · simp only [hdefine, if_false]
    · next heq =>
      rw [hdrop] at heq
      cases heq

theorem ofTokens_line (hne : tokens ≠ [])
    (hdrop : ∀ t ∈ (tokens.dropWhile isWhitespace).head?, t.kind ≠ .comment) :
    ofTokens source lines docs tokens =
      (ofTokens source lines [] (splitLine tokens).2).map
        ((splitLine tokens).1.filterMap (ofToken? lines) ++ ·) := by
  cases tokens with
  | nil => exact absurd rfl hne
  | cons t ts =>
    rw [ofTokens]
    split
    · next comment rest heq =>
      rw [if_neg (hdrop comment (by rw [heq]; rfl))]
    · rfl

end Equations

theorem directives_append (nodes : List Node) (result : Except StructureError (List Node)) :
    (result.map (nodes ++ ·)).map (List.filterMap recognised) =
      (result.map (List.filterMap recognised)).map (nodes.filterMap recognised ++ ·) := by
  cases result with
  | error e => rfl
  | ok more => simp [Except.map]

theorem directives_cons (node : Node) (result : Except StructureError (List Node)) :
    (result.map (node :: ·)).map (List.filterMap recognised) =
      (result.map (List.filterMap recognised)).map ((recognised node).toList ++ ·) := by
  have hone : [node].filterMap recognised = (recognised node).toList := by
    cases hnode : recognised node <;> simp [hnode]
  rw [← hone]
  exact directives_append [node] result

theorem directives_line (lines : LineMap) (ts : List Token) :
    (ts.filterMap (ofToken? lines)).filterMap recognised = [] := by
  rw [List.filterMap_filterMap, List.filterMap_eq_nil_iff]
  intro t _
  unfold ofToken?
  split <;> rfl

/-- Like bodies make blocks that are recognised alike, or both lack their end. -/
theorem block_agree {source source' : List Char} {lines lines' : LineMap} {as bs : List Token}
    (h : List.Forall₂ (Heeded lines lines') as bs) (d : Directive) (docs docs' : List String)
    (line : Nat) :
    (∃ e, Capture.block source lines d docs line as = .error e ∧
      Capture.block source' lines' d docs' line bs = .error e) ∨
    ∃ b b' more more', Capture.block source lines d docs line as = .ok (b, more) ∧
      Capture.block source' lines' d docs' line bs = .ok (b', more') ∧
      recognised (.define b) = recognised (.define b') ∧
      List.Forall₂ (Heeded lines lines') more more' := by
  have hread : Capture.Agree lines lines'
      (Capture.read source lines (Capture.begin (offsetOf (Chars.byteSize source) as)) as)
      (Capture.read source' lines' (Capture.begin (offsetOf (Chars.byteSize source') bs)) bs) :=
    Capture.read_agree (Capture.Like.begins _ _) h
  unfold Capture.block
  generalize Capture.read source lines _ as = left at hread ⊢
  generalize Capture.read source' lines' _ bs = right at hread ⊢
  cases hread with
  | error e => exact .inl ⟨e, rfl, rfl⟩
  | unfinished => exact .inl ⟨_, rfl, rfl⟩
  | done hlike hrest =>
    refine .inr ⟨_, _, _, _, rfl, rfl, ?_, hrest⟩
    simp [recognised, hlike.names]

/-- Tokens that are heeded alike are read as the same directives. -/
theorem ofTokens_directives {source source' : List Char} {lines lines' : LineMap}
    {as bs : List Token} (h : List.Forall₂ (Heeded lines lines') as bs) (docs docs' : List String) :
    (ofTokens source lines docs as).map (List.filterMap recognised) =
      (ofTokens source' lines' docs' bs).map (List.filterMap recognised) := by
  induction hn : as.length using Nat.strong_induction_on generalizing as bs docs docs' with
  | _ n ih =>
    by_cases hne : as = []
    · subst hne
      cases h
      rw [ofTokens, ofTokens]
    have hne' : bs ≠ [] := by
      rintro rfl
      cases h
      exact hne rfl
    have hdropped := forall₂_dropWhitespace h
    have hline : (∀ t ∈ (as.dropWhile isWhitespace).head?, t.kind ≠ .comment) →
        (∀ t ∈ (bs.dropWhile isWhitespace).head?, t.kind ≠ .comment) →
        (ofTokens source lines docs as).map (List.filterMap recognised) =
          (ofTokens source' lines' docs' bs).map (List.filterMap recognised) := by
      intro has hbs
      have hshort : (splitLine as).2.length < n := by
        obtain ⟨t, ts, rfl⟩ := List.exists_cons_of_ne_nil hne
        have := splitLine_length_le t ts
        rw [List.length_cons] at hn
        omega
      rw [ofTokens_line _ _ _ hne has, ofTokens_line _ _ _ hne' hbs, directives_append,
        directives_append, directives_line, directives_line,
        ih _ hshort (forall₂_splitLine h) [] [] rfl]
    have hlength := (List.dropWhile_sublist isWhitespace (l := as)).length_le
    cases has : as.dropWhile isWhitespace with
    | nil =>
      rw [has] at hdropped
      have hbs : bs.dropWhile isWhitespace = [] := List.forall₂_nil_left_iff.mp hdropped
      exact hline (by simp [has]) (by simp [hbs])
    | cons a rest =>
      rw [has] at hdropped hlength
      obtain ⟨b, rest', hab, hrest, hbs⟩ := List.forall₂_cons_left_iff.mp hdropped
      by_cases hcomment : a.kind = .comment
      · have hcomment' : b.kind = .comment := hab.kind ▸ hcomment
        have hafter := forall₂_skipLineBreak hrest
        have hle := skipLineBreak_length_le rest
        rw [List.length_cons] at hlength
        rw [ofTokens_comment _ _ _ has hcomment, ofTokens_comment _ _ _ hbs hcomment',
          ← hab.directive hcomment]
        cases Directive.ofComment? a.content with
        | none => exact ih _ (by omega) hafter _ _ rfl
        | some d =>
          dsimp only
          by_cases hdefine : d.kind = .define
          · rw [if_pos hdefine, if_pos hdefine, hab.line]
            rcases block_agree hafter d docs docs' (lines'.lineOf b.span.start) with
              ⟨e, hleft, hright⟩ | ⟨block, block', more, more', hleft, hright, hsame, hmore⟩
            · rw [hleft, hright]
            · have hfewer := Capture.block_length_le hleft
              rw [hleft, hright]
              dsimp only
              rw [directives_cons, directives_cons, hsame, ih _ (by omega) hmore [] [] rfl]
          · rw [if_neg hdefine, if_neg hdefine, hab.line, directives_cons, directives_cons,
              ih _ (by omega) hafter [] [] rfl]
      · refine hline ?_ ?_
        · simpa [has] using hcomment
        · simpa [hbs, ← hab.kind] using hcomment

end Node

end CampaignMarkup
