import CampaignMarkup.Proofs.Document.Enclosure
import Mathlib.Data.List.DropRight

/-! # The groups that tokens fall into

A text is read group by group: a line of its own, a line that is a comment, or a definition from its
`#define` to the `#enddef` that closes it. Every token belongs to one group. Reading fails exactly
where behind such groups a definition begins that is never closed or that has an `#arg` without a
name. -/
namespace CampaignMarkup

open Token

/-- A stretch of the tokens of a text. -/
inductive TokenGroup where
  /-- A line of its own. -/
  | line (tokens : List Token)
  /-- White space, a comment, and the line break behind it if there is one. -/
  | comment (gap : List Token) (comment : Token) (ending : List Token)
  /-- From the white space before a `#define` up to the `#enddef` that closes it and the line break
  behind that. -/
  | block (gap : List Token) (header : Token) (body : List Token) (close : Token)
    (ending : List Token)

namespace TokenGroup

def tokens : TokenGroup → List Token
  | .line ts => ts
  | .comment gap t ending => gap ++ t :: ending
  | .block gap header body close ending => gap ++ header :: (body ++ close :: ending)

/-- One line break or none. -/
def Ending (ts : List Token) : Prop :=
  ts = [] ∨ ∃ t, t.isLineBreak ∧ ts = [t]

/-- What makes the tokens a group of their kind. -/
def WellFormed : TokenGroup → Prop
  | .line ts => ts ≠ [] ∧ (∀ t ∈ ts.dropLast, t.isLineBreak = false) ∧
      ∀ t ∈ (ts.dropWhile isWhitespace).head?, t.kind ≠ .comment
  | .comment gap t ending => (∀ u ∈ gap, u.isWhitespace) ∧ t.kind = .comment ∧
      (∀ d ∈ t.directive?, d.kind ≠ .define) ∧ Ending ending
  | .block gap header body close ending => (∀ t ∈ gap, t.isWhitespace) ∧
      (∃ d ∈ header.directive?, d.kind = .define) ∧ ({} : Enclosure).Stays body ∧
      (({} : Enclosure).after body).Closes close ∧ Ending ending

/-- The groups stand one behind the other and then comes the rest; each is done with its line unless
nothing comes behind it. -/
def Divided : List TokenGroup → List Token → Prop
  | [], _ => True
  | g :: gs, rest => g.WellFormed ∧ (EndsLine g.tokens ∨ gs = [] ∧ rest = []) ∧ Divided gs rest

/-- What a comment that is no directive says about a definition below it. -/
def remark? : TokenGroup → Option String
  | .comment _ t _ => if t.directive? = none then some (Node.docText t.content) else none
  | .line _ | .block _ _ _ _ _ => none

/-- The comments that stand directly below one another at the end of these groups. -/
def docs (groups : List TokenGroup) : List String :=
  (groups.rtakeWhile (·.remark?.isSome)).filterMap remark?

/-- The nodes of a group below these comments. Which text of a block its definition holds is told by
`Holds`. -/
inductive Yields (lines : LineMap) (docs : List String) : TokenGroup → List Node → Prop where
  | line {ts} : Yields lines docs (.line ts) (ts.filterMap (Node.ofToken? lines))
  | directive {gap t ending d} : t.directive? = some d →
      Yields lines docs (.comment gap t ending) [.directive d (lines.lineOf t.span.start)]
  | remark {gap t ending} : t.directive? = none → Yields lines docs (.comment gap t ending) []
  | block {gap header inside close ending d body defaults} : header.directive? = some d →
      Yields lines docs (.block gap header inside close ending)
        [.define ⟨d, body, defaults, Node.joinDocs docs, lines.lineOf header.span.start⟩]

/-- The nodes of groups that stand below these groups. -/
inductive YieldsAll (lines : LineMap) : List TokenGroup → List TokenGroup → List Node → Prop where
  | nil {above} : YieldsAll lines above [] []
  | cons {above g gs ns rest} : Yields lines (docs above) g ns →
      YieldsAll lines (above ++ [g]) gs rest → YieldsAll lines above (g :: gs) (ns ++ rest)

theorem docs_remark {g : TokenGroup} {text : String} (h : g.remark? = some text)
    (above : List TokenGroup) : docs (above ++ [g]) = docs above ++ [text] := by
  simp [docs, h]

theorem docs_other {g : TokenGroup} (h : g.remark? = none) (above : List TokenGroup) :
    docs (above ++ [g]) = [] := by
  simp [docs, h]

variable {rest : List Token}

theorem endsLine_iff {ts : List Token} : EndsLine ts ↔ ∃ t ∈ ts.getLast?, t.isLineBreak := by
  constructor
  · rintro ⟨before, t, rfl, ht⟩
    exact ⟨t, by simp, ht⟩
  · rintro ⟨t, ht, hbreak⟩
    obtain ⟨before, rfl⟩ := List.getLast?_eq_some_iff.mp ht
    exact ⟨before, t, rfl, hbreak⟩

theorem Ending.skipLineBreak_append {front ending : List Token} {t : Token} (h : Ending ending)
    (hkind : t.kind = .comment) (hline : EndsLine (front ++ t :: ending) ∨ rest = []) :
    skipLineBreak (ending ++ rest) = rest := by
  rcases h with rfl | ⟨u, hu, rfl⟩
  · have hno : ¬ EndsLine (front ++ [t]) := by
      simp [endsLine_iff, isLineBreak, hkind]
    rw [hline.resolve_left hno]
    rfl
  · simp [skipLineBreak, hu]

theorem splitLine_line {ts : List Token} (hinner : ∀ t ∈ ts.dropLast, t.isLineBreak = false)
    (hline : EndsLine ts ∨ rest = []) : splitLine (ts ++ rest) = (ts, rest) := by
  rw [endsLine_iff] at hline
  induction ts with
  | nil =>
    obtain rfl : rest = [] := hline.resolve_left (by simp)
    rfl
  | cons t ts ih =>
    cases ts with
    | nil =>
      cases hbreak : t.isLineBreak with
      | true => simp [splitLine, hbreak]
      | false =>
        obtain rfl : rest = [] := hline.resolve_left (by simp [hbreak])
        simp [splitLine, hbreak]
    | cons u us =>
      rw [List.dropLast_cons_cons] at hinner
      obtain ⟨ht, hinner⟩ := List.forall_mem_cons.mp hinner
      rw [List.getLast?_cons_cons] at hline
      rw [List.cons_append, splitLine, ih hinner hline, if_neg (by simp [ht])]

/-- A line tells by itself whether it begins with a comment. -/
theorem head?_dropWhitespace {ts : List Token} (hline : EndsLine ts ∨ rest = [])
    (h : ∀ t ∈ (ts.dropWhile isWhitespace).head?, t.kind ≠ .comment) :
    ∀ t ∈ ((ts ++ rest).dropWhile isWhitespace).head?, t.kind ≠ .comment := by
  rcases hline with ⟨before, u, rfl, hu⟩ | rfl
  · have hne : (before ++ [u]).dropWhile isWhitespace ≠ [] := by
      intro hnil
      have hgap := List.dropWhile_eq_nil_iff.mp hnil u (by simp)
      have hkind : u.kind = .endOfLine := by simpa [isLineBreak] using hu
      simp [isWhitespace, hkind] at hgap
    rw [List.dropWhile_append, if_neg (by simpa using hne), List.head?_append_of_ne_nil _ hne]
    exact h
  · rwa [List.append_nil]

theorem dropWhitespace_gap {gap : List Token} {t : Token} (hgap : ∀ u ∈ gap, u.isWhitespace)
    (hkind : t.kind = .comment) (ts : List Token) :
    (gap ++ t :: ts).dropWhile isWhitespace = t :: ts := by
  rw [List.dropWhile_append_of_pos hgap,
    List.dropWhile_cons_of_neg (by simp [isWhitespace, hkind])]

variable (source : List Char) (lines : LineMap)

/-- A definition is read from its block, and then what comes behind it. -/
theorem ofTokens_block {gap inside ending : List Token} {header close : Token}
    (hg : (block gap header inside close ending).WellFormed)
    (hline : EndsLine (block gap header inside close ending).tokens ∨ rest = [])
    (hend : CommentsEnd ((block gap header inside close ending).tokens ++ rest))
    (above : List TokenGroup) :
    ∃ b, Yields lines (docs above) (block gap header inside close ending) [.define b] ∧
      Capture.block source lines b.header (docs above) b.line
        (skipLineBreak (inside ++ close :: (ending ++ rest))) = .ok (b, rest) ∧
      Node.ofTokens source lines (docs above)
          ((block gap header inside close ending).tokens ++ rest) =
        (Node.ofTokens source lines [] rest).map (.define b :: ·) := by
  obtain ⟨hgap, ⟨d, hd, hdefine⟩, hstays, hcloses, hending⟩ := hg
  obtain ⟨hkind, hsome⟩ := directive?_eq_some.mp hd
  have hclose : close.kind = .comment := by
    obtain ⟨-, closing, hclosing, -⟩ := hcloses
    exact (directive?_eq_some.mp hclosing).1
  have hlast : EndsLine (gap ++ header :: inside ++ close :: ending) ∨ rest = [] := by
    simpa [tokens] using hline
  have hskip := hending.skipLineBreak_append hclose hlast
  have htokens : (block gap header inside close ending).tokens ++ rest =
      gap ++ header :: (inside ++ close :: (ending ++ rest)) := by
    simp [tokens]
  rw [htokens] at hend ⊢
  obtain ⟨body, defaults, hblock⟩ := Capture.block_of_closes source lines d (docs above)
    (lines.lineOf header.span.start) hend.right hkind hstays hcloses
  rw [hskip] at hblock
  refine ⟨_, .block hd, hblock, ?_⟩
  rw [Node.ofTokens_comment source lines (docs above) (dropWhitespace_gap hgap hkind _) hkind,
    hsome]
  simp only [hdefine, if_true, hblock]

/-- The first group of a text gives its nodes, and then the others are read. -/
theorem ofTokens_group {g : TokenGroup} (hg : g.WellFormed) (hline : EndsLine g.tokens ∨ rest = [])
    (hend : CommentsEnd (g.tokens ++ rest)) (above : List TokenGroup) :
    ∃ ns, Yields lines (docs above) g ns ∧
      Node.ofTokens source lines (docs above) (g.tokens ++ rest) =
        (Node.ofTokens source lines (docs (above ++ [g])) rest).map (ns ++ ·) := by
  cases g with
  | line ts =>
    obtain ⟨hne, hinner, hplain⟩ := hg
    refine ⟨_, .line, ?_⟩
    rw [tokens] at hline ⊢
    rw [Node.ofTokens_line _ _ _ (by simp [hne]) (head?_dropWhitespace hline hplain),
      splitLine_line hinner hline, docs_other rfl]
  | comment gap t ending =>
    obtain ⟨hgap, hkind, hdefine, hending⟩ := hg
    have hskip := hending.skipLineBreak_append hkind hline
    have hread := Node.ofTokens_comment source lines (docs above)
      (dropWhitespace_gap hgap hkind (ending ++ rest)) hkind
    rw [hskip] at hread
    rw [tokens, List.append_assoc, List.cons_append, hread]
    have hdirective : t.directive? = Directive.ofComment? t.content := if_pos hkind
    cases hd : Directive.ofComment? t.content with
    | none =>
      refine ⟨[], .remark (hdirective.trans hd), ?_⟩
      have hremark : (comment gap t ending).remark? = some (Node.docText t.content) :=
        if_pos (hdirective.trans hd)
      rw [docs_remark hremark]
      cases Node.ofTokens source lines _ rest <;> rfl
    | some d =>
      have hother : ¬ d.kind = .define := hdefine d (hdirective.trans hd)
      refine ⟨_, .directive (hdirective.trans hd), ?_⟩
      have hremark : (comment gap t ending).remark? = none := if_neg (by simp [hdirective, hd])
      rw [docs_other hremark]
      simp only [hother, if_false]
      rfl
  | block gap header body close ending =>
    obtain ⟨b, hyields, -, hread⟩ := ofTokens_block source lines hg hline hend above
    refine ⟨_, hyields, ?_⟩
    rw [hread, docs_other rfl]
    rfl

/-- Groups give their nodes one after the other. -/
theorem ofTokens_groups {groups : List TokenGroup} (hdivided : Divided groups rest)
    (hend : CommentsEnd (groups.flatMap tokens ++ rest)) (above : List TokenGroup) :
    ∃ ns, YieldsAll lines above groups ns ∧
      Node.ofTokens source lines (docs above) (groups.flatMap tokens ++ rest) =
        (Node.ofTokens source lines (docs (above ++ groups)) rest).map (ns ++ ·) := by
  induction groups generalizing above with
  | nil =>
    refine ⟨[], .nil, ?_⟩
    rw [List.append_nil]
    change Node.ofTokens source lines (docs above) rest = _
    cases Node.ofTokens source lines (docs above) rest <;> rfl
  | cons g gs ih =>
    obtain ⟨hg, hline, hrest⟩ := hdivided
    rw [List.flatMap_cons, List.append_assoc] at hend ⊢
    have hdone : EndsLine g.tokens ∨ gs.flatMap tokens ++ rest = [] :=
      hline.imp_right fun h => by simp [h.1, h.2]
    obtain ⟨ns, hns, hread⟩ := ofTokens_group source lines hg hdone hend above
    obtain ⟨more, hmore, hothers⟩ := ih hrest hend.right (above ++ [g])
    refine ⟨ns ++ more, .cons hns hmore, ?_⟩
    rw [hread, hothers, List.append_assoc, List.singleton_append]
    cases Node.ofTokens source lines _ rest with
    | error e => rfl
    | ok last => simp [Except.map]

end TokenGroup

/-- Tokens that begin with a definition at which reading fails, and the failure. -/
inductive Stuck (lines : LineMap) : List Token → StructureError → Prop where
  | unterminated {gap header inside d} : (∀ t ∈ gap, t.isWhitespace) → header.directive? = some d →
      d.kind = .define → ({} : Enclosure).Stays inside →
      Stuck lines (gap ++ header :: inside)
        (.unterminatedDefine (d.args.head?.getD "") (lines.lineOf header.span.start))
  | nameless {gap header front arg back d} : (∀ t ∈ gap, t.isWhitespace) →
      header.directive? = some d → d.kind = .define → ({} : Enclosure).Stays front →
      (({} : Enclosure).after front).Faults arg →
      Stuck lines (gap ++ header :: (front ++ arg :: back))
        (.missingArgName (lines.lineOf arg.span.start))

namespace TokenGroup

/-- The tokens fall into groups up to their end or to a definition at which reading fails. -/
def Divisible (lines : LineMap) (ts : List Token) : Prop :=
  ∃ groups rest, ts = groups.flatMap tokens ++ rest ∧ Divided groups rest ∧
    (rest = [] ∨ ∃ e, Stuck lines rest e)

variable {lines : LineMap} {gap rest : List Token} {t : Token}

theorem Divisible.cons {g : TokenGroup} (hg : g.WellFormed) (hline : EndsLine g.tokens ∨ rest = [])
    (h : Divisible lines rest) : Divisible lines (g.tokens ++ rest) := by
  rcases hline with hline | rfl
  · obtain ⟨groups, last, rfl, hdivided, hlast⟩ := h
    exact ⟨g :: groups, last, by simp, ⟨hg, .inl hline, hdivided⟩, hlast⟩
  · exact ⟨[g], [], by simp, ⟨hg, .inr ⟨rfl, rfl⟩, trivial⟩, .inl rfl⟩

variable {source : String} {groups : List TokenGroup} {rest : List Token}

end TokenGroup

end CampaignMarkup
