import CampaignMarkup.Proofs.Document.Gathering
import CampaignMarkup.Proofs.Text.Words

/-! # Stretches of a definition

Between the lines of its outer level a definition consists of stretches: pieces that open and close
nothing of that level, up to where the text in front of a directive is cut. From the start of any
line a stretch is gathered as it was, and it falls into the same pieces in front of every directive
and every line break. So stretches can be put together anew. -/
namespace CampaignMarkup

open Token Lexeme

namespace Lexeme

/-- The pieces of a line feed. -/
def lineFeed : Lexeme :=
  ⟨.endOfLine, ['\n']⟩

theorem lineFeed_pieceBefore (rest : List Char) : lineFeed.PieceBefore rest :=
  .form (.lineBreak rfl (fun h => absurd h (by decide))) rfl

theorem firstKind_hash {rest : List Char} (h : rest.head? = some '#') :
    firstKind rest = some .comment := by
  obtain ⟨cs, rfl⟩ := List.head?_eq_some_iff.mp h
  rw [firstKind, scan]
  rfl

theorem firstKind_lineFeed {rest : List Char} (h : rest.head? = some '\n') :
    firstKind rest = some .endOfLine := by
  obtain ⟨cs, rfl⟩ := List.head?_eq_some_iff.mp h
  rw [firstKind, scan]
  rfl

/-- What can stand in front of a text can do so in front of every text that begins like it. -/
theorem PieceBefore.of_head {x : Lexeme} {rest rest' : List Char} (h : x.PieceBefore rest)
    (hne : rest ≠ []) (hhead : rest'.head? = rest.head?)
    (hkind : firstKind rest' = firstKind rest) : x.PieceBefore rest' := by
  cases h with
  | form hcut htext => exact .form (hcut.of_head hne hhead) htext
  | word hw hstop hangle => exact .word hw (hkind ▸ hstop) (hhead ▸ hangle)

/-- A piece in front of a directive could as well stand in front of a line feed. -/
theorem PieceBefore.of_hash {x : Lexeme} {rest rest' : List Char} (h : x.PieceBefore rest)
    (hrest : rest.head? = some '#') (hfeeds : '\r' ∉ x.chars) (hrest' : rest'.head? = some '\n') :
    x.PieceBefore rest' := by
  cases h with
  | word hw _ _ =>
    refine .word hw ?_ ?_
    · rw [firstKind_lineFeed hrest']
      decide
    · simp [hrest']
  | form hcut htext =>
    refine .form ?_ htext
    cases hcut with
    | comment hbody _ => exact .comment hbody (by simp [hrest', Text.isLineBreak])
    | returnAndFeed => exact .returnAndFeed
    | @lineBreak c _ hc _ =>
      refine .lineBreak hc ?_
      rintro rfl
      exact absurd List.mem_cons_self hfeeds
    | whitespace hne hgap _ =>
      refine .whitespace hne hgap ?_
      rw [hrest']
      rintro c ⟨⟩
      decide
    | quoted _ => exact .quoted (by rw [hrest']; decide)
    | rawQuoted hcontent => exact .rawQuoted hcontent
    | macroCall hcontent => exact .macroCall hcontent
    | loneAngle _ => cases htext
    | text => cases htext
    | openQuoted => cases hrest
    | openRawQuoted => cases hrest
    | openMacroCall => cases hrest

theorem Pieces.cons_inv {x : Lexeme} {rest : List Char} {xs : List Lexeme}
    (h : Pieces (x.chars ++ rest) (x :: xs)) : x.PieceBefore rest ∧ Pieces rest xs := by
  generalize htext : x.chars ++ rest = text at h
  cases h with
  | cons hx hrest =>
    rw [List.append_cancel_left htext]
    exact ⟨hx, hrest⟩

/-- Pieces keep their places in front of another text if the last of them does. -/
theorem Pieces.rejoin {ws xs xs' : List Lexeme} {rest rest' : List Char}
    (h : Pieces (spell ws ++ rest) (ws ++ xs)) (h' : Pieces rest' xs')
    (hlast : ∀ x ∈ ws.getLast?, x.PieceBefore rest → x.PieceBefore rest') :
    Pieces (spell ws ++ rest') (ws ++ xs') := by
  induction ws with
  | nil => exact h'
  | cons x ws ih =>
    rw [spell_cons, List.append_assoc] at h ⊢
    obtain ⟨hx, hws⟩ := h.cons_inv
    cases ws with
    | nil => exact .cons (hlast x rfl hx) h'
    | cons y ws =>
      have hrest := ih hws (fun z hz => hlast z (by rwa [List.getLast?_cons_cons]))
      have hy : y.chars ≠ [] := by
        rw [spell_cons, List.append_assoc] at hws
        exact hws.cons_inv.1.ne_nil
      refine .cons (hx.of_head ?_ ?_ ?_) hrest
      · simp [hy]
      · rw [spell_cons, List.append_assoc, List.append_assoc, List.head?_append_of_ne_nil _ hy,
          List.head?_append_of_ne_nil _ hy]
      · rw [hws.firstKind_eq, hrest.firstKind_eq]
        rfl

end Lexeme

namespace Enclosure

theorem atLineStart_step (n : Enclosure) (t : Token) :
    (n.step t).atLineStart = (t.isLineBreak || t.isWhitespace && n.atLineStart) := by
  by_cases hbreak : t.kind = .endOfLine
  · simp [n.step_break hbreak, isLineBreak, hbreak]
  by_cases hgap : t.kind = .whitespace
  · simp [n.step_gap hgap, isLineBreak, isWhitespace, hgap]
  have hno : (t.isLineBreak || t.isWhitespace && n.atLineStart) = false := by
    simp [isLineBreak, isWhitespace, hbreak, hgap]
  rw [hno]
  cases hd : t.directive? with
  | none => rw [n.step_plain hbreak hgap hd]
  | some d =>
    rw [n.step_directive hd]
    cases d.kind <;> dsimp only <;> split <;> rfl

/-- How far pieces are nested. -/
def through (n : Enclosure) (xs : List Lexeme) : Enclosure :=
  xs.foldl (fun n x => n.step x.token) n

@[simp] theorem through_nil (n : Enclosure) : n.through [] = n := rfl

@[simp] theorem through_cons (n : Enclosure) (x : Lexeme) (xs : List Lexeme) :
    n.through (x :: xs) = (n.step x.token).through xs := rfl

@[simp] theorem through_append (n : Enclosure) (xs ys : List Lexeme) :
    n.through (xs ++ ys) = (n.through xs).through ys :=
  List.foldl_append

/-- The pieces open and close nothing of the outer level. -/
def Rests (n : Enclosure) : List Lexeme → Prop
  | [] => True
  | x :: xs => (n.step x.token).depth ≠ 0 ∧ (n.step x.token).inArg = n.inArg ∧
      (n.step x.token).Rests xs

theorem rests_append {n : Enclosure} {xs ys : List Lexeme} :
    n.Rests (xs ++ ys) ↔ n.Rests xs ∧ (n.through xs).Rests ys := by
  induction xs generalizing n with
  | nil => simp [Rests]
  | cons x xs ih =>
    simp only [List.cons_append, Rests, ih, through_cons, and_assoc]

theorem Rests.inArg {n : Enclosure} {xs : List Lexeme} (h : n.Rests xs) :
    (n.through xs).inArg = n.inArg := by
  induction xs generalizing n with
  | nil => rfl
  | cons x xs ih =>
    obtain ⟨-, harg, hrest⟩ := h
    exact (ih hrest).trans harg

theorem Rests.depth_ne {n : Enclosure} {xs : List Lexeme} (h : n.Rests xs) (hn : n.depth ≠ 0) :
    (n.through xs).depth ≠ 0 := by
  induction xs generalizing n with
  | nil => exact hn
  | cons x xs ih =>
    obtain ⟨hdepth, -, hrest⟩ := h
    exact ih hrest hdepth

/-- The start of a line of the outer level. -/
def outer (inArg : Bool) : Enclosure :=
  { atLineStart := true, inArg }

section Behind

variable {n : Enclosure} {t : Token} {d : Directive}

theorem behind_arg (h : t.directive? = some d) (hkind : d.kind = .arg) (hstart : n.atLineStart)
    (hone : n.depth = 1) : { n.step t with atLineStart := true } = outer true := by
  rw [n.step_directive h]
  simp [hkind, hstart, hone, outer]

theorem behind_endarg (h : t.directive? = some d) (hkind : d.kind = .endarg) (hone : n.depth = 1) :
    { n.step t with atLineStart := true } = outer false := by
  rw [n.step_directive h]
  simp [hkind, hone, outer]

end Behind

end Enclosure

namespace Gathering

/-- Pieces that open and close nothing are held, one after the other. -/
theorem gather_rests {g : Gathering} {ws : List Lexeme} (h : g.level.Rests ws) (xs : List Lexeme) :
    gather g (ws ++ xs) =
      gather { g with held := g.held ++ ws, level := g.level.through ws } xs := by
  induction ws generalizing g with
  | nil => simp
  | cons x ws ih =>
    obtain ⟨hdepth, harg, hrest⟩ := h
    rw [List.cons_append, gather_hold hdepth harg, ih hrest]
    simp [hold]

end Gathering

open Enclosure

namespace Lexeme

/-- The pieces end with a line, or there are none. -/
def Lined (ws : List Lexeme) : Prop :=
  ws = [] ∨ ws.getLast? = some lineFeed

theorem lined_append {ws vs : List Lexeme} (h : Lined ws) : Lined (ws ++ vs) ↔ Lined vs := by
  by_cases hvs : vs = []
  · subst hvs
    rw [List.append_nil]
    exact ⟨fun _ => .inl rfl, fun _ => h⟩
  · simp [Lined, hvs]

/-- A stretch of a definition, in an `#arg` block or not. -/
structure Stretch (inArg : Bool) (ws : List Lexeme) : Prop where
  rests : (outer inArg).Rests ws
  depth : ((outer inArg).through ws).depth = 1
  lined : ((outer inArg).through ws).atLineStart → Lined ws
  feeds : ∀ c ∈ spell ws, Text.isLineBreak c → c = '\n'
  stands : ∀ rest zs, Pieces rest zs → Lined ws ∨ rest.head? = some '#' ∨ rest.head? = some '\n' →
    Pieces (spell ws ++ rest) (ws ++ zs)

namespace Stretch

variable {inArg : Bool} {ws vs : List Lexeme}

theorem nil (inArg : Bool) : Stretch inArg [] where
  rests := trivial
  depth := rfl
  lined _ := .inl rfl
  feeds := nofun
  stands _ _ h _ := h

theorem atLineStart_iff (h : Stretch inArg ws) :
    ((outer inArg).through ws).atLineStart ↔ Lined ws := by
  refine ⟨h.lined, ?_⟩
  rintro (rfl | hlast)
  · rfl
  · obtain ⟨front, rfl⟩ := List.getLast?_eq_some_iff.mp hlast
    rw [through_append, through_cons, through_nil, atLineStart_step]
    rfl

/-- Behind a stretch that ends with its line the definition goes on as before it. -/
theorem through_eq (h : Stretch inArg ws) (hlined : Lined ws) :
    (outer inArg).through ws = outer inArg := by
  have hstart := h.atLineStart_iff.mpr hlined
  have hdepth := h.depth
  have harg := h.rests.inArg
  generalize (outer inArg).through ws = n at hstart hdepth harg
  obtain ⟨depth, atLineStart, inArg'⟩ := n
  simp_all [outer]

theorem append (h : Stretch inArg ws) (hlined : Lined ws) (h' : Stretch inArg vs) :
    Stretch inArg (ws ++ vs) := by
  have heq := h.through_eq hlined
  constructor
  case rests =>
    refine rests_append.mpr ⟨h.rests, ?_⟩
    rw [heq]
    exact h'.rests
  case depth =>
    rw [through_append, heq]
    exact h'.depth
  case lined =>
    rw [through_append, heq]
    intro hstart
    exact (lined_append hlined).mpr (h'.lined hstart)
  case feeds =>
    rw [spell_append]
    exact List.forall_mem_append.mpr ⟨h.feeds, h'.feeds⟩
  case stands =>
    intro rest zs hrest hcond
    rw [lined_append hlined] at hcond
    have hfirst := h'.stands rest zs hrest hcond
    rw [spell_append, List.append_assoc, List.append_assoc]
    exact h.stands _ _ hfirst (.inl hlined)

end Stretch

end Lexeme

namespace Lexeme

theorem PieceBefore.eq_lineFeed {x : Lexeme} {rest : List Char} (h : x.PieceBefore rest)
    (hkind : x.token.kind = .endOfLine) (hfeeds : ∀ c ∈ x.chars, Text.isLineBreak c → c = '\n') :
    x = lineFeed := by
  have hshape := kind_eq_endOfLine.mp hkind
  cases h with
  | word => simp [token, ofLexeme] at hkind
  | form hcut _ =>
    cases hcut with
    | returnAndFeed => exact absurd (hfeeds '\r' List.mem_cons_self rfl) (by decide)
    | @lineBreak c _ hc _ =>
      rw [hfeeds c List.mem_cons_self hc]
      rfl
    | _ => cases hshape

theorem PieceBefore.head?_comment {x : Lexeme} {rest : List Char} (h : x.PieceBefore rest)
    (hkind : x.token.kind = .comment) (more : List Char) : (x.chars ++ more).head? = some '#' := by
  cases h with
  | word => simp [token, ofLexeme] at hkind
  | form hcut _ =>
    cases hcut with
    | comment => rfl
    | _ => cases hkind

end Lexeme

namespace Gathering

/-- What is held has opened and closed nothing since the last directive of the outer level. -/
structure Resting (g : Gathering) : Prop where
  rests : (outer g.arg.isSome).Rests g.held
  level : g.level = (outer g.arg.isSome).through g.held

theorem close_of_none {g : Gathering} (h : g.arg = none) :
    g.close = { g with body := g.body ++ g.taken } := by
  rw [close, h]

theorem close_of_some {g : Gathering} {name : String} (h : g.arg = some name) :
    g.close = { g with defaults := g.defaults ++ [(name, g.taken)], arg := none } := by
  rw [close, h]

namespace Resting

variable {g : Gathering} {x : Lexeme}

theorem depth_ne (h : Resting g) : g.level.depth ≠ 0 := by
  rw [h.level]
  exact h.rests.depth_ne Nat.one_ne_zero

theorem inArg_eq (h : Resting g) : g.level.inArg = g.arg.isSome := by
  rw [h.level]
  exact h.rests.inArg

theorem hold (h : Resting g) (hdepth : (g.level.step x.token).depth ≠ 0)
    (harg : (g.level.step x.token).inArg = g.level.inArg) : Resting (g.hold x) := by
  constructor
  · refine rests_append.mpr ⟨h.rests, ?_⟩
    rw [Gathering.hold, ← h.level]
    exact ⟨hdepth, harg, trivial⟩
  · change g.level.step x.token = (outer g.arg.isSome).through (g.held ++ [x])
    rw [through_append, ← h.level]
    rfl

theorem renew {arg : Option String} {level : Enclosure}
    (h : { level with atLineStart := true } = outer arg.isSome) : Resting (g.renew level arg) :=
  ⟨trivial, h⟩

end Resting

/-- What is gathered consists of stretches, and what is held is on the way to be one. -/
structure Sound (g : Gathering) (xs : List Lexeme) : Prop where
  resting : Resting g
  pieces : Pieces (spell (g.held ++ xs)) (g.held ++ xs)
  feeds : ∀ c ∈ spell (g.held ++ xs), Text.isLineBreak c → c = '\n'
  arg : ∀ name ∈ g.arg, Chars.Unbroken name.toList
  body : Stretch false g.body
  bodyLined : Lined g.body
  defaults : ∀ p ∈ g.defaults, Chars.Unbroken p.1.toList ∧ Stretch true p.2

theorem through_spaces {gap : List Lexeme} (h : ∀ x ∈ gap, x.isSpace) (n : Enclosure) :
    n.through gap = n := by
  induction gap with
  | nil => rfl
  | cons x gap ih =>
    obtain ⟨hx, hgap⟩ := List.forall_mem_cons.mp h
    rw [through_cons, n.step_gap (kind_eq_whitespace.mpr hx)]
    exact ih hgap

namespace Sound

variable {g : Gathering} {x : Lexeme} {xs : List Lexeme}

theorem through_taken (h : Sound g xs) : (outer g.arg.isSome).through g.taken = g.level := by
  obtain ⟨gap, hheld, hgap⟩ := g.exists_taken
  rw [h.resting.level, hheld, through_append, through_spaces hgap]

theorem feeds_of_mem (h : Sound g xs) (hx : x ∈ g.held) :
    ∀ c ∈ x.chars, Text.isLineBreak c → c = '\n' :=
  fun c hc => h.feeds c (List.mem_flatMap.mpr ⟨x, List.mem_append_left xs hx, hc⟩)

/-- At the start of a line what is taken ends with the line before. -/
theorem lined_taken (h : Sound g xs) (hstart : g.level.atLineStart) : Lined g.taken := by
  by_cases hnil : g.taken = []
  · exact .inl hnil
  obtain ⟨front, y, hy⟩ := List.eq_nil_or_concat' g.taken |>.resolve_left hnil
  have hspace : ¬ y.isSpace := by
    have htaken : g.taken = g.held.rdropWhile isSpace := if_pos hstart
    have hlast := List.rdropWhile_last_not isSpace g.held (htaken ▸ hnil)
    simpa [← htaken, hy] using hlast
  have hmem : y ∈ g.held := by
    obtain ⟨gap, hheld, -⟩ := g.exists_taken
    rw [hheld, hy]
    simp
  have hbreak : y.token.kind = .endOfLine := by
    have hthrough := h.through_taken
    rw [hy, through_append, through_cons, through_nil] at hthrough
    rw [← hthrough, atLineStart_step] at hstart
    have hno : y.token.isWhitespace = false := by
      simpa [isWhitespace, kind_eq_whitespace] using hspace
    simpa [hno, isLineBreak] using hstart
  obtain ⟨rest, hpiece⟩ := h.pieces.exists_pieceBefore y (List.mem_append_left xs hmem)
  rw [hpiece.eq_lineFeed hbreak (h.feeds_of_mem hmem)] at hy
  exact .inr (by simp [hy])

/-- In front of a directive of the outer level, what is taken is a stretch. -/
theorem stretch (h : Sound g (x :: xs)) (hkind : x.token.kind = .comment)
    (hdepth : g.level.depth = 1) : Stretch g.arg.isSome g.taken := by
  obtain ⟨gap, hheld, hgap⟩ := g.exists_taken
  have hpieces := h.pieces
  rw [hheld, List.append_assoc, spell_append] at hpieces
  constructor
  case rests =>
    have hrests := h.resting.rests
    rw [hheld] at hrests
    exact (rests_append.mp hrests).1
  case depth => rw [h.through_taken, hdepth]
  case lined =>
    rw [h.through_taken]
    exact h.lined_taken
  case feeds =>
    intro c hc
    apply h.feeds c
    rw [hheld, spell_append, spell_append]
    simp [hc]
  case stands =>
    intro rest zs hrest hcond
    refine hpieces.rejoin hrest ?_
    intro y hy hbefore
    by_cases hlined : Lined g.taken
    · rcases hlined with hnil | hlast
      · simp [hnil] at hy
      · obtain rfl : lineFeed = y := Option.some.inj (hlast.symm.trans hy)
        exact lineFeed_pieceBefore rest
    · -- the line goes on, so that the directive comes at once
      have htaken : g.taken = g.held := if_neg fun hstart => hlined (h.lined_taken hstart)
      obtain rfl : gap = [] := by simpa [htaken] using hheld
      obtain ⟨more, hx⟩ := h.pieces.exists_pieceBefore x (by simp)
      have hhash : (spell (x :: xs)).head? = some '#' := hx.head?_comment hkind _
      have hmem : y ∈ g.held := htaken ▸ List.mem_of_getLast? hy
      rw [List.nil_append] at hbefore
      rcases hcond.resolve_left hlined with hrest' | hrest'
      · refine hbefore.of_head ?_ (hrest'.trans hhash.symm) ?_
        · rintro hnil
          simp [hnil] at hhash
        · rw [firstKind_hash hrest', firstKind_hash hhash]
      · refine hbefore.of_hash hhash ?_ hrest'
        exact fun hreturn => absurd (h.feeds_of_mem hmem '\r' hreturn rfl) (by decide)

theorem hold (h : Sound g (x :: xs)) (hdepth : (g.level.step x.token).depth ≠ 0)
    (harg : (g.level.step x.token).inArg = g.level.inArg) : Sound (g.hold x) xs := by
  have hheld : (g.hold x).held ++ xs = g.held ++ x :: xs := by simp [Gathering.hold]
  constructor
  case pieces => exact hheld ▸ h.pieces
  case feeds => exact hheld ▸ h.feeds
  case resting => exact h.resting.hold hdepth harg
  case arg => exact h.arg
  case body => exact h.body
  case bodyLined => exact h.bodyLined
  case defaults => exact h.defaults

theorem pieces_behindBreak (h : Sound g (x :: xs)) :
    Pieces (spell (behindBreak xs)) (behindBreak xs) ∧
      ∀ c ∈ spell (behindBreak xs), Text.isLineBreak c → c = '\n' := by
  have hsuffix : behindBreak xs <:+ g.held ++ x :: xs :=
    (behindBreak_suffix xs).trans ((List.suffix_cons x xs).trans (List.suffix_append _ _))
  refine ⟨h.pieces.suffix hsuffix, ?_⟩
  obtain ⟨front, hfront⟩ := hsuffix
  intro c hc
  apply h.feeds c
  rw [← hfront, spell_append]
  exact List.mem_append_right _ hc

/-- What is closed is made of stretches, and the body ends with its line if what is taken does. -/
theorem close (h : Sound g xs) (hstretch : Stretch g.arg.isSome g.taken) :
    Stretch false g.close.body ∧ (g.arg.isSome ∨ Lined g.taken → Lined g.close.body) ∧
      ∀ p ∈ g.close.defaults, Chars.Unbroken p.1.toList ∧ Stretch true p.2 := by
  unfold Gathering.close
  cases harg : g.arg with
  | none =>
    rw [harg] at hstretch
    refine ⟨h.body.append h.bodyLined hstretch, ?_, h.defaults⟩
    intro hlined
    exact (lined_append h.bodyLined).mpr (hlined.resolve_left (by simp))
  | some name =>
    rw [harg] at hstretch
    refine ⟨h.body, fun _ => h.bodyLined, ?_⟩
    simp only [List.forall_mem_append, List.forall_mem_singleton]
    exact ⟨h.defaults, h.arg name harg, hstretch⟩

/-- Behind a line that closes what is held nothing is held yet. -/
theorem renew (h : Sound g (x :: xs)) (hstretch : Stretch g.arg.isSome g.taken)
    (hlined : g.arg.isSome ∨ Lined g.taken) {arg : Option String} {level : Enclosure}
    (harg : ∀ name ∈ arg, Chars.Unbroken name.toList)
    (hlevel : { level with atLineStart := true } = outer arg.isSome) :
    Sound (g.close.renew level arg) (behindBreak xs) := by
  obtain ⟨hbody, hline, hdefaults⟩ := h.close hstretch
  obtain ⟨hpieces, hfeeds⟩ := h.pieces_behindBreak
  exact ⟨.renew hlevel, hpieces, hfeeds, harg, hbody, hline hlined, hdefaults⟩

end Sound

/-- By induction on the pieces: what closes a stretch is a directive of the outer level. -/
theorem Sound.gathered {g g' : Gathering} {xs zs : List Lexeme} (h : Sound g xs)
    (hgather : gather g xs = some (g', zs)) :
    Stretch false g'.body ∧ ∀ p ∈ g'.defaults, Chars.Unbroken p.1.toList ∧ Stretch true p.2 := by
  induction hn : xs.length using Nat.strong_induction_on generalizing g xs with
  | _ n ih =>
    cases xs with
    | nil => simp [gather] at hgather
    | cons x xs =>
      rw [List.length_cons] at hn
      have hlen := (behindBreak_suffix xs).length_le
      by_cases hdepth : (g.level.step x.token).depth = 0
      · obtain ⟨hone, d, hd, -⟩ := closes_of_depth h.resting.depth_ne hdepth
        rw [gather_finish hdepth] at hgather
        cases hgather
        obtain ⟨hbody, -, hdefaults⟩ := h.close (h.stretch (directive?_eq_some.mp hd).1 hone)
        exact ⟨hbody, hdefaults⟩
      by_cases hsame : (g.level.step x.token).inArg = g.level.inArg
      · rw [gather_hold hdepth hsame] at hgather
        exact ih _ (by omega) (h.hold hdepth hsame) hgather rfl
      cases harg : g.level.inArg with
      | false =>
        have harg' : (g.level.step x.token).inArg = true := by simpa [harg] using hsame
        obtain ⟨d, hd, hkind, hstart, hone⟩ := Enclosure.opens harg harg'
        have hstretch := h.stretch (directive?_eq_some.mp hd).1 hone
        rw [gather_openArg hdepth harg harg', hd, Option.bind_some] at hgather
        obtain ⟨name, hname, hgather⟩ := Option.bind_eq_some_iff.mp hgather
        have hlevel := behind_arg hd hkind hstart hone
        have hunbroken : ∀ a ∈ some name, Chars.Unbroken a.toList := by
          rintro a ⟨⟩
          exact Directive.unbroken_of_mem_args (directive?_eq_some.mp hd).2 name
            (List.mem_of_mem_head? hname)
        exact ih _ (by omega) (h.renew hstretch (.inr (h.lined_taken hstart)) hunbroken hlevel)
          hgather rfl
      | true =>
        have harg' : (g.level.step x.token).inArg = false := by simpa [harg] using hsame
        obtain ⟨d, hd, hkind, hone⟩ := Enclosure.shuts harg harg'
        have hstretch := h.stretch (directive?_eq_some.mp hd).1 hone
        rw [gather_closeArg hdepth harg harg'] at hgather
        have hlevel := behind_endarg hd hkind hone
        have hline : g.arg.isSome := h.resting.inArg_eq.symm.trans harg
        exact ih _ (by omega) (h.renew hstretch (.inl hline) (by simp) hlevel) hgather rfl

theorem sound_start {xs : List Lexeme} (hpieces : Pieces (spell xs) xs)
    (hfeeds : ∀ c ∈ spell xs, Text.isLineBreak c → c = '\n') : Sound {} xs :=
  ⟨⟨trivial, rfl⟩, hpieces, hfeeds, nofun, .nil false, .inl rfl, nofun⟩

end Gathering

end CampaignMarkup
