import CampaignMarkup.Proofs.Document.Enclosure
import CampaignMarkup.Proofs.Document.Joined
import Mathlib.Data.List.DropRight

/-! # Gathering a definition

A definition is captured by cutting its source at byte offsets. The same comes of gathering the
pieces of the source one after the other: those in the lines of the body and those in each `#arg`
block. What is gathered knows of no offset, so that it can be compared between two texts. -/
namespace CampaignMarkup

open Token

namespace Lexeme

/-- The token of a piece, wherever it stands. -/
def token (x : Lexeme) : Token :=
  ofLexeme x 0 0

def isSpace (x : Lexeme) : Bool :=
  x.shape == .whitespace

/-- The text that pieces were cut from. -/
def spell (xs : List Lexeme) : List Char :=
  xs.flatMap chars

@[simp] theorem spell_nil : spell [] = [] := rfl

@[simp] theorem spell_cons (x : Lexeme) (xs : List Lexeme) :
    spell (x :: xs) = x.chars ++ spell xs := rfl

@[simp] theorem spell_append (xs ys : List Lexeme) : spell (xs ++ ys) = spell xs ++ spell ys :=
  List.flatMap_append

theorem Pieces.suffix {text : List Char} {xs ys : List Lexeme} (h : Pieces text xs)
    (hys : ys <:+ xs) : Pieces (spell ys) ys := by
  obtain ⟨zs, rfl⟩ := hys
  induction zs generalizing text with
  | nil =>
    have htext : spell ys = text := h.flatMap_chars
    rwa [htext]
  | cons z zs ih =>
    cases h with
    | cons _ hrest => exact ih hrest

/-- The pieces behind a line break, if one comes first. -/
def behindBreak : List Lexeme → List Lexeme
  | x :: xs => if x.shape = .endOfLine then xs else x :: xs
  | [] => []

theorem behindBreak_suffix (xs : List Lexeme) : behindBreak xs <:+ xs := by
  cases xs with
  | nil => exact List.suffix_rfl
  | cons x xs =>
    rw [behindBreak]
    split
    · exact List.suffix_cons x xs
    · exact List.suffix_rfl

theorem kind_eq_endOfLine {x : Lexeme} : x.token.kind = .endOfLine ↔ x.shape = .endOfLine := by
  obtain ⟨shape, cs⟩ := x
  cases shape <;> simp [token, ofLexeme, Shape.kind]

theorem kind_eq_whitespace {x : Lexeme} : x.token.kind = .whitespace ↔ x.isSpace := by
  obtain ⟨shape, cs⟩ := x
  cases shape <;> simp [token, ofLexeme, Shape.kind, isSpace]

/-- The tokens of the pieces with which a source ends. -/
def tokensAtEnd (source : List Char) (xs : List Lexeme) : List Token :=
  ofLexemes (Chars.byteSize source - Chars.byteSize (spell xs)) xs

section AtEnd

variable {source before : List Char} {x : Lexeme} {xs : List Lexeme}

theorem tokensAtEnd_eq (h : source = before ++ spell xs) :
    tokensAtEnd source xs = ofLexemes (Chars.byteSize before) xs := by
  rw [tokensAtEnd, h, Chars.byteSize_append, Nat.add_sub_cancel]

theorem tokensAtEnd_cons (h : source = before ++ spell (x :: xs)) :
    tokensAtEnd source (x :: xs) =
      ofLexeme x (Chars.byteSize before) (Chars.byteSize (before ++ x.chars)) ::
        tokensAtEnd source xs := by
  have hnext : source = (before ++ x.chars) ++ spell xs := by simp [h]
  rw [tokensAtEnd_eq h, tokensAtEnd_eq hnext, Chars.byteSize_append]
  rfl

theorem offsetOf_tokensAtEnd (h : source = before ++ spell xs) :
    offsetOf (Chars.byteSize source) (tokensAtEnd source xs) = Chars.byteSize before := by
  rw [tokensAtEnd_eq h]
  cases xs with
  | nil => rw [h]; simp [ofLexemes, offsetOf]
  | cons x xs => rfl

theorem skipLineBreak_tokensAtEnd (h : source = before ++ spell xs) :
    skipLineBreak (tokensAtEnd source xs) = tokensAtEnd source (behindBreak xs) := by
  cases xs with
  | nil => rfl
  | cons x xs =>
    rw [tokensAtEnd_cons h, skipLineBreak, behindBreak]
    by_cases hx : x.shape = .endOfLine
    · have hbreak := kind_eq_endOfLine.mpr hx
      rw [if_pos hx, if_pos]
      exact beq_iff_eq.mpr hbreak
    · rw [if_neg hx, if_neg, tokensAtEnd_cons h]
      intro hbreak
      exact hx (kind_eq_endOfLine.mp (beq_iff_eq.mp hbreak))

/-- The token of a piece at its place, and the beginning of the line behind it. -/
structure PlacedAt (source before : List Char) (x : Lexeme) (xs : List Lexeme) (t : Token)
    (next : List Char) : Prop where
  tokens : tokensAtEnd source (x :: xs) = t :: tokensAtEnd source xs
  start : t.span.start = Chars.byteSize before
  directive : t.directive? = x.token.directive?
  skip : skipLineBreak (tokensAtEnd source xs) = tokensAtEnd source (behindBreak xs)
  offset : offsetOf (Chars.byteSize source) (tokensAtEnd source (behindBreak xs)) =
    Chars.byteSize next
  behind : source = next ++ spell (behindBreak xs)

theorem exists_placedAt {x : Lexeme} (h : source = before ++ spell (x :: xs)) :
    ∃ t next, PlacedAt source before x xs t next := by
  have hbehind : source = (before ++ x.chars) ++ spell xs := by simp [h]
  obtain ⟨line, hline⟩ := behindBreak_suffix xs
  have hnext : source = ((before ++ x.chars) ++ spell line) ++ spell (behindBreak xs) := by
    rw [List.append_assoc, ← spell_append, hline]
    exact hbehind
  exact ⟨_, _, tokensAtEnd_cons h, rfl, rfl, skipLineBreak_tokensAtEnd hbehind,
    offsetOf_tokensAtEnd hnext, hnext⟩

end AtEnd

end Lexeme

open Lexeme

namespace Enclosure

variable {n : Enclosure} {t : Token}

/-- Only an `#arg` of the outer level opens a block. -/
theorem opens (h : n.inArg = false) (harg : (n.step t).inArg = true) :
    ∃ d, t.directive? = some d ∧ d.kind = .arg ∧ n.atLineStart ∧ n.depth = 1 := by
  cases hd : t.directive? with
  | none => simp [(n.step_of_none hd).2, h] at harg
  | some d =>
    rw [n.step_directive hd] at harg
    refine ⟨d, rfl, ?_⟩
    cases hk : d.kind <;> simp only [hk] at harg
    case arg =>
      split at harg
      · next houter => exact ⟨rfl, by simpa using houter⟩
      · simp [h] at harg
    all_goals (try split at harg) <;> simp [h] at harg

/-- Only an `#endarg` of the outer level closes one. -/
theorem shuts (h : n.inArg = true) (harg : (n.step t).inArg = false) :
    ∃ d, t.directive? = some d ∧ d.kind = .endarg ∧ n.depth = 1 := by
  cases hd : t.directive? with
  | none => simp [(n.step_of_none hd).2, h] at harg
  | some d =>
    rw [n.step_directive hd] at harg
    refine ⟨d, rfl, ?_⟩
    cases hk : d.kind <;> simp only [hk] at harg
    case endarg =>
      split at harg
      · next houter => exact ⟨rfl, by simpa using houter⟩
      · simp [h] at harg
    all_goals (try split at harg) <;> simp [h] at harg

end Enclosure

/-- What has been gathered of a definition. -/
structure Gathering where
  body : List Lexeme := []
  defaults : List (String × List Lexeme) := []
  /-- The `#arg` block being read. -/
  arg : Option String := none
  /-- What was read and is not part of the body or a block yet. -/
  held : List Lexeme := []
  level : Enclosure := { atLineStart := true }
deriving DecidableEq, Repr, Inhabited

namespace Gathering

/-- What is held, without the indentation of a directive that comes next. -/
def taken (g : Gathering) : List Lexeme :=
  if g.level.atLineStart then g.held.rdropWhile isSpace else g.held

def close (g : Gathering) : Gathering :=
  match g.arg with
  | some name => { g with defaults := g.defaults ++ [(name, g.taken)], arg := none }
  | none => { g with body := g.body ++ g.taken }

def hold (g : Gathering) (x : Lexeme) : Gathering :=
  { g with held := g.held ++ [x], level := g.level.step x.token }

/-- At the start of the next line nothing is held. -/
def renew (g : Gathering) (level : Enclosure) (arg : Option String) : Gathering :=
  { g with arg, held := [], level := { level with atLineStart := true } }

/-- Gathers pieces up to the `#enddef` of the outer level, and gives those behind its line. -/
def gather (g : Gathering) : List Lexeme → Option (Gathering × List Lexeme)
  | [] => none
  | x :: xs =>
    let level := g.level.step x.token
    have := (behindBreak_suffix xs).length_le
    if level.depth = 0 then some (g.close, behindBreak xs)
    else if level.inArg = g.level.inArg then gather (g.hold x) xs
    else if level.inArg then
      match x.token.directive?.bind (·.args.head?) with
      | none => none
      | some name => gather (g.close.renew level (some name)) (behindBreak xs)
    else gather (g.close.renew level none) (behindBreak xs)
termination_by xs => xs.length

/-- The default texts that the `#arg` blocks come to. -/
def values (g : Gathering) : List (String × String) :=
  g.defaults.map fun p => (p.1, Capture.argValue (spell p.2))

section Equations

variable {g : Gathering} {x : Lexeme} {xs : List Lexeme}

theorem gather_finish (h : (g.level.step x.token).depth = 0) :
    gather g (x :: xs) = some (g.close, behindBreak xs) := by
  rw [gather]
  exact if_pos h

theorem gather_hold (h : (g.level.step x.token).depth ≠ 0)
    (harg : (g.level.step x.token).inArg = g.level.inArg) :
    gather g (x :: xs) = gather (g.hold x) xs := by
  rw [gather]
  exact (if_neg h).trans (if_pos harg)

theorem gather_openArg (h : (g.level.step x.token).depth ≠ 0) (hlevel : g.level.inArg = false)
    (harg : (g.level.step x.token).inArg = true) :
    gather g (x :: xs) =
      (x.token.directive?.bind (·.args.head?)).bind fun name =>
        gather (g.close.renew (g.level.step x.token) (some name)) (behindBreak xs) := by
  rw [gather]
  simp only [if_neg h, harg, hlevel]
  cases x.token.directive?.bind (·.args.head?) <;> rfl

theorem gather_closeArg (h : (g.level.step x.token).depth ≠ 0) (hlevel : g.level.inArg = true)
    (harg : (g.level.step x.token).inArg = false) :
    gather g (x :: xs) = gather (g.close.renew (g.level.step x.token) none) (behindBreak xs) := by
  rw [gather]
  simp only [if_neg h, harg, hlevel]
  rfl

end Equations

theorem taken_hold_break (g : Gathering) {x : Lexeme} (h : x.token.kind = .endOfLine) :
    (g.hold x).taken = g.held ++ [x] := by
  have hno : ¬ x.isSpace := fun hspace => by
    rw [kind_eq_whitespace.mpr hspace] at h
    cases h
  unfold taken hold
  rw [g.level.step_break h]
  exact List.rdropWhile_concat_neg _ _ _ hno

theorem taken_hold_space {g : Gathering} {x : Lexeme} (h : x.token.kind = .whitespace)
    (hstart : g.level.atLineStart) : (g.hold x).taken = g.taken := by
  unfold taken hold
  rw [g.level.step_gap h]
  simp only [hstart, if_true]
  exact List.rdropWhile_concat_pos _ _ _ (kind_eq_whitespace.mp h)

theorem taken_renew (g : Gathering) (level : Enclosure) (arg : Option String) :
    (g.renew level arg).taken = [] := by
  simp [taken, renew]

/-- Only white space is held that is not taken. -/
theorem exists_taken (g : Gathering) : ∃ gap, g.held = g.taken ++ gap ∧ ∀ x ∈ gap, x.isSpace := by
  unfold taken
  split
  · refine ⟨_, (List.rdropWhile_append_rtakeWhile ..).symm, ?_⟩
    exact fun x hx => List.mem_rtakeWhile_imp hx
  · exact ⟨[], (List.append_nil _).symm, nofun⟩

end Gathering

namespace Capture

open Gathering

theorem isSome_of_openArg {c : Capture} {kind : DirectiveKind} (h : c.turn kind = .openArg) :
    c.openArg.isSome = false := by
  obtain rfl := turn_openArg h
  unfold turn at h
  cases ho : c.openArg with
  | none => rfl
  | some p => simp [ho] at h

theorem isSome_of_closeArg {c : Capture} {kind : DirectiveKind} (h : c.turn kind = .closeArg) :
    c.openArg.isSome = true := by
  unfold turn at h
  split at h
  · split at h <;> cases h
  · split at h <;> cases h
  · split at h <;> cases h
  · next ho => rw [ho]; rfl
  · cases h

/-- A capture that has cut the source where a gathering has put its pieces apart. The text that is
held begins behind `start`. -/
structure Mirrors (c : Capture) (g : Gathering) (start : List Char) : Prop where
  follows : c.Follows g.level
  body : c.body = String.ofList (spell g.body)
  defaults : c.defaults = g.values
  openArg : c.openArg = g.arg.map fun name => (name, Chars.byteSize start)
  cursor : g.arg = none → c.cursor = Chars.byteSize start
  lineBegin : g.level.atLineStart → c.lineBegin = Chars.byteSize (start ++ spell g.taken)

namespace Mirrors

variable {c : Capture} {g : Gathering} {start rest : List Char} {t : Token}

theorem begins (start : List Char) : Mirrors (begin (Chars.byteSize start)) {} start where
  follows := .begins _
  body := rfl
  defaults := rfl
  openArg := rfl
  cursor _ := rfl
  lineBegin _ := by simp [taken, begin]

/-- The text before a directive is cut where the pieces that are taken end. -/
theorem cutAt (h : Mirrors c g start) (ht : t.span.start = Chars.byteSize (start ++ spell g.held)) :
    c.cutAt t = Chars.byteSize (start ++ spell g.taken) := by
  unfold Capture.cutAt
  rw [h.follows.atLineStart]
  by_cases hstart : g.level.atLineStart
  · rw [if_pos hstart]
    exact h.lineBegin hstart
  · rw [if_neg hstart, taken, if_neg hstart]
    exact ht

theorem cut_taken (g : Gathering) (start rest : List Char) :
    Chars.cut (Chars.byteSize start) (Chars.byteSize (start ++ spell g.taken))
      (start ++ (spell g.held ++ rest)) = spell g.taken := by
  obtain ⟨gap, hgap, -⟩ := g.exists_taken
  rw [hgap, spell_append, List.append_assoc, Chars.byteSize_append]
  exact Chars.cut_append _ _ _

/-- Closing a block or the body takes the same text. -/
theorem close (h : Mirrors c g start) (rest : List Char)
    (ht : t.span.start = Chars.byteSize (start ++ spell g.held)) :
    let c' := c.close (start ++ (spell g.held ++ rest)) (c.cutAt t)
    c'.body = String.ofList (spell g.close.body) ∧ c'.defaults = g.close.values := by
  rw [h.cutAt ht]
  have hcut := cut_taken g start rest
  unfold Capture.close Gathering.close
  rw [h.openArg]
  cases harg : g.arg with
  | none =>
    simp only [Option.map_none, takeBody, h.cursor harg, hcut, h.body]
    simp [h.defaults, values]
  | some name =>
    simp only [Option.map_some, hcut, h.body, h.defaults]
    simp [values]

theorem depth_close (c : Capture) (source : List Char) (cut : Nat) :
    (c.close source cut).depth = c.depth ∧ (c.close source cut).openArg = none := by
  unfold Capture.close
  cases ho : c.openArg with
  | none => exact ⟨rfl, ho⟩
  | some p => exact ⟨rfl, rfl⟩

/-- Behind the line of an `#endarg` the body goes on. -/
theorem closed (h : Mirrors c g start) (rest : List Char)
    (ht : t.span.start = Chars.byteSize (start ++ spell g.held)) (level : Enclosure)
    (hdepth : level.depth = g.level.depth) (harg : level.inArg = false) (next : List Char) :
    Mirrors { (c.close (start ++ (spell g.held ++ rest)) (c.cutAt t)).newLine (Chars.byteSize next)
      with cursor := Chars.byteSize next } (g.close.renew level none) next := by
  obtain ⟨hbody, hdefaults⟩ := h.close rest ht
  obtain ⟨hsame, hnone⟩ := depth_close c (start ++ (spell g.held ++ rest)) (c.cutAt t)
  constructor
  case follows =>
    refine ⟨?_, rfl, ?_⟩
    · exact hsame.trans (h.follows.depth.trans hdepth.symm)
    · exact (congrArg Option.isSome hnone).trans harg.symm
  case body => exact hbody
  case defaults => exact hdefaults
  case openArg => exact hnone
  case cursor => exact fun _ => rfl
  case lineBegin =>
    intro _
    rw [taken_renew]
    simp [newLine]

/-- Behind the line of an `#arg` its block begins. -/
theorem opened (h : Mirrors c g start) (rest : List Char)
    (ht : t.span.start = Chars.byteSize (start ++ spell g.held)) (level : Enclosure)
    (hdepth : level.depth = g.level.depth) (hnone : c.openArg = none) (harg : level.inArg = true)
    (next : List Char) (name : String) :
    Mirrors { (c.takeBody (start ++ (spell g.held ++ rest)) (c.cutAt t)).newLine
        (Chars.byteSize next) with openArg := some (name, Chars.byteSize next) }
      (g.close.renew level (some name)) next := by
  have hbody := h.close rest ht
  have htake : c.close (start ++ (spell g.held ++ rest)) (c.cutAt t) =
      c.takeBody (start ++ (spell g.held ++ rest)) (c.cutAt t) := by
    unfold Capture.close
    rw [hnone]
  rw [htake] at hbody
  constructor
  case follows => exact ⟨h.follows.depth.trans hdepth.symm, rfl, harg.symm⟩
  case body => exact hbody.1
  case defaults => exact hbody.2
  case openArg => rfl
  case cursor => nofun
  case lineBegin =>
    intro _
    rw [taken_renew]
    simp [newLine]

/-- Where reading holds a piece, only the line and the nesting of a capture change. -/
theorem hold (h : Mirrors c g start) (x : Lexeme) {lineBegin depth : Nat} {atLineStart : Bool}
    (hfollows : { c with lineBegin, atLineStart, depth }.Follows (g.level.step x.token))
    (hline : (g.level.step x.token).atLineStart →
      lineBegin = Chars.byteSize (start ++ spell (g.hold x).taken)) :
    Mirrors { c with lineBegin, atLineStart, depth } (g.hold x) start where
  follows := hfollows
  body := h.body
  defaults := h.defaults
  openArg := h.openArg
  cursor := h.cursor
  lineBegin := hline

theorem hold_inLine (h : Mirrors c g start) {x : Lexeme} {depth : Nat}
    (hstep : g.level.step x.token = { g.level with atLineStart := false, depth }) :
    Mirrors { c.inLine with depth } (g.hold x) start := by
  refine h.hold x ?_ ?_
  · rw [hstep]
    exact ⟨rfl, rfl, h.follows.inArg⟩
  · rw [hstep]
    nofun

variable (lines : LineMap) {source : List Char} {x : Lexeme} {xs : List Lexeme}

/-- A piece that opens and closes nothing of the outer level is held. -/
theorem read_hold (h : Mirrors c g start)
    (hsource : source = start ++ (spell g.held ++ spell (x :: xs)))
    (hdepth : (g.level.step x.token).depth ≠ 0)
    (harg : (g.level.step x.token).inArg = g.level.inArg) :
    ∃ c', Mirrors c' (g.hold x) start ∧
      read source lines c (tokensAtEnd source (x :: xs)) =
        read source lines c' (tokensAtEnd source xs) := by
  rw [tokensAtEnd_cons (hsource.trans (List.append_assoc ..).symm)]
  obtain ⟨first, hfirst⟩ : ∃ first, first = Chars.byteSize (start ++ spell g.held) := ⟨_, rfl⟩
  obtain ⟨last, hlast⟩ : ∃ last, last = Chars.byteSize (start ++ spell g.held ++ x.chars) :=
    ⟨_, rfl⟩
  rw [← hfirst, ← hlast]
  by_cases hbreak : x.token.kind = .endOfLine
  · have hstep := g.level.step_break hbreak
    refine ⟨c.newLine last, h.hold x ?_ ?_, read_endOfLine _ _ _ _ hbreak⟩
    · rw [hstep]
      exact h.follows.newLine last
    · intro _
      rw [g.taken_hold_break hbreak]
      simpa using hlast
  by_cases hgap : x.token.kind = .whitespace
  · have hstep := g.level.step_gap hgap
    refine ⟨c, h.hold x ?_ ?_, read_whitespace _ _ _ _ hgap⟩
    · rw [hstep]
      exact h.follows
    · intro hstart
      rw [hstep] at hstart
      rw [taken_hold_space hgap hstart]
      exact h.lineBegin hstart
  cases hd : x.token.directive? with
  | none =>
    have hstep := g.level.step_plain hbreak hgap hd
    refine ⟨c.inLine, ?_, ?_⟩
    · have hinLine := h.hold_inLine hstep
      rwa [← h.follows.depth] at hinLine
    · by_cases hcomment : x.token.kind = .comment
      · have hremark : Directive.ofComment? x.token.content = none := by
          simpa [directive?, hcomment] using hd
        exact read_remark _ _ _ _ hcomment hremark
      · exact read_other _ _ _ _ hbreak hgap hcomment
  | some d =>
    obtain ⟨hcomment, hsome⟩ := directive?_eq_some.mp hd
    have hturn := h.follows.turn_cases hd
    rw [@read_directive source lines c (ofLexeme x first last) _ hcomment d hsome]
    cases hk : c.turn d.kind <;> simp only [hk] at hturn
    case ignore =>
      rw [← h.follows.depth] at hturn
      exact ⟨_, h.hold_inLine hturn, rfl⟩
    case nest =>
      rw [← h.follows.depth] at hturn
      exact ⟨_, h.hold_inLine hturn, rfl⟩
    case leave =>
      rw [← h.follows.depth] at hturn
      exact ⟨_, h.hold_inLine hturn, rfl⟩
    case finish => exact absurd hturn hdepth
    case openArg =>
      rw [hturn.1, ← h.follows.inArg, isSome_of_openArg hk] at harg
      cases harg
    case closeArg =>
      rw [hturn, ← h.follows.inArg, isSome_of_closeArg hk] at harg
      cases harg

end Mirrors

/-- What a capture has come to. -/
def outcome (result : Except StructureError (Option (Capture × List Token))) :
    Option (String × List (String × String) × List Token) :=
  result.toOption.join.map fun p => (p.1.body, p.1.defaults, p.2)

namespace Mirrors

variable (lines : LineMap) {c : Capture} {g : Gathering} {source start : List Char} {x : Lexeme}
  {xs : List Lexeme}

/-- The `#enddef` of the outer level ends the definition, and what is held is part of it. -/
theorem read_finish (h : Mirrors c g start)
    (hsource : source = start ++ (spell g.held ++ spell (x :: xs))) (hlevel : g.level.depth ≠ 0)
    (hdepth : (g.level.step x.token).depth = 0) :
    outcome (read source lines c (tokensAtEnd source (x :: xs))) =
      some (String.ofList (spell g.close.body), g.close.values,
        tokensAtEnd source (behindBreak xs)) := by
  obtain ⟨hone, d, hd, hkind⟩ := Enclosure.closes_of_depth hlevel hdepth
  have hturn : c.turn d.kind = .finish := by simp [turn, hkind, h.follows.depth, hone]
  obtain ⟨t, next, hplace⟩ := exists_placedAt (hsource.trans (List.append_assoc ..).symm)
  obtain ⟨hcomment, hsome⟩ := directive?_eq_some.mp (hplace.directive.trans hd)
  obtain ⟨hbody, hdefaults⟩ := h.close (spell (x :: xs)) hplace.start
  rw [← hsource] at hbody hdefaults
  rw [hplace.tokens, read_directive source lines c _ hcomment hsome]
  simp only [hturn, hplace.skip]
  simp [outcome, Except.toOption, hbody, hdefaults]

/-- An `#arg` of the outer level opens a block, if it has a name. -/
theorem read_openArg (h : Mirrors c g start)
    (hsource : source = start ++ (spell g.held ++ spell (x :: xs))) (hlevel : g.level.inArg = false)
    (harg : (g.level.step x.token).inArg = true) :
    ∃ next, ∃ c' : String → Capture, source = next ++ spell (behindBreak xs) ∧
      (∀ name, Mirrors (c' name) (g.close.renew (g.level.step x.token) (some name)) next) ∧
      outcome (read source lines c (tokensAtEnd source (x :: xs))) =
        (x.token.directive?.bind (·.args.head?)).bind fun name =>
          outcome (read source lines (c' name) (tokensAtEnd source (behindBreak xs))) := by
  obtain ⟨d, hd, hkind, hstart, hone⟩ := Enclosure.opens hlevel harg
  have hnone : c.openArg = none := by
    rw [← Option.not_isSome_iff_eq_none, h.follows.inArg, hlevel]
    simp
  have hturn : c.turn d.kind = .openArg := by
    simp [turn, hkind, hnone, h.follows.depth, h.follows.atLineStart, hone, hstart]
  have hdepth : (g.level.step x.token).depth = g.level.depth := by
    rw [g.level.step_directive hd]
    simp [hkind, hone, hstart]
  obtain ⟨t, next, hplace⟩ := exists_placedAt (hsource.trans (List.append_assoc ..).symm)
  obtain ⟨hcomment, hsome⟩ := directive?_eq_some.mp (hplace.directive.trans hd)
  have hopened := h.opened (spell (x :: xs)) hplace.start _ hdepth hnone harg next
  rw [← hsource] at hopened
  refine ⟨next, _, hplace.behind, hopened, ?_⟩
  rw [hplace.tokens, read_directive source lines c _ hcomment hsome, hd]
  simp only [hturn, hplace.skip, hplace.offset, Option.bind_some]
  cases d.args.head? <;> rfl

/-- An `#endarg` of the outer level closes the block that is open. -/
theorem read_closeArg (h : Mirrors c g start)
    (hsource : source = start ++ (spell g.held ++ spell (x :: xs))) (hlevel : g.level.inArg = true)
    (harg : (g.level.step x.token).inArg = false) :
    ∃ next c', source = next ++ spell (behindBreak xs) ∧
      Mirrors c' (g.close.renew (g.level.step x.token) none) next ∧
      read source lines c (tokensAtEnd source (x :: xs)) =
        read source lines c' (tokensAtEnd source (behindBreak xs)) := by
  obtain ⟨d, hd, hkind, hone⟩ := Enclosure.shuts hlevel harg
  obtain ⟨p, hp⟩ := Option.isSome_iff_exists.mp (h.follows.inArg.trans hlevel)
  have hturn : c.turn d.kind = .closeArg := by simp [turn, hkind, hp, h.follows.depth, hone]
  have hdepth : (g.level.step x.token).depth = g.level.depth := by
    rw [g.level.step_directive hd]
    simp [hkind, hone]
  obtain ⟨t, next, hplace⟩ := exists_placedAt (hsource.trans (List.append_assoc ..).symm)
  obtain ⟨hcomment, hsome⟩ := directive?_eq_some.mp (hplace.directive.trans hd)
  have hclosed := h.closed (spell (x :: xs)) hplace.start _ hdepth harg next
  rw [← hsource] at hclosed
  refine ⟨next, _, hplace.behind, hclosed, ?_⟩
  rw [hplace.tokens, read_directive source lines c _ hcomment hsome]
  simp only [hturn, hplace.skip, hplace.offset]

end Mirrors

/-- By induction on the pieces. Each is held, or it closes what is held, and then the next line
begins. -/
theorem read_tokensAtEnd (lines : LineMap) {c : Capture} {g : Gathering} {source start : List Char}
    (h : Mirrors c g start) (hlevel : g.level.depth ≠ 0) (xs : List Lexeme)
    (hsource : source = start ++ (spell g.held ++ spell xs)) :
    outcome (read source lines c (tokensAtEnd source xs)) =
      (g.gather xs).map fun p =>
        (String.ofList (spell p.1.body), p.1.values, tokensAtEnd source p.2) := by
  induction hn : xs.length using Nat.strong_induction_on generalizing c g start xs with
  | _ n ih =>
    cases xs with
    | nil =>
      rw [tokensAtEnd, ofLexemes, read, gather]
      rfl
    | cons x xs =>
      rw [List.length_cons] at hn
      have hlen := (behindBreak_suffix xs).length_le
      by_cases hdepth : (g.level.step x.token).depth = 0
      · rw [h.read_finish lines hsource hlevel hdepth, gather_finish hdepth]
        rfl
      by_cases hsame : (g.level.step x.token).inArg = g.level.inArg
      · obtain ⟨c', hc', hread⟩ := h.read_hold lines hsource hdepth hsame
        have hrest : source = start ++ (spell (g.hold x).held ++ spell xs) := by
          simp [Gathering.hold, hsource]
        rw [hread, gather_hold hdepth hsame]
        exact ih _ (by omega) hc' hdepth _ hrest rfl
      cases harg : g.level.inArg with
      | false =>
        have harg' : (g.level.step x.token).inArg = true := by simpa [harg] using hsame
        obtain ⟨next, c', hnext, hc', hread⟩ := h.read_openArg lines hsource harg harg'
        rw [hread, gather_openArg hdepth harg harg', Option.map_bind]
        refine Option.bind_congr ?_
        intro name _
        exact ih _ (by omega) (hc' name) hdepth _ hnext rfl
      | true =>
        have harg' : (g.level.step x.token).inArg = false := by simpa [harg] using hsame
        obtain ⟨next, c', hnext, hc', hread⟩ := h.read_closeArg lines hsource harg harg'
        rw [hread, gather_closeArg hdepth harg harg']
        exact ih _ (by omega) hc' hdepth _ hnext rfl

/-- A definition is captured from the joined tokens if and only if its pieces can be gathered. -/
theorem block_eq_ok_iff (lines : LineMap) (header : Directive) (docs : List String) (line : Nat)
    {source start : List Char} {xs : List Lexeme} (hsource : source = start ++ spell xs)
    {b : DefineBlock} {more : List Token} :
    block source lines header docs line (mergeConcatenations (tokensAtEnd source xs)) =
        .ok (b, more) ↔
      ∃ g zs, gather {} xs = some (g, zs) ∧
        b = ⟨header, String.ofList (spell g.body), g.values, Node.joinDocs docs, line⟩ ∧
        more = mergeConcatenations (tokensAtEnd source zs) := by
  have hread := read_tokensAtEnd lines (.begins start) Nat.one_ne_zero xs hsource
  rw [block_merge, block, offsetOf_tokensAtEnd hsource]
  revert hread
  generalize read source lines _ _ = result
  generalize gather {} xs = found
  intro hread
  rcases result with e | (_ | ⟨c, rest⟩) <;> rcases found with _ | ⟨g, zs⟩ <;>
    simp_all [outcome, Except.toOption, Except.map]
  constructor <;> rintro ⟨rfl, rfl⟩ <;> exact ⟨rfl, rfl⟩

end Capture

end CampaignMarkup
