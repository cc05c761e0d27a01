import CampaignMarkup.Proofs.Record.Blocks
import CampaignMarkup.Proofs.Record.QuotedValue
import CampaignMarkup.Proofs.Record.Strings

/-! # Texts put behind one another

Two texts share a line where the first ends within a line and the second begins with one. Unless
both have something to say in that line, the joined text says what the two say, one after the other,
and its records are theirs. Otherwise the shared line is read as a whole: if the second text begins
with a block, that block is never opened. -/
namespace CampaignMarkup

open Text Chars

namespace Chars

theorem lines_append_text (x y : List Char) :
    lines (x ++ y) = (endedLines x).map (dropEnding ['\r']) ++ lines (unended x ++ y) := by
  induction x using line_induction with
  | last x hx => rw [endedLines_of_not_mem hx, unended_of_not_mem hx]; rfl
  | cons line rest hline ih =>
    rw [List.append_assoc, List.cons_append, lines_append hline, ih, endedLines_append hline,
      unended_append]
    rfl

/-- The text up to the first line feed. -/
def firstLine (cs : List Char) : List Char :=
  cs.takeWhile (· ≠ '\n')

theorem not_mem_firstLine (cs : List Char) : '\n' ∉ firstLine cs := by
  intro h
  have := List.mem_takeWhile_imp h
  simp at this

theorem firstLine_cases (cs : List Char) :
    cs = firstLine cs ∨ ∃ rest, cs = firstLine cs ++ '\n' :: rest := by
  have hcut : cs = firstLine cs ++ cs.dropWhile (· ≠ '\n') := List.takeWhile_append_dropWhile.symm
  cases hrest : cs.dropWhile (· ≠ '\n') with
  | nil =>
    rw [hrest, List.append_nil] at hcut
    exact .inl hcut
  | cons c rest =>
    have hc := @head?_dropWhile (· ≠ '\n') cs c (by rw [hrest]; rfl)
    have hfeed : c = '\n' := by simpa using hc
    rw [hrest, hfeed] at hcut
    exact .inr ⟨rest, hcut⟩

end Chars

namespace MarkupLine

theorem read_blank {line : List Char} (h : ∀ c ∈ line, isBlank c) : read line = .other := by
  have htrim := trim_blanks_append h []
  rw [List.append_nil] at htrim
  rw [read_congr htrim]
  rfl

/-- The lines that set an attribute, by what stands in front of their first equals sign. -/
theorem isAssignment_iff {line : List Char} :
    (read line).isAssignment ↔ ∃ name raw, line = name ++ '=' :: raw ∧ '=' ∉ name ∧
      IsName (Chars.trim name) := by
  constructor
  · intro h
    cases hread : read line with
    | assignment key value =>
      obtain ⟨name, raw, htrim, hequals, hname, hkey, -⟩ :=
        assignment?_eq_some.mp (read_eq_assignment.mp hread)
      obtain ⟨edge, after, hline, hedge, -⟩ := exists_trim line
      refine ⟨edge ++ name, raw ++ after, ?_, ?_, ?_⟩
      · calc line = edge ++ ((name ++ '=' :: raw) ++ after) := by rw [← htrim, ← hline]
          _ = edge ++ name ++ '=' :: (raw ++ after) := by simp
      · intro hmem
        rcases List.mem_append.mp hmem with hmem | hmem
        · exact absurd (hedge _ hmem) (by decide)
        · exact hequals hmem
      · rw [trim_blanks_append hedge]
        exact hkey ▸ hname
    | opening tag => simp [hread, isAssignment] at h
    | closing tag => simp [hread, isAssignment] at h
    | other => simp [hread, isAssignment] at h
  · rintro ⟨name, raw, rfl, -, hname⟩
    obtain ⟨before, after, hcut, hbefore, hafter⟩ := exists_trim name
    rw [← String.toList_ofList (l := Chars.trim name)] at hname
    have hread := read_spaced_key hname hafter raw
    rw [String.toList_ofList] at hread
    rw [hcut, List.append_assoc, read_congr (trim_blanks_append hbefore _), hread]
    rfl

theorem isAssignment_of_append {line more : List Char} (h : (read (line ++ more)).isAssignment)
    (hmore : '=' ∉ more) : (read line).isAssignment := by
  rw [isAssignment_iff] at h ⊢
  obtain ⟨name, raw, heq, hname⟩ := h
  rcases List.append_eq_append_iff.mp heq with ⟨rest, -, hrest⟩ | ⟨rest, hline, hrest⟩
  · simp [hrest] at hmore
  · cases rest with
    | nil =>
      rw [List.nil_append] at hrest
      simp [← hrest] at hmore
    | cons c rest =>
      cases hrest
      exact ⟨name, rest, hline, hname⟩

/-- Whether a value is finished can be told from its whole line. -/
theorem closed_value {line value : List Char} {key : String}
    (h : read line = .assignment key value) :
    Delimiter.closed value = Delimiter.closed line := by
  obtain ⟨before, after, rfl, hbefore, hafter⟩ := exists_value h
  rw [← List.append_assoc, Delimiter.closed_append_inert _ hafter, Delimiter.closed,
    Delimiter.closed, List.foldl_append, Delimiter.foldl_inert hbefore]

/-- A line that opens a block holds nothing in front of its only opening bracket, and nowhere
quotes, angles or an equals sign. -/
theorem exists_brackets {line : List Char} {tag : String} (h : read line = .opening tag) :
    ∃ before more, line = before ++ '[' :: more ∧ (∀ c ∈ before, isBlank c) ∧ '[' ∉ more ∧
      ∀ c ∈ line, Delimiter.isInert c ∧ c ≠ '=' := by
  obtain ⟨before, after, hline, hbefore, hafter⟩ := exists_trim line
  obtain ⟨hname, hform⟩ := opening?_eq_some.mp (read_eq_opening.mp h)
  have hne : ∀ c d, isBlank c → isBlank d = false → c ≠ d := by
    rintro c _ hc hd rfl
    simp [hc] at hd
  have hblank : ∀ c, isBlank c → Delimiter.isInert c ∧ c ≠ '=' :=
    fun c hc => ⟨Delimiter.isInert_of_isBlank hc, hne c '=' hc (by decide)⟩
  have hmarks : ∀ c ∈ ['[', '+', ']'], Delimiter.isInert c ∧ c ≠ '=' := by
    simp [Delimiter.isInert]
  have hchars : ∀ c ∈ tag.toList, Delimiter.isInert c ∧ c ≠ '=' := by
    intro c hc
    refine ⟨isInert_of_isNameChar (hname.chars c hc), ?_⟩
    rintro rfl
    exact hname.not_mem (by decide) hc
  obtain ⟨more, hmore, hbracket, hinside⟩ : ∃ more, Chars.trim line = '[' :: more ∧ '[' ∉ more ∧
      ∀ c ∈ more, c ∈ ['[', '+', ']'] ∨ c ∈ tag.toList := by
    have hlone := hname.not_mem (show isNameChar '[' = false by decide)
    rcases hform with hform | hform
    · exact ⟨tag.toList ++ [']'], hform, by simp [hlone], by grind⟩
    · exact ⟨'+' :: (tag.toList ++ [']']), hform, by simp [hlone], by grind⟩
  have hwhole : line = before ++ '[' :: (more ++ after) := by
    rw [← List.cons_append, ← hmore, ← hline]
  refine ⟨before, more ++ after, hwhole, hbefore, ?_, ?_⟩
  · intro hmem
    rcases List.mem_append.mp hmem with hmem | hmem
    · exact hbracket hmem
    · exact hne '[' '[' (hafter _ hmem) (by decide) rfl
  · intro c hc
    rw [hwhole] at hc
    simp only [List.mem_append, List.mem_cons] at hc
    rcases hc with hc | rfl | hc | hc
    · exact hblank c (hbefore c hc)
    · exact hmarks _ (by decide)
    · rcases hinside c hc with hc | hc
      · exact hmarks c hc
      · exact hchars c hc
    · exact hblank c (hafter c hc)

/-- No line opens a block in which something stands in front of a bracket. -/
theorem read_ne_opening {before more : List Char} (h : ¬ ∀ c ∈ before, isBlank c) (tag : String) :
    read (before ++ '[' :: more) ≠ .opening tag := by
  intro hread
  obtain ⟨blanks, rest, heq, hblanks, hrest, -⟩ := exists_brackets hread
  have hfree : '[' ∉ blanks := fun hmem => absurd (hblanks _ hmem) (by decide)
  have hcount := congrArg (List.count '[') heq
  simp only [List.count_append, List.count_cons_self, List.count_eq_zero.mpr hfree,
    List.count_eq_zero.mpr hrest] at hcount
  have hnone : '[' ∉ before := List.count_eq_zero.mp (by omega)
  have hcut := splitOnce_eq_some.mpr ⟨heq, hfree⟩
  rw [splitOnce_eq_some.mpr ⟨rfl, hnone⟩] at hcut
  cases hcut
  exact h hblanks

end MarkupLine

namespace Pending

/-- What the lines say while they go on, and what is pending behind them. -/
def follow (p : Pending) : List (List Char) → List Statement × Pending
  | [] => ([], p)
  | line :: rest =>
    (p.said line ++ ((p.after line).follow rest).1, ((p.after line).follow rest).2)

theorem follow_append (p : Pending) (ls ms : List (List Char)) :
    p.follow (ls ++ ms) =
      ((p.follow ls).1 ++ ((p.follow ls).2.follow ms).1, ((p.follow ls).2.follow ms).2) := by
  induction ls generalizing p with
  | nil => rfl
  | cons line ls ih => rw [List.cons_append, follow, ih, follow, List.append_assoc]

theorem statements_of_follow {p : Pending} {ls : List (List Char)} (h : (p.follow ls).2 = none) :
    p.statements ls = (p.follow ls).1 := by
  induction ls generalizing p with
  | nil =>
    cases h
    rfl
  | cons line ls ih => rw [statements, ih h, follow]

/-- What is pending is not finished. -/
def Sound (p : Pending) : Prop :=
  ∀ key value, p = some (key, value) → Delimiter.closed value = false

theorem unfinished_sound (key : String) (value : List Char) : (unfinished key value).Sound := by
  unfold unfinished
  by_cases h : Delimiter.closed value
  · rw [if_pos h]
    intro _ _ hnone
    cases hnone
  · rw [if_neg h]
    intro _ _ hsome
    cases hsome
    simpa using h

theorem after_sound (p : Pending) (line : List Char) : (p.after line).Sound := by
  unfold after
  cases p with
  | some pending => exact unfinished_sound _ _
  | none =>
    dsimp only
    cases MarkupLine.read line with
    | assignment key value => exact unfinished_sound key value
    | opening tag => intro _ _ hnone; cases hnone
    | closing tag => intro _ _ hnone; cases hnone
    | other => intro _ _ hnone; cases hnone

theorem follow_sound {p : Pending} (h : p.Sound) (ls : List (List Char)) :
    (p.follow ls).2.Sound := by
  induction ls generalizing p with
  | nil => exact h
  | cons line ls ih => exact ih (p.after_sound line)

theorem silent_of_blank {line : List Char} (h : ∀ c ∈ line, isBlank c) :
    said none line = [] ∧ after none line = none := by
  unfold said after
  rw [MarkupLine.read_blank h]
  exact ⟨rfl, rfl⟩

/-- A blank line finishes no value. -/
theorem Sound.eq_none {p : Pending} (hp : p.Sound) {blanks : List Char}
    (h : ∀ c ∈ blanks, isBlank c) (hafter : p.after blanks = none) : p = none := by
  cases p with
  | none => rfl
  | some pending =>
    obtain ⟨key, value⟩ := pending
    have hbreak : ∀ c ∈ '\n' :: blanks, isBlank c := List.forall_mem_cons.mpr ⟨by decide, h⟩
    simp only [after, unfinished_eq_none, closed_append_blanks hbreak, hp key value rfl] at hafter
    cases hafter

theorem follow_line {line : List Char} (h : '\n' ∉ line) :
    follow none (lines line) = (said none line, after none line) := by
  cases line with
  | nil => rfl
  | cons c line =>
    rw [lines_of_not_mem (by simp) h, follow, follow, List.append_nil]

/-- Blanks in front of a text are blanks in front of its first line. -/
theorem follow_blanks_append {blanks : List Char} (h : ∀ c ∈ blanks, isBlank c)
    (hfeed : '\n' ∉ blanks) (cs : List Char) :
    follow none (lines (blanks ++ cs)) = follow none (lines cs) := by
  have hfirst := not_mem_firstLine cs
  have hboth : '\n' ∉ blanks ++ firstLine cs := by simp [hfeed, hfirst]
  rcases firstLine_cases cs with hcs | ⟨rest, hcs⟩
  · have htrim := trim_blanks_append h (firstLine cs)
    rw [hcs, follow_line hboth, follow_line hfirst, said_congr htrim, after_congr htrim]
  · have htrim : Chars.trim (dropEnding ['\r'] (blanks ++ firstLine cs)) =
        Chars.trim (dropEnding ['\r'] (firstLine cs)) := by
      rw [trim_dropEnding_return, trim_dropEnding_return, trim_blanks_append h]
    rw [hcs, ← List.append_assoc, lines_append hboth, lines_append hfirst, follow, follow,
      said_congr htrim, after_congr htrim]

/-- The lines behind the first, which are read alike behind every line that leaves nothing
pending. -/
theorem exists_lines_behind (cs : List Char) : ∃ rest, ∀ (p : Pending) (start : List Char),
    '\n' ∉ start → p.after (start ++ firstLine cs) = none →
    (start ++ firstLine cs = [] → p = none) →
    p.follow (lines (start ++ cs)) =
      (p.said (start ++ firstLine cs) ++ (follow none rest).1, (follow none rest).2) := by
  have hfirst := not_mem_firstLine cs
  rcases firstLine_cases cs with hcs | ⟨rest, hcs⟩
  · refine ⟨[], fun p start hstart hafter hempty => ?_⟩
    have hboth : '\n' ∉ start ++ firstLine cs := by simp [hstart, hfirst]
    nth_rewrite 1 [hcs]
    by_cases hnil : start ++ firstLine cs = []
    · rw [hempty hnil, hnil]
      rfl
    · rw [lines_of_not_mem hnil hboth, follow, follow, hafter, follow]
  · refine ⟨lines rest, fun p start hstart hafter _ => ?_⟩
    have hboth : '\n' ∉ start ++ firstLine cs := by simp [hstart, hfirst]
    nth_rewrite 1 [hcs]
    rw [← List.append_assoc, lines_append hboth, follow, said_dropEnding_return,
      (after_dropEnding_return p _).mpr hafter]

/-- Nothing is pending behind the text. -/
def Settled (cs : List Char) : Prop :=
  (follow none (lines cs)).2 = none

/-- A text behind a settled one is read as if it stood behind the last line of that, with what is
pending there. -/
theorem Settled.exists_last {x : List Char} (h : Settled x) : ∃ (ss : List Statement) (p : Pending),
    p.Sound ∧ p.after (unended x) = none ∧ (unended x = [] → p = none) ∧
    (follow none (lines x)).1 = ss ++ p.said (unended x) ∧
    ∀ y, follow none (lines (x ++ y)) =
      (ss ++ (p.follow (lines (unended x ++ y))).1, (p.follow (lines (unended x ++ y))).2) := by
  obtain ⟨⟨ss, p⟩, hended⟩ :
      ∃ ended, follow none ((endedLines x).map (dropEnding ['\r'])) = ended := ⟨_, rfl⟩
  have hsound : p.Sound := by
    have hfollow := @follow_sound none (by intro _ _ hnone; cases hnone)
      ((endedLines x).map (dropEnding ['\r']))
    rwa [hended] at hfollow
  have happend : ∀ y, follow none (lines (x ++ y)) =
      (ss ++ (p.follow (lines (unended x ++ y))).1, (p.follow (lines (unended x ++ y))).2) := by
    intro y
    rw [lines_append_text, follow_append, hended]
  have hwhole := happend []
  rw [List.append_nil, List.append_nil] at hwhole
  have hsettled : (p.follow (lines (unended x))).2 = none := by
    rw [← h, hwhole]
  by_cases hnil : unended x = []
  · rw [hnil] at hsettled hwhole
    obtain rfl : p = none := hsettled
    obtain ⟨hsaid, hafter⟩ := @silent_of_blank [] (by simp)
    refine ⟨ss, none, hsound, hnil ▸ hafter, fun _ => rfl, ?_, happend⟩
    rw [hwhole, hnil, hsaid]
    rfl
  · rw [lines_of_not_mem hnil (not_mem_unended x)] at hsettled hwhole
    refine ⟨ss, p, hsound, hsettled, fun hempty => absurd hempty hnil, ?_, happend⟩
    rw [hwhole]
    exact congrArg (ss ++ ·) (List.append_nil _)

/-- The line in which two texts meet holds something of both. -/
def sharesLine (x y : List Char) : Bool :=
  !(unended x).all isBlank && !(firstLine y).all isBlank

theorem Settled.follow_of_apart {x y : List Char} (h : Settled x)
    (hapart : sharesLine x y = false) :
    follow none (lines (x ++ y)) =
      ((follow none (lines x)).1 ++ (follow none (lines y)).1, (follow none (lines y)).2) := by
  obtain ⟨ss, p, hsound, hafter, hempty, hsaid, happend⟩ := h.exists_last
  have hfeed := not_mem_unended x
  rw [happend, hsaid]
  by_cases hlast : ∀ c ∈ unended x, isBlank c
  · obtain rfl := hsound.eq_none hlast hafter
    rw [follow_blanks_append hlast hfeed, (silent_of_blank hlast).1, List.append_nil]
  · have hfirst : ∀ c ∈ firstLine y, isBlank c := by
      unfold sharesLine at hapart
      grind
    obtain ⟨rest, hrest⟩ := exists_lines_behind y
    obtain ⟨hquiet, hnone⟩ := silent_of_blank hfirst
    have hown := hrest none [] (by simp) hnone (fun _ => rfl)
    have hbehind := hrest p (unended x) hfeed ((after_append_blanks hfirst p _).mpr hafter)
      (fun hnil => hempty (List.append_eq_nil_iff.mp hnil).1)
    rw [List.nil_append, List.nil_append, hquiet, List.nil_append] at hown
    rw [hbehind, hown, said_append_blanks hfirst, List.append_assoc]

/-- How many blocks the statements open. -/
def openings (ss : List Statement) : Nat :=
  (ss.filterMap Statement.tagOpened?).length

theorem openings_append (ss ts : List Statement) :
    openings (ss ++ ts) = openings ss + openings ts := by
  rw [openings, List.filterMap_append, List.length_append]
  rfl

theorem openings_completed (key : String) (value : List Char) :
    openings (Statement.completed key value) = 0 := by
  unfold Statement.completed
  split <;> rfl

/-- A line that goes on with the opening of a block does not open it. -/
theorem unopened_of_shared {p : Pending} {last first : List Char} {tag : String}
    (hafter : p.after last = none) (hlast : ¬ ∀ c ∈ last, isBlank c)
    (hfirst : MarkupLine.read first = .opening tag) :
    openings (p.said (last ++ first)) = 0 ∧ p.after (last ++ first) = none := by
  obtain ⟨before, more, hbracket, -, -, hinert⟩ := MarkupLine.exists_brackets hfirst
  have hclosed : ∀ cs, Delimiter.closed (cs ++ first) = Delimiter.closed cs :=
    fun cs => Delimiter.closed_append_inert cs fun c hc => (hinert c hc).1
  cases p with
  | some pending =>
    obtain ⟨key, value⟩ := pending
    have hjoin : value ++ '\n' :: (last ++ first) = (value ++ '\n' :: last) ++ first := by simp
    refine ⟨openings_completed _ _, ?_⟩
    simp only [after, unfinished_eq_none] at hafter ⊢
    rw [hjoin, hclosed, hafter]
  | none =>
    have hno : ∀ t, MarkupLine.read (last ++ first) ≠ .opening t := by
      intro t
      rw [hbracket, ← List.append_assoc]
      apply MarkupLine.read_ne_opening
      intro hblank
      exact hlast fun c hc => hblank c (List.mem_append_left _ hc)
    cases hread : MarkupLine.read (last ++ first) with
    | opening t => exact absurd hread (hno t)
    | closing t => simp [said, after, hread, openings, Statement.tagOpened?]
    | other => simp [said, after, hread, openings]
    | assignment key value =>
      have hkeyed := MarkupLine.isAssignment_of_append (by rw [hread]; rfl)
        (fun hmem => (hinert _ hmem).2 rfl)
      cases hown : MarkupLine.read last with
      | assignment k v =>
        simp only [after, hown, unfinished_eq_none] at hafter
        simp only [said, after, hread, openings_completed, unfinished_eq_none, true_and]
        rw [MarkupLine.closed_value hread, hclosed, ← MarkupLine.closed_value hown, hafter]
      | opening t => simp [hown, MarkupLine.isAssignment] at hkeyed
      | closing t => simp [hown, MarkupLine.isAssignment] at hkeyed
      | other => simp [hown, MarkupLine.isAssignment] at hkeyed

theorem Settled.follow_of_shared {x y : List Char} {tag : String} (h : Settled x)
    (hshared : sharesLine x y = true) (hfirst : MarkupLine.read (firstLine y) = .opening tag) :
    (follow none (lines (x ++ y))).2 = (follow none (lines y)).2 ∧
      openings (follow none (lines (x ++ y))).1 <
        openings (follow none (lines x)).1 + openings (follow none (lines y)).1 := by
  obtain ⟨ss, p, -, hafter, -, hsaid, happend⟩ := h.exists_last
  obtain ⟨rest, hrest⟩ := exists_lines_behind y
  have hlast : ¬ ∀ c ∈ unended x, isBlank c := by
    unfold sharesLine at hshared
    grind
  have hfull : firstLine y ≠ [] := by
    intro hnil
    simp [sharesLine, hnil] at hshared
  obtain ⟨hunopened, hsettled⟩ := unopened_of_shared hafter hlast hfirst
  have hown := hrest none [] (by simp) (by simp [after, hfirst]) (fun _ => rfl)
  have hboth := hrest p (unended x) (not_mem_unended x) hsettled
    (fun hnil => absurd (List.append_eq_nil_iff.mp hnil).2 hfull)
  have hopened : openings (said none (firstLine y)) = 1 := by
    simp [said, hfirst, openings, Statement.tagOpened?]
  rw [List.nil_append, List.nil_append] at hown
  rw [happend, hsaid, hboth, hown]
  refine ⟨rfl, ?_⟩
  simp only [openings_append, hunopened, hopened]
  omega

end Pending

namespace Extraction

/-- All lines: what they say is carried out in order, and what is pending is remembered. -/
theorem foldl_line (lines : List (List Char)) (stack roots : List Record) (p : Pending) :
    lines.foldl line ⟨stack, roots, p⟩ =
      { (p.follow lines).1.foldl obey ⟨stack, roots, none⟩ with
        pending := (p.follow lines).2 } := by
  induction lines generalizing stack roots p with
  | nil => rfl
  | cons text rest ih =>
    have hnone : ((p.said text).foldl obey ⟨stack, roots, none⟩).pending = none :=
      foldl_obey_pending _ _
    rw [List.foldl_cons, line_eq, ih, Pending.follow, List.foldl_append]
    generalize (p.said text).foldl obey ⟨stack, roots, none⟩ = said at hnone
    cases said
    cases hnone
    rfl

/-- The records of another text stand in front. -/
def behind (front : List Record) (e : Extraction) : Extraction :=
  { e with roots := e.roots ++ front.reverse }

theorem closeThrough_append (tag : String) (stack roots before : List Record) :
    closeThrough tag stack (roots ++ before) =
      ((closeThrough tag stack roots).1, (closeThrough tag stack roots).2 ++ before) := by
  fun_induction closeThrough tag stack roots with
  | case1 => simp [closeThrough]
  | case2 node => simp [closeThrough]
  | case3 node parent outer htag => simp [closeThrough, htag]
  | case4 node parent outer htag ih => rw [closeThrough, if_neg htag, ih]

theorem obey_behind (front : List Record) (e : Extraction) (s : Statement) :
    (e.behind front).obey s = (e.obey s).behind front := by
  cases s with
  | opening tag => rfl
  | closing tag =>
    simp only [obey, close, behind, closeThrough_append]
    split <;> rfl
  | giving key value =>
    simp only [obey, set, behind]
    split <;> simp_all

theorem foldl_obey_behind (front : List Record) (ss : List Statement) (e : Extraction) :
    ss.foldl obey (e.behind front) = (ss.foldl obey e).behind front := by
  induction ss generalizing e with
  | nil => rfl
  | cons s ss ih => rw [List.foldl_cons, obey_behind, ih, List.foldl_cons]

end Extraction

/-- Behind the text no block is open and no value pending. -/
structure BlocksClosed (text : String) : Prop where
  stack : ((lines text.toList).foldl Extraction.line {}).stack = []
  pending : ((lines text.toList).foldl Extraction.line {}).pending = none

instance (text : String) : Decidable (BlocksClosed text) :=
  decidable_of_iff (((lines text.toList).foldl Extraction.line {}).stack.isEmpty ∧
      ((lines text.toList).foldl Extraction.line {}).pending = none)
    ⟨fun h => ⟨List.isEmpty_iff.mp h.1, h.2⟩, fun h => ⟨List.isEmpty_iff.mpr h.stack, h.pending⟩⟩

theorem statementsOf_eq_follow {text : String} (h : Pending.Settled text.toList) :
    statementsOf text = (Pending.follow none (lines text.toList)).1 :=
  Pending.statements_of_follow h

theorem blocksClosed_iff {text : String} :
    BlocksClosed text ↔ Pending.Settled text.toList ∧
      (statementsOf text).foldl Extraction.obey {} =
        Extraction.behind (extractRecords text) {} := by
  have hline := Extraction.foldl_line (lines text.toList) [] [] none
  have hpending := Extraction.foldl_obey_pending (statementsOf text) {}
  constructor
  · rintro ⟨hstack, hsettled⟩
    rw [hline] at hstack hsettled
    have hstatements := statementsOf_eq_follow hsettled
    rw [← hstatements] at hstack
    refine ⟨hsettled, ?_⟩
    rw [extractRecords_eq, Extraction.finish, hpending]
    generalize (statementsOf text).foldl Extraction.obey {} = e at hstack hpending
    obtain ⟨stack, roots, pending⟩ := e
    cases hstack
    cases hpending
    simp [Extraction.behind, Extraction.closeAll]
  · rintro ⟨hsettled, hobeyed⟩
    have hstatements := statementsOf_eq_follow hsettled
    rw [hstatements] at hobeyed
    constructor
    · rw [hline]
      exact congrArg Extraction.stack hobeyed
    · rw [hline]
      exact hsettled

theorem BlocksClosed.append {x y : String} (hx : BlocksClosed x) (hy : BlocksClosed y)
    (hapart : Pending.sharesLine x.toList y.toList = false) :
    BlocksClosed (x ++ y) ∧ extractRecords (x ++ y) = extractRecords x ++ extractRecords y := by
  rw [blocksClosed_iff] at hx hy
  obtain ⟨hxsettled, hxobeyed⟩ := hx
  obtain ⟨hysettled, hyobeyed⟩ := hy
  have hfollow := hxsettled.follow_of_apart hapart
  have hsettled : Pending.Settled (x ++ y).toList := by
    rw [Pending.Settled, String.toList_append, hfollow]
    exact hysettled
  have hstatements : statementsOf (x ++ y) = statementsOf x ++ statementsOf y := by
    rw [statementsOf_eq_follow hsettled, statementsOf_eq_follow hxsettled,
      statementsOf_eq_follow hysettled, String.toList_append, hfollow]
  have hobeyed : (statementsOf (x ++ y)).foldl Extraction.obey {} =
      Extraction.behind (extractRecords x ++ extractRecords y) {} := by
    rw [hstatements, List.foldl_append, hxobeyed, Extraction.foldl_obey_behind, hyobeyed]
    simp [Extraction.behind]
  have hrecords : extractRecords (x ++ y) = extractRecords x ++ extractRecords y := by
    rw [extractRecords_eq, hobeyed]
    simp [Extraction.behind, Extraction.finish, Extraction.closeAll]
  refine ⟨blocksClosed_iff.mpr ⟨hsettled, ?_⟩, hrecords⟩
  rw [hrecords, hobeyed]

/-- How often, where the texts are put behind `before` one after the other, the last line so far and
the first line of the next text become one. -/
def sharedLines (before : String) : List String → Nat
  | [] => 0
  | y :: ys =>
    (if Pending.sharesLine before.toList y.toList then 1 else 0) + sharedLines (before ++ y) ys

theorem extractRecords_join {ys : List String} (hys : ∀ y ∈ ys, BlocksClosed y) {before : String}
    (hbefore : BlocksClosed before) (hapart : sharedLines before ys = 0) :
    extractRecords (before ++ String.join ys) =
      extractRecords before ++ ys.flatMap extractRecords := by
  induction ys generalizing before with
  | nil => simp
  | cons y ys ih =>
    obtain ⟨hy, hys⟩ := List.forall_mem_cons.mp hys
    obtain ⟨hfirst, hrest⟩ := Nat.add_eq_zero_iff.mp hapart
    obtain ⟨hclosed, hrecords⟩ := hbefore.append hy (by simpa using hfirst)
    have hjoin : before ++ String.join (y :: ys) = before ++ y ++ String.join ys := by
      rw [String.join_cons, String.append_assoc]
    rw [hjoin, ih hys hclosed hrest, hrecords, List.flatMap_cons, List.append_assoc]

/-- The text begins with a line that opens a block or is blank. -/
def BeginsWithBlock (text : String) : Prop :=
  (∀ c ∈ firstLine text.toList, isBlank c) ∨
    ∃ tag, MarkupLine.read (firstLine text.toList) = .opening tag

theorem openings_append_text {x y : String} (hx : Pending.Settled x.toList)
    (hy : Pending.Settled y.toList) (hbegins : BeginsWithBlock y) :
    Pending.Settled (x ++ y).toList ∧ Pending.openings (statementsOf (x ++ y)) +
        (if Pending.sharesLine x.toList y.toList then 1 else 0) ≤
      Pending.openings (statementsOf x) + Pending.openings (statementsOf y) := by
  obtain ⟨hpending, hopened⟩ : (Pending.follow none (lines (x ++ y).toList)).2 = none ∧
      Pending.openings (Pending.follow none (lines (x ++ y).toList)).1 +
          (if Pending.sharesLine x.toList y.toList then 1 else 0) ≤
        Pending.openings (Pending.follow none (lines x.toList)).1 +
          Pending.openings (Pending.follow none (lines y.toList)).1 := by
    rw [String.toList_append]
    by_cases hshared : Pending.sharesLine x.toList y.toList
    · rcases hbegins with hblank | ⟨tag, htag⟩
      · simp only [Pending.sharesLine, List.all_eq_true.mpr hblank] at hshared
        simp at hshared
      · obtain ⟨hpending, hopened⟩ := hx.follow_of_shared hshared htag
        rw [if_pos hshared]
        exact ⟨hpending.trans hy, hopened⟩
    · rw [hx.follow_of_apart (by simpa using hshared), if_neg hshared, Pending.openings_append]
      exact ⟨hy, Nat.le_refl _⟩
  rw [statementsOf_eq_follow hpending, statementsOf_eq_follow hx, statementsOf_eq_follow hy]
  exact ⟨hpending, hopened⟩

/-- Every shared line costs at least the block that it should have opened. -/
theorem openings_join {ys : List String}
    (hys : ∀ y ∈ ys, Pending.Settled y.toList ∧ BeginsWithBlock y) {before : String}
    (hbefore : Pending.Settled before.toList) :
    Pending.openings (statementsOf (before ++ String.join ys)) + sharedLines before ys ≤
      Pending.openings (statementsOf before) + Pending.openings (ys.flatMap statementsOf) := by
  induction ys generalizing before with
  | nil => simp [sharedLines]
  | cons y ys ih =>
    obtain ⟨⟨hy, hbegins⟩, hys⟩ := List.forall_mem_cons.mp hys
    have hjoin : before ++ String.join (y :: ys) = before ++ y ++ String.join ys := by
      rw [String.join_cons, String.append_assoc]
    obtain ⟨hsettled, hopened⟩ := openings_append_text hbefore hy hbegins
    have hrest := ih hys hsettled
    rw [hjoin, sharedLines, List.flatMap_cons, Pending.openings_append]
    omega

theorem length_preorderAll (text : String) :
    (Record.preorderAll (extractRecords text)).length = Pending.openings (statementsOf text) := by
  have hblocks := congrArg List.length (map_alone_extractRecords text)
  rw [List.length_map] at hblocks
  rw [hblocks]
  simp [blocksOf, Pending.openings]

theorem length_preorderAll_flatMap (ys : List String) :
    (Record.preorderAll (ys.flatMap extractRecords)).length =
      Pending.openings (ys.flatMap statementsOf) := by
  induction ys with
  | nil => rfl
  | cons y ys ih =>
    rw [List.flatMap_cons, Record.preorderAll_append, List.length_append, ih, length_preorderAll,
      List.flatMap_cons, Pending.openings_append]

theorem blocksClosed_empty : BlocksClosed "" :=
  ⟨rfl, rfl⟩

theorem extractRecords_empty : extractRecords "" = [] := by
  rw [extractRecords_eq]
  exact Extraction.closeAll.eq_1 []

/-- The records of texts that are put together are theirs just when no two of them share a line. -/
theorem extractRecords_join_iff {ys : List String}
    (hys : ∀ y ∈ ys, BlocksClosed y ∧ BeginsWithBlock y) :
    extractRecords (String.join ys) = ys.flatMap extractRecords ↔ sharedLines "" ys = 0 := by
  constructor
  · intro h
    have hopened := @openings_join ys
      (fun y hy => ⟨(blocksClosed_iff.mp (hys y hy).1).1, (hys y hy).2⟩) ""
      (blocksClosed_iff.mp blocksClosed_empty).1
    have hsame := congrArg (fun rs => (Record.preorderAll rs).length) h
    simp only [length_preorderAll, length_preorderAll_flatMap] at hsame
    rw [String.empty_append, hsame] at hopened
    have hnone : Pending.openings (statementsOf "") = 0 := rfl
    omega
  · intro h
    have hjoin := extractRecords_join (fun y hy => (hys y hy).1) blocksClosed_empty h
    rwa [String.empty_append, extractRecords_empty] at hjoin

end CampaignMarkup
