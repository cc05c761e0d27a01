import CampaignMarkup.Text.Blank
import CampaignMarkup.Proofs.Token.Cuts

/-! # Lines and their edges

A text is cut into lines one by one, and a line loses exactly the blanks at its edges. -/
namespace CampaignMarkup

namespace Chars

open Text

theorem splitOn_ne_nil (sep : Char) (cs : List Char) : splitOn sep cs ≠ [] := by
  cases cs with
  | nil => simp [splitOn]
  | cons c cs =>
    rw [splitOn]
    split
    · simp
    · split <;> simp

theorem splitOn_of_not_mem {sep : Char} {cs : List Char} (h : sep ∉ cs) :
    splitOn sep cs = [cs] := by
  induction cs with
  | nil => rfl
  | cons c cs ih =>
    obtain ⟨hc, hcs⟩ : sep ≠ c ∧ sep ∉ cs := by simpa using h
    rw [splitOn, if_neg (Ne.symm hc), ih hcs]

theorem splitOn_append {sep : Char} {cs : List Char} (h : sep ∉ cs) (rest : List Char) :
    splitOn sep (cs ++ sep :: rest) = cs :: splitOn sep rest := by
  induction cs with
  | nil => simp [splitOn]
  | cons c cs ih =>
    obtain ⟨hc, hcs⟩ : sep ≠ c ∧ sep ∉ cs := by simpa using h
    rw [List.cons_append, splitOn, if_neg (Ne.symm hc), ih hcs]

theorem splitOnce_eq_none {sep : Char} {cs : List Char} : splitOnce sep cs = none ↔ sep ∉ cs := by
  induction cs with
  | nil => simp [splitOnce]
  | cons c cs ih =>
    by_cases hc : c = sep
    · simp [splitOnce, hc]
    · simp [splitOnce, hc, ih, Ne.symm hc]

theorem splitOnce_eq_some {sep : Char} {cs before after : List Char} :
    splitOnce sep cs = some (before, after) ↔ cs = before ++ sep :: after ∧ sep ∉ before := by
  induction cs generalizing before with
  | nil => simp [splitOnce]
  | cons c cs ih =>
    by_cases hc : c = sep
    · cases before with
      | nil => simp [splitOnce, hc]
      | cons b before =>
        simp only [splitOnce, if_pos hc, List.cons_append, List.cons.injEq, List.mem_cons, not_or]
        constructor
        · intro h
          cases h
        · rintro ⟨⟨rfl, -⟩, hne, -⟩
          exact absurd hc.symm hne
    · cases before with
      | nil => simp [splitOnce, hc]
      | cons b before =>
        have hmap : splitOnce sep (c :: cs) = some (b :: before, after) ↔
            splitOnce sep cs = some (before, after) ∧ c = b := by
          simp [splitOnce, hc]
        rw [hmap, ih]
        simp only [List.cons_append, List.cons.injEq, List.mem_cons, not_or]
        constructor
        · rintro ⟨⟨rfl, hmem⟩, rfl⟩
          exact ⟨⟨rfl, rfl⟩, Ne.symm hc, hmem⟩
        · rintro ⟨⟨rfl, rfl⟩, -, hmem⟩
          exact ⟨⟨rfl, hmem⟩, rfl⟩

/-- A text is its last line, or a line, a line feed and a text. -/
@[elab_as_elim]
theorem line_induction {P : List Char → Prop} (last : ∀ line, '\n' ∉ line → P line)
    (cons : ∀ line rest, '\n' ∉ line → P rest → P (line ++ '\n' :: rest)) (cs : List Char) :
    P cs := by
  cases hcut : splitOnce '\n' cs with
  | none => exact last cs (splitOnce_eq_none.mp hcut)
  | some cut =>
    obtain ⟨line, rest⟩ := cut
    have hshorter := splitOnce_length_lt hcut
    obtain ⟨rfl, hline⟩ := splitOnce_eq_some.mp hcut
    exact cons line rest hline (line_induction last cons rest)
termination_by cs.length

theorem lines_nil : lines [] = [] := rfl

/-- The last line, if no line feed ends it. -/
theorem lines_of_not_mem {cs : List Char} (hne : cs ≠ []) (h : '\n' ∉ cs) : lines cs = [cs] := by
  obtain ⟨c, cs, rfl⟩ := List.exists_cons_of_ne_nil hne
  simp [lines, splitOn_of_not_mem h]

theorem lines_append {cs : List Char} (h : '\n' ∉ cs) (rest : List Char) :
    lines (cs ++ '\n' :: rest) = dropEnding ['\r'] cs :: lines rest := by
  obtain ⟨piece, pieces, hpieces⟩ := List.exists_cons_of_ne_nil (splitOn_ne_nil '\n' rest)
  simp only [lines, splitOn_append h, hpieces, List.dropLast_cons_cons, List.getLast?_cons_cons,
    List.map_cons]
  split <;> simp_all

theorem linesInclusive_of_not_mem {cs : List Char} (hne : cs ≠ []) (h : '\n' ∉ cs) :
    linesInclusive cs = [cs] := by
  induction cs with
  | nil => exact absurd rfl hne
  | cons c cs ih =>
    obtain ⟨hc, hcs⟩ : '\n' ≠ c ∧ '\n' ∉ cs := by simpa using h
    rw [linesInclusive, if_neg (Ne.symm hc)]
    cases cs with
    | nil => rfl
    | cons d cs => rw [ih (by simp) hcs]

theorem linesInclusive_append {cs : List Char} (h : '\n' ∉ cs) (rest : List Char) :
    linesInclusive (cs ++ '\n' :: rest) = (cs ++ ['\n']) :: linesInclusive rest := by
  induction cs with
  | nil => simp [linesInclusive]
  | cons c cs ih =>
    obtain ⟨hc, hcs⟩ : '\n' ≠ c ∧ '\n' ∉ cs := by simpa using h
    rw [List.cons_append, linesInclusive, if_neg (Ne.symm hc), ih hcs]
    rfl

theorem dropEnding_of_not_mem {c : Char} {cs : List Char} (h : c ∉ cs) :
    dropEnding [c] cs = cs := by
  apply dropEnding_of_not_suffix
  rintro ⟨rest, rfl⟩
  simp at h

/-- The text without the carriage returns that stand in front of line feeds. -/
def unreturned : List Char → List Char
  | [] => []
  | c :: cs => if c = '\r' ∧ cs.head? = some '\n' then unreturned cs else c :: unreturned cs

theorem unreturned_of_not_mem {cs : List Char} (h : '\n' ∉ cs) : unreturned cs = cs := by
  induction cs with
  | nil => rfl
  | cons c cs ih =>
    obtain ⟨-, hcs⟩ : '\n' ≠ c ∧ '\n' ∉ cs := by simpa using h
    rw [unreturned, ih hcs, if_neg]
    rintro ⟨-, hhead⟩
    exact hcs (List.mem_of_head? hhead)

theorem unreturned_append {line : List Char} (h : '\n' ∉ line) (rest : List Char) :
    unreturned (line ++ '\n' :: rest) = dropEnding ['\r'] line ++ '\n' :: unreturned rest := by
  induction line with
  | nil => rfl
  | cons c line ih =>
    obtain ⟨-, hline⟩ : '\n' ≠ c ∧ '\n' ∉ line := by simpa using h
    rw [List.cons_append, unreturned, ih hline]
    cases line with
    | nil =>
      by_cases hc : c = '\r'
      · subst hc
        rfl
      · have hkept : dropEnding ['\r'] [c] = [c] := dropEnding_of_not_mem (by simp [Ne.symm hc])
        rw [if_neg (fun hboth => hc hboth.1), hkept]
        rfl
    | cons d line =>
      have hd : d ≠ '\n' := by
        rintro rfl
        simp at hline
      rw [if_neg (fun hboth => hd (Option.some.inj hboth.2))]
      by_cases hsuffix : ['\r'] <:+ d :: line
      · obtain ⟨front, hfront⟩ := hsuffix
        have hwhole : dropEnding ['\r'] (c :: (front ++ ['\r'])) = c :: front :=
          dropEnding_append (c :: front) ['\r']
        rw [← hfront, dropEnding_append, hwhole]
        rfl
      · have hlonger : ¬ ['\r'] <:+ c :: d :: line := by
          rw [List.suffix_cons_iff]
          simp [hsuffix]
        rw [dropEnding_of_not_suffix hsuffix, dropEnding_of_not_suffix hlonger]
        rfl

theorem unreturned_sublist (cs : List Char) : (unreturned cs).Sublist cs := by
  induction cs with
  | nil => exact .slnil
  | cons c cs ih =>
    rw [unreturned]
    split
    · exact ih.cons c
    · exact ih.cons_cons c

theorem unreturned_eq_self_iff {cs : List Char} :
    unreturned cs = cs ↔ ¬ ['\r', '\n'] <:+: cs := by
  induction cs with
  | nil => decide
  | cons c cs ih =>
    rw [unreturned, List.infix_cons_iff, not_or, ← ih]
    have hstart : ['\r', '\n'] <+: c :: cs ↔ c = '\r' ∧ cs.head? = some '\n' := by
      cases cs with
      | nil => simp
      | cons d cs => simp [List.cons_prefix_cons, eq_comm]
    rw [hstart]
    split
    · next hboth =>
      constructor
      · intro heq
        have hlength := (unreturned_sublist cs).length_le
        rw [heq, List.length_cons] at hlength
        omega
      · intro hnot
        exact absurd hboth hnot.1
    · next hboth => simp [hboth]

/-- What is trimmed at the end is blank, and what is left does not end in a blank. -/
theorem exists_trimEnd (cs : List Char) : ∃ blanks, cs = trimEnd cs ++ blanks ∧
    (∀ c ∈ blanks, isBlank c) ∧ ∀ c ∈ (trimEnd cs).getLast?, isBlank c = false := by
  refine ⟨(cs.reverse.takeWhile isBlank).reverse, ?_, ?_, ?_⟩
  · rw [trimEnd, ← List.reverse_append, List.takeWhile_append_dropWhile, List.reverse_reverse]
  · intro c hc
    exact List.mem_takeWhile_imp (List.mem_reverse.mp hc)
  · intro c hc
    rw [trimEnd, List.getLast?_reverse] at hc
    exact head?_dropWhile c hc

theorem trimEnd_append {cs blanks : List Char} (hcs : ∀ c ∈ cs.getLast?, isBlank c = false)
    (hblanks : ∀ c ∈ blanks, isBlank c) : trimEnd (cs ++ blanks) = cs := by
  rw [trimEnd, List.reverse_append, dropWhile_run (by simpa using hblanks), List.reverse_reverse]
  rwa [List.head?_reverse]

theorem trimEnd_append_left {cs ds : List Char} (h : ∀ c ∈ cs.getLast?, isBlank c = false) :
    trimEnd (cs ++ ds) = cs ++ trimEnd ds := by
  obtain ⟨blanks, hds, hblank, hlast⟩ := exists_trimEnd ds
  have hends : ∀ c ∈ (cs ++ trimEnd ds).getLast?, isBlank c = false := by
    intro c hc
    rcases List.eq_nil_or_concat (trimEnd ds) with hnil | ⟨_, d, hd⟩
    · rw [hnil, List.append_nil] at hc
      exact h c hc
    · rw [hd] at hc hlast
      exact hlast c (by simpa using hc)
  calc trimEnd (cs ++ ds)
      = trimEnd ((cs ++ trimEnd ds) ++ blanks) := by rw [List.append_assoc, ← hds]
    _ = cs ++ trimEnd ds := trimEnd_append hends hblank

theorem trimEnd_eq_self_iff {cs : List Char} :
    trimEnd cs = cs ↔ ∀ c ∈ cs.getLast?, isBlank c = false := by
  constructor
  · intro h
    obtain ⟨_, _, _, hlast⟩ := exists_trimEnd cs
    rwa [h] at hlast
  · intro h
    have htrim := @trimEnd_append cs [] h (by simp)
    rwa [List.append_nil] at htrim

theorem trimStart_eq_self {cs : List Char} (h : ∀ c ∈ cs.head?, isBlank c = false) :
    trimStart cs = cs := by
  cases cs with
  | nil => rfl
  | cons c cs => simp [trimStart, h c rfl]

theorem trimStart_trimEnd {cs : List Char} (h : ∀ c ∈ cs.head?, isBlank c = false) :
    trimStart (trimEnd cs) = trimEnd cs := by
  obtain ⟨blanks, hcut, -, -⟩ := exists_trimEnd cs
  apply trimStart_eq_self
  intro c hc
  apply h c
  rw [hcut, List.head?_append, Option.mem_def.mp hc]
  rfl

theorem trim_eq_self {cs : List Char} (hhead : ∀ c ∈ cs.head?, isBlank c = false)
    (hlast : ∀ c ∈ cs.getLast?, isBlank c = false) : trim cs = cs := by
  rw [trim, trimStart_eq_self hhead, trimEnd_eq_self_iff.mpr hlast]

theorem not_blank_of_concat {cs : List Char} {c : Char} (h : isBlank c = false) :
    ∀ d ∈ (cs ++ [c]).getLast?, isBlank d = false := by
  intro d hd
  rw [List.getLast?_concat] at hd
  cases hd
  exact h

theorem trim_delimited {opening closing : Char} (hopening : isBlank opening = false)
    (hclosing : isBlank closing = false) (cs : List Char) :
    trim (opening :: (cs ++ [closing])) = opening :: (cs ++ [closing]) := by
  apply trim_eq_self
  · intro c hc
    cases hc
    exact hopening
  · rw [← List.cons_append]
    exact not_blank_of_concat hclosing

/-- The text that is left of a line, between the blanks at its edges. -/
theorem exists_trim (cs : List Char) : ∃ before after, cs = before ++ (trim cs ++ after) ∧
    (∀ c ∈ before, isBlank c) ∧ ∀ c ∈ after, isBlank c := by
  obtain ⟨after, hafter, hblank, -⟩ := exists_trimEnd (trimStart cs)
  refine ⟨cs.takeWhile isBlank, after, ?_, fun c hc => List.mem_takeWhile_imp hc, hblank⟩
  rw [trim, ← hafter, trimStart, List.takeWhile_append_dropWhile]

theorem trimEnd_append_blanks (cs : List Char) {blanks : List Char} (h : ∀ c ∈ blanks, isBlank c) :
    trimEnd (cs ++ blanks) = trimEnd cs := by
  obtain ⟨more, hcs, hmore, hlast⟩ := exists_trimEnd cs
  have hall : ∀ c ∈ more ++ blanks, isBlank c := by
    intro c hc
    rcases List.mem_append.mp hc with hc | hc
    · exact hmore c hc
    · exact h c hc
  calc trimEnd (cs ++ blanks)
      = trimEnd (trimEnd cs ++ (more ++ blanks)) := by rw [← List.append_assoc, ← hcs]
    _ = trimEnd cs := trimEnd_append hlast hall

theorem trim_blanks_append {blanks : List Char} (h : ∀ c ∈ blanks, isBlank c) (cs : List Char) :
    trim (blanks ++ cs) = trim cs := by
  rw [trim, trimStart, List.dropWhile_append_of_pos h]
  rfl

theorem trim_append_blanks (cs : List Char) {blanks : List Char} (h : ∀ c ∈ blanks, isBlank c) :
    trim (cs ++ blanks) = trim cs := by
  by_cases hcs : ∀ c ∈ cs, isBlank c
  · rw [trim_blanks_append hcs, ← List.append_nil blanks, trim_blanks_append h,
      ← List.append_nil cs, trim_blanks_append hcs]
  · have hstart : trimStart (cs ++ blanks) = trimStart cs ++ blanks := by
      rw [trimStart, List.dropWhile_append, if_neg]
      · rfl
      · simpa using hcs
    rw [trim, hstart, trimEnd_append_blanks _ h]
    rfl

theorem exists_dropEnding_return (cs : List Char) :
    ∃ blanks, cs = dropEnding ['\r'] cs ++ blanks ∧ ∀ c ∈ blanks, isBlank c := by
  by_cases h : ['\r'] <:+ cs
  · obtain ⟨line, rfl⟩ := h
    rw [dropEnding_append]
    exact ⟨['\r'], rfl, List.forall_mem_singleton.mpr (by decide)⟩
  · rw [dropEnding_of_not_suffix h]
    exact ⟨[], (List.append_nil cs).symm, by simp⟩

theorem trimEnd_dropEnding_return (cs : List Char) :
    trimEnd (dropEnding ['\r'] cs) = trimEnd cs := by
  obtain ⟨blanks, hcs, hblanks⟩ := exists_dropEnding_return cs
  have htrim := trimEnd_append_blanks (dropEnding ['\r'] cs) hblanks
  rw [← hcs] at htrim
  exact htrim.symm

/-- The carriage return that belongs to the end of a line is a blank at its edge. -/
theorem trim_dropEnding_return (cs : List Char) : trim (dropEnding ['\r'] cs) = trim cs := by
  obtain ⟨blanks, hcs, hblanks⟩ := exists_dropEnding_return cs
  have htrim := trim_append_blanks (dropEnding ['\r'] cs) hblanks
  rw [← hcs] at htrim
  exact htrim.symm

/-- The lines that a line feed ends. -/
def endedLines (cs : List Char) : List (List Char) :=
  (splitOn '\n' cs).dropLast

/-- What stands behind the last line feed. -/
def unended (cs : List Char) : List Char :=
  (splitOn '\n' cs).getLastD []

theorem endedLines_of_not_mem {cs : List Char} (h : '\n' ∉ cs) : endedLines cs = [] := by
  rw [endedLines, splitOn_of_not_mem h]
  rfl

theorem unended_of_not_mem {cs : List Char} (h : '\n' ∉ cs) : unended cs = cs := by
  rw [unended, splitOn_of_not_mem h]
  rfl

theorem endedLines_append {line : List Char} (h : '\n' ∉ line) (rest : List Char) :
    endedLines (line ++ '\n' :: rest) = line :: endedLines rest := by
  rw [endedLines, splitOn_append h, List.dropLast_cons_of_ne_nil (splitOn_ne_nil '\n' rest)]
  rfl

theorem unended_append (line rest : List Char) : unended (line ++ '\n' :: rest) = unended rest := by
  induction line using line_induction with
  | last line hline =>
    obtain ⟨piece, pieces, hpieces⟩ := List.exists_cons_of_ne_nil (splitOn_ne_nil '\n' rest)
    simp [unended, splitOn_append hline, hpieces]
  | cons line more hline ih =>
    obtain ⟨piece, pieces, hpieces⟩ :=
      List.exists_cons_of_ne_nil (splitOn_ne_nil '\n' (more ++ '\n' :: rest))
    rw [← ih, List.append_assoc, List.cons_append]
    simp [unended, splitOn_append hline, hpieces]

theorem not_mem_unended (cs : List Char) : '\n' ∉ unended cs := by
  induction cs using line_induction with
  | last cs hcs => rwa [unended_of_not_mem hcs]
  | cons line rest _ ih => rwa [unended_append]

theorem not_mem_of_mem_endedLines {cs line : List Char} (h : line ∈ endedLines cs) :
    '\n' ∉ line := by
  induction cs using line_induction with
  | last cs hcs =>
    rw [endedLines_of_not_mem hcs] at h
    cases h
  | cons first rest hfirst ih =>
    rw [endedLines_append hfirst] at h
    rcases List.mem_cons.mp h with rfl | h
    · exact hfirst
    · exact ih h

/-- The ended lines and what stands behind them are the whole text. -/
theorem flatMap_endedLines (cs : List Char) :
    (endedLines cs).flatMap (· ++ ['\n']) ++ unended cs = cs := by
  induction cs using line_induction with
  | last cs hcs =>
    rw [endedLines_of_not_mem hcs, unended_of_not_mem hcs]
    rfl
  | cons line rest hline ih =>
    rw [endedLines_append hline, unended_append, List.flatMap_cons, List.append_assoc, ih]
    simp

/-- More text goes on in the line that is not ended. -/
theorem endedLines_append_text (cs ds : List Char) :
    endedLines (cs ++ ds) = endedLines cs ++ endedLines (unended cs ++ ds) := by
  induction cs using line_induction with
  | last cs hcs =>
    rw [endedLines_of_not_mem hcs, unended_of_not_mem hcs]
    rfl
  | cons line rest hline ih =>
    rw [List.append_assoc, List.cons_append, endedLines_append hline, endedLines_append hline,
      unended_append, ih]
    rfl

theorem unended_append_text (cs ds : List Char) :
    unended (cs ++ ds) = unended (unended cs ++ ds) := by
  induction cs using line_induction with
  | last cs hcs => rw [unended_of_not_mem hcs]
  | cons line rest hline ih =>
    rw [List.append_assoc, List.cons_append, unended_append, unended_append, ih]

theorem lines_eq_ended (cs : List Char) :
    lines cs = (endedLines cs).map (dropEnding ['\r']) ++
      if unended cs = [] then [] else [unended cs] := by
  obtain ⟨front, last, hpieces⟩ : ∃ front last, splitOn '\n' cs = front ++ [last] := by
    rcases List.eq_nil_or_concat (splitOn '\n' cs) with hnil | ⟨front, last, hlast⟩
    · exact absurd hnil (splitOn_ne_nil '\n' cs)
    · exact ⟨front, last, by rw [hlast, List.concat_eq_append]⟩
  cases last with
  | nil => simp [lines, endedLines, unended, hpieces]
  | cons c last => simp [lines, endedLines, unended, hpieces]

/-- The line of that number: so many line feeds stand before it, it begins behind one or at the
start, and it ends before one or at the end. -/
def IsLine (cs : List Char) (n : Nat) (line : List Char) : Prop :=
  ∃ before after, cs = before ++ (line ++ after) ∧ before.count '\n' = n ∧
    (before = [] ∨ before.getLast? = some '\n') ∧ '\n' ∉ line ∧
    (after = [] ∨ after.head? = some '\n')

theorem isLine_of_getElem? {cs line : List Char} {n : Nat}
    (h : (splitOn '\n' cs)[n]? = some line) : IsLine cs n line := by
  induction cs using line_induction generalizing n with
  | last whole hwhole =>
    rw [splitOn_of_not_mem hwhole] at h
    obtain ⟨rfl, rfl⟩ : n = 0 ∧ whole = line := by
      cases n with
      | zero => simpa using h
      | succ n => simp at h
    exact ⟨[], [], by simp, rfl, .inl rfl, hwhole, .inl rfl⟩
  | cons first rest hfirst ih =>
    rw [splitOn_append hfirst] at h
    cases n with
    | zero =>
      obtain rfl : first = line := by simpa using h
      exact ⟨[], '\n' :: rest, rfl, rfl, .inl rfl, hfirst, .inr rfl⟩
    | succ n =>
      obtain ⟨before, after, rfl, rfl, hbefore, hline, hafter⟩ := ih h
      refine ⟨first ++ '\n' :: before, after, by simp, ?_, .inr ?_, hline, hafter⟩
      · rw [List.count_append, List.count_eq_zero.mpr hfirst, List.count_cons_self, Nat.zero_add]
      · rcases hbefore with rfl | hlast
        · simp
        · simp [List.getLast?_cons, hlast]

theorem IsLine.getElem?_splitOn {cs line : List Char} {n : Nat} (h : IsLine cs n line) :
    (splitOn '\n' cs)[n]? = some line := by
  obtain ⟨before, after, rfl, rfl, hbefore, hline, hafter⟩ := h
  induction before using line_induction with
  | last front hfront =>
    obtain rfl : front = [] := by
      rcases hbefore with hnil | hlast
      · exact hnil
      · exact absurd (List.mem_of_getLast? hlast) hfront
    rcases hafter with rfl | hhead
    · rw [List.append_nil, List.nil_append, splitOn_of_not_mem hline]
      rfl
    · obtain ⟨rest, rfl⟩ := List.head?_eq_some_iff.mp hhead
      rw [List.nil_append, splitOn_append hline]
      rfl
  | cons first rest hfirst ih =>
    have hrest : rest = [] ∨ rest.getLast? = some '\n' := by
      cases rest with
      | nil => exact .inl rfl
      | cons c rest => simpa [List.getLast?_append, List.getLast?_cons] using hbefore
    rw [List.append_assoc, List.cons_append, splitOn_append hfirst, List.count_append,
      List.count_eq_zero.mpr hfirst, List.count_cons_self, Nat.zero_add]
    exact ih hrest

theorem getElem?_splitOn_iff {cs line : List Char} {n : Nat} :
    (splitOn '\n' cs)[n]? = some line ↔ IsLine cs n line :=
  ⟨isLine_of_getElem?, IsLine.getElem?_splitOn⟩

theorem dropEnding_return_iff {cs line : List Char} :
    dropEnding ['\r'] cs = line ↔
      cs = line ++ ['\r'] ∨ cs = line ∧ line.getLast? ≠ some '\r' := by
  by_cases h : ['\r'] <:+ cs
  · obtain ⟨front, rfl⟩ := h
    rw [dropEnding_append, List.append_left_inj]
    constructor
    · exact .inl
    · rintro (rfl | ⟨rfl, hlast⟩)
      · rfl
      · exact absurd List.getLast?_concat hlast
  · rw [dropEnding_of_not_suffix h]
    constructor
    · rintro rfl
      refine .inr ⟨rfl, ?_⟩
      intro hlast
      obtain ⟨front, rfl⟩ := List.getLast?_eq_some_iff.mp hlast
      exact h ⟨front, rfl⟩
    · rintro (rfl | ⟨rfl, -⟩)
      · exact absurd ⟨line, rfl⟩ h
      · rfl

end Chars

end CampaignMarkup
