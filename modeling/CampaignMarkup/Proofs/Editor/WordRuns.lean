import CampaignMarkup.Proofs.Editor.WordSpans

/-! # The word under a cursor is a maximal run

A cursor behind the end of its line counts as on the last character. The word is the run of word
characters around the character that the cursor is on, or around the one before it, and nothing can
be added to the run at either end. -/
namespace CampaignMarkup.Word

variable {line before after cs : List Char} {c : Char}
  {start stop start' stop' column i n : Nat} {w : Word}

/-- The line of that number. A return at its end is no part of it. -/
def IsLineText (source : String) (n : Nat) (line : List Char) : Prop :=
  Chars.IsLine source.toList n (line ++ ['\r']) ∨
    Chars.IsLine source.toList n line ∧ line.getLast? ≠ some '\r'

/-- The place of the character that the cursor is on. -/
def cursor (line : List Char) (column : Nat) : Nat :=
  min column (line.length - 1)

/-- A word character stands at that place. -/
def CharAt (cs : List Char) (i : Nat) : Prop :=
  ∃ c, cs[i]? = some c ∧ isWordChar c

/-- Word characters from `start` up to `stop`, at least one. -/
structure IsRun (line : List Char) (start stop : Nat) : Prop where
  nonempty : start < stop
  bounded : stop ≤ line.length
  chars : ∀ i, start ≤ i → i < stop → CharAt line i

/-- A run that is no part of a longer one. -/
structure IsMaximalRun (line : List Char) (start stop : Nat) : Prop
    extends IsRun line start stop where
  maximal : ∀ start' stop', IsRun line start' stop' → start' ≤ start → stop ≤ stop' →
    start' = start ∧ stop' = stop

/-- The word is a maximal run with what stands there, and the cursor is on it, or just behind it on
a character of no word. -/
structure IsUnder (w : Word) (line : List Char) (column : Nat) : Prop where
  run : IsMaximalRun line w.start w.stop
  text_eq : w.text.toList = (line.drop w.start).take (w.stop - w.start)
  cursor_lt : cursor line column < line.length
  on_cursor : CharAt line (cursor line column) →
    w.start ≤ cursor line column ∧ cursor line column < w.stop
  before_cursor : ¬ CharAt line (cursor line column) →
    w.start < cursor line column ∧ cursor line column ≤ w.stop

/-- There is no word to be found: the line is empty, or the cursor is on a character of no word and
there is none just before it. -/
def NoneUnder (line : List Char) (column : Nat) : Prop :=
  line = [] ∨ cursor line column < line.length ∧ ¬ CharAt line (cursor line column) ∧
    (cursor line column = 0 ∨ ¬ CharAt line (cursor line column - 1))

theorem lineText?_eq_some_iff {source : String} :
    lineText? source n = some line ↔ IsLineText source n line := by
  simp only [lineText?, Text.lineAt?, Option.map_eq_some_iff, Chars.getElem?_splitOn_iff,
    Chars.dropEnding_return_iff, IsLineText]
  constructor
  · rintro ⟨whole, hwhole, rfl | ⟨rfl, hlast⟩⟩
    · exact .inl hwhole
    · exact .inr ⟨hwhole, hlast⟩
  · rintro (hwhole | ⟨hwhole, hlast⟩)
    · exact ⟨_, hwhole, .inl rfl⟩
    · exact ⟨_, hwhole, .inr ⟨rfl, hlast⟩⟩

theorem lineText?_eq_none_iff {source : String} :
    lineText? source n = none ↔ ∀ line, ¬ IsLineText source n line := by
  simp only [Option.eq_none_iff_forall_ne_some, ne_eq, lineText?_eq_some_iff]

theorem IsLineText.unique {source : String} (h : IsLineText source n line)
    (h' : IsLineText source n cs) : line = cs := by
  rw [← lineText?_eq_some_iff] at h h'
  rw [h] at h'
  exact Option.some.inj h'

/-- Two runs with a place in common lie in one run. -/
theorem IsRun.union (h : IsRun line start stop) (h' : IsRun line start' stop') (hi : start ≤ i)
    (hi' : i < stop) (hj : start' ≤ i) (hj' : i < stop') :
    IsRun line (min start start') (max stop stop') where
  nonempty := by omega
  bounded := by
    have hbounded := h.bounded
    have hbounded' := h'.bounded
    omega
  chars j hlow hhigh := by
    rcases Nat.lt_or_ge j i with hji | hji
    · by_cases hstart : start ≤ j
      · exact h.chars j hstart (by omega)
      · exact h'.chars j (by omega) (by omega)
    · by_cases hstop : j < stop
      · exact h.chars j (by omega) hstop
      · exact h'.chars j (by omega) (by omega)

/-- No two maximal runs have a place in common. -/
theorem IsMaximalRun.unique (h : IsMaximalRun line start stop)
    (h' : IsMaximalRun line start' stop') (hi : start ≤ i) (hi' : i < stop) (hj : start' ≤ i)
    (hj' : i < stop') : start = start' ∧ stop = stop' := by
  have hunion := h.toIsRun.union h'.toIsRun hi hi' hj hj'
  have hwide := h.maximal _ _ hunion (Nat.min_le_left _ _) (Nat.le_max_left _ _)
  have hwide' := h'.maximal _ _ hunion (Nat.min_le_right _ _) (Nat.le_max_right _ _)
  omega

theorem charAt_append_left (hbefore : before ≠ []) (rest : List Char) :
    CharAt (before ++ rest) (before.length - 1) ↔ ∃ c ∈ before.getLast?, isWordChar c := by
  have hlast : before.length - 1 < before.length := by
    have hpos := List.length_pos_iff.mpr hbefore
    omega
  rw [CharAt, List.getElem?_append_left hlast, List.getLast?_eq_getElem?]
  rfl

theorem charAt_append_right (before rest : List Char) :
    CharAt (before ++ rest) before.length ↔ ∃ c ∈ rest.head?, isWordChar c := by
  rw [CharAt, List.getElem?_append_right (Nat.le_refl _), Nat.sub_self, List.head?_eq_getElem?]
  rfl

/-- Where a word stands between characters of no word, its run is maximal. -/
theorem Spans.isMaximalRun (h : w.Spans line before after)
    (hbefore : ∀ c ∈ before.getLast?, Word.isWordChar c = false)
    (hafter : ∀ c ∈ after.head?, Word.isWordChar c = false) :
    IsMaximalRun line w.start w.stop := by
  obtain ⟨rfl, hstart, hstop, hne, hchars⟩ := h
  have hpos := List.length_pos_iff.mpr hne
  constructor
  · constructor
    · omega
    · simp only [List.length_append]
      omega
    · intro i hlow hhigh
      have hi : i - before.length < w.text.toList.length := by omega
      refine ⟨w.text.toList[i - before.length], ?_, hchars _ (List.getElem_mem hi)⟩
      rw [List.getElem?_append_right (by omega), List.getElem?_append_left hi,
        List.getElem?_eq_getElem hi]
  · intro start' stop' hrun hlow hhigh
    constructor
    · by_contra hstart'
      have hfront : before ≠ [] := List.ne_nil_of_length_pos (by omega)
      obtain ⟨c, hc, hword⟩ := (charAt_append_left hfront _).mp
        (hrun.chars (before.length - 1) (by omega) (by omega))
      rw [hbefore c hc] at hword
      cases hword
    · by_contra hstop'
      have hwider := hrun.chars (before ++ w.text.toList).length
        (by simp only [List.length_append]; omega) (by simp only [List.length_append]; omega)
      rw [← List.append_assoc, charAt_append_right] at hwider
      obtain ⟨c, hc, hword⟩ := hwider
      rw [hafter c hc] at hword
      cases hword

theorem Spans.text_eq (h : w.Spans line before after) :
    w.text.toList = (line.drop w.start).take (w.stop - w.start) := by
  rw [h.line_eq, h.start_eq, h.stop_eq, List.drop_left, Nat.add_sub_cancel_left, List.take_left]

/-- The word taken on both sides of a word character cannot be made longer. -/
theorem isMaximalRun_around (n : Nat) (hc : isWordChar c) :
    IsMaximalRun (before.reverse ++ c :: after) (around n before.length before c after).start
      (around n before.length before c after).stop := by
  apply (spans_around n rfl hc).isMaximalRun
  · intro d hd
    rw [List.getLast?_reverse] at hd
    exact Chars.head?_dropWhile d hd
  · exact Chars.head?_dropWhile

theorem around_start_le (n : Nat) (before : List Char) (c : Char) (after : List Char) :
    (around n before.length before c after).start ≤ before.length := by
  simp only [around]
  omega

theorem lt_around_stop (n : Nat) (before : List Char) (c : Char) (after : List Char) :
    before.length < (around n before.length before c after).stop := by
  simp only [around]
  omega

theorem charAt_cursor (before : List Char) (c : Char) (after : List Char) :
    CharAt (before.reverse ++ c :: after) before.length ↔ isWordChar c := by
  rw [← List.length_reverse, charAt_append_right]
  simp

/-- A cursor on a word character: the word is the run around it. -/
theorem isUnder_around (n : Nat)
    (hcursor : cursor (before.reverse ++ c :: after) column = before.length) (hc : isWordChar c) :
    (around n before.length before c after).IsUnder (before.reverse ++ c :: after) column where
  run := isMaximalRun_around n hc
  text_eq := (spans_around n rfl hc).text_eq
  cursor_lt := by
    rw [hcursor]
    simp
  on_cursor _ := by
    rw [hcursor]
    exact ⟨around_start_le n before c after, lt_around_stop n before c after⟩
  before_cursor hnone := by
    rw [hcursor, charAt_cursor] at hnone
    exact absurd hc hnone

/-- A cursor just behind a word character, on one of no word: the word is the run that ends
there. -/
theorem isUnder_around_before (n : Nat) {b : Char}
    (hcursor : cursor (before.reverse ++ b :: c :: after) column = before.length + 1)
    (hc : ¬ isWordChar c) (hb : isWordChar b) :
    (around n before.length before b (c :: after)).IsUnder
      (before.reverse ++ b :: c :: after) column where
  run := isMaximalRun_around n hb
  text_eq := (spans_around n rfl hb).text_eq
  cursor_lt := by
    rw [hcursor]
    simp
  on_cursor hon := by
    have hat := charAt_cursor (b :: before) c after
    rw [List.reverse_cons, List.append_assoc, List.singleton_append, List.length_cons,
      ← hcursor] at hat
    exact absurd (hat.mp hon) hc
  before_cursor _ := by
    rw [hcursor]
    exact ⟨Nat.lt_succ_of_le (around_start_le n before b _), lt_around_stop n before b _⟩

/-- Either no word is found and there is none, or the one found is the one under the cursor. -/
theorem inLine?_cases (n : Nat) (cs : List Char) (column : Nat) :
    (inLine? n cs column = none ∧ NoneUnder cs column) ∨
      ∃ w, inLine? n cs column = some w ∧ w.line = n ∧ w.IsUnder cs column := by
  by_cases hne : cs = []
  · left
    exact ⟨by rw [hne, inLine?_nil], .inl hne⟩
  obtain ⟨before, c, after, rfl, hindex⟩ := exists_cursor hne column
  have hcursor : cursor (before.reverse ++ c :: after) column = before.length := hindex.symm
  rw [inLine?_eq n hindex]
  by_cases hc : isWordChar c
  · right
    rw [if_pos hc]
    exact ⟨_, rfl, rfl, isUnder_around n hcursor hc⟩
  rw [if_neg hc]
  have hlt : before.length < (before.reverse ++ c :: after).length := by simp
  have hoff : ¬ CharAt (before.reverse ++ c :: after) before.length := by
    rwa [charAt_cursor]
  cases before with
  | nil =>
    left
    refine ⟨rfl, .inr ?_⟩
    rw [hcursor]
    exact ⟨hlt, hoff, .inl rfl⟩
  | cons b earlier =>
    have hline : (b :: earlier).reverse ++ c :: after = earlier.reverse ++ b :: c :: after := by
      simp
    by_cases hb : isWordChar b
    · right
      rw [hline] at hcursor ⊢
      simp only [if_pos hb]
      exact ⟨_, rfl, rfl, isUnder_around_before n hcursor hc hb⟩
    · left
      simp only [if_neg hb]
      refine ⟨trivial, .inr ?_⟩
      rw [hcursor]
      refine ⟨hlt, hoff, .inr ?_⟩
      rwa [hline, List.length_cons, Nat.add_sub_cancel, charAt_cursor]

/-- A cursor that is on no word character has one of the word's just before it. -/
theorem IsUnder.charAt (h : w.IsUnder cs column) (hoff : ¬ CharAt cs (cursor cs column)) :
    0 < cursor cs column ∧ CharAt cs (cursor cs column - 1) := by
  obtain ⟨hstart, hstop⟩ := h.before_cursor hoff
  exact ⟨by omega, h.run.chars _ (by omega) (by omega)⟩

theorem IsUnder.not_noneUnder (h : w.IsUnder cs column) : ¬ NoneUnder cs column := by
  rintro (rfl | ⟨-, hoff, hbefore⟩)
  · exact absurd h.cursor_lt (by simp)
  · obtain ⟨hpos, hat⟩ := h.charAt hoff
    rcases hbefore with hzero | hbefore
    · omega
    · exact hbefore hat

/-- There is one word under a cursor. -/
theorem IsUnder.unique {w' : Word} (h : w.IsUnder cs column) (h' : w'.IsUnder cs column)
    (hline : w.line = w'.line) : w = w' := by
  have hrun : w.start = w'.start ∧ w.stop = w'.stop := by
    by_cases hon : CharAt cs (cursor cs column)
    · obtain ⟨hlow, hhigh⟩ := h.on_cursor hon
      obtain ⟨hlow', hhigh'⟩ := h'.on_cursor hon
      exact h.run.unique h'.run hlow hhigh hlow' hhigh'
    · obtain ⟨hlow, hhigh⟩ := h.before_cursor hon
      obtain ⟨hlow', hhigh'⟩ := h'.before_cursor hon
      exact h.run.unique h'.run (Nat.le_sub_one_of_lt hlow) (by omega)
        (Nat.le_sub_one_of_lt hlow') (by omega)
  have htext : w.text = w'.text := by
    apply String.toList_injective
    rw [h.text_eq, h'.text_eq, hrun.1, hrun.2]
  cases w
  cases w'
  rw [Word.mk.injEq]
  exact ⟨htext, hline, hrun⟩

theorem inLine?_eq_none_iff : inLine? n cs column = none ↔ NoneUnder cs column := by
  rcases inLine?_cases n cs column with ⟨hnone, hunder⟩ | ⟨w, hsome, -, hunder⟩
  · exact iff_of_true hnone hunder
  · refine iff_of_false ?_ hunder.not_noneUnder
    rw [hsome]
    exact Option.some_ne_none w

theorem inLine?_eq_some_iff :
    inLine? n cs column = some w ↔ w.line = n ∧ w.IsUnder cs column := by
  rcases inLine?_cases n cs column with ⟨hnone, hunder⟩ | ⟨found, hsome, hline, hunder⟩
  · rw [hnone]
    refine iff_of_false (Option.some_ne_none w).symm ?_
    rintro ⟨-, hw⟩
    exact hw.not_noneUnder hunder
  · rw [hsome]
    constructor
    · rintro ⟨⟩
      exact ⟨hline, hunder⟩
    · rintro ⟨hw, hwunder⟩
      rw [hunder.unique hwunder (hline.trans hw.symm)]

/-- No word is under a cursor exactly where the line is missing or there is none to be found in it;
and the word that is found is the maximal run of word characters under the cursor. -/
theorem word_under_cursor_is_maximal_run (source : String) (p : Position) :
    (at? source p = none ↔ (∀ line, ¬ IsLineText source p.line line) ∨
      ∃ line, IsLineText source p.line line ∧ NoneUnder line p.column) ∧
    ∀ w : Word, at? source p = some w ↔
      w.line = p.line ∧ ∃ line, IsLineText source p.line line ∧ w.IsUnder line p.column := by
  constructor
  · rw [← lineText?_eq_none_iff, at?]
    cases htext : lineText? source p.line with
    | none => exact iff_of_true rfl (.inl rfl)
    | some text =>
      have hline := lineText?_eq_some_iff.mp htext
      rw [Option.bind_some, inLine?_eq_none_iff]
      constructor
      · intro hnone
        exact .inr ⟨text, hline, hnone⟩
      · rintro (hmissing | ⟨line, hother, hnone⟩)
        · cases hmissing
        · rwa [hline.unique hother]
  · intro w
    simp only [at?, Option.bind_eq_some_iff, lineText?_eq_some_iff, inLine?_eq_some_iff]
    constructor
    · rintro ⟨line, hline, hw, hunder⟩
      exact ⟨hw, line, hline, hunder⟩
    · rintro ⟨hw, line, hline, hunder⟩
      exact ⟨line, hline, hw, hunder⟩

example : at? "[unit]\r\n\t{GREET name}" ⟨1, 7⟩ = some ⟨"GREET", 1, 2, 7⟩ := by decide +kernel

end CampaignMarkup.Word
