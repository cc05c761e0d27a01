import CampaignMarkup.Editor.Word
import CampaignMarkup.Proofs.Text.Lines

/-! # Where words stand

The word under a cursor is a stretch of the line that the cursor is in, of word characters, and its
columns are where that stretch begins and ends. -/
namespace CampaignMarkup.Word

/-- The word stands in the line between these characters. -/
structure Spans (w : Word) (line before after : List Char) : Prop where
  line_eq : line = before ++ (w.text.toList ++ after)
  start_eq : w.start = before.length
  stop_eq : w.stop = before.length + w.text.toList.length
  nonempty : w.text.toList ≠ []
  isWordChar : ∀ c ∈ w.text.toList, Word.isWordChar c

variable {line column index : Nat} {before after cs : List Char} {c : Char} {w : Word}

/-- Word characters are taken on both sides of the one at the index. -/
theorem spans_around (line : Nat) (hindex : index = before.length) (hc : Word.isWordChar c) :
    (around line index before c after).Spans (before.reverse ++ c :: after)
      (before.dropWhile Word.isWordChar).reverse (after.dropWhile Word.isWordChar) := by
  have hbefore := congrArg List.reverse
    (List.takeWhile_append_dropWhile (p := Word.isWordChar) (l := before))
  have hafter := List.takeWhile_append_dropWhile (p := Word.isWordChar) (l := after)
  have hlength := congrArg List.length hbefore
  rw [List.reverse_append] at hbefore hlength
  simp only [List.length_append, List.length_reverse] at hlength
  constructor
  · rw [around, String.toList_ofList]
    calc before.reverse ++ c :: after
        = ((before.dropWhile Word.isWordChar).reverse ++
            (before.takeWhile Word.isWordChar).reverse) ++
            c :: (after.takeWhile Word.isWordChar ++ after.dropWhile Word.isWordChar) := by
          rw [hbefore, hafter]
      _ = _ := by simp
  · simp only [around, List.length_reverse]
    omega
  · simp only [around, String.toList_ofList, List.length_append, List.length_cons,
      List.length_reverse]
    omega
  · simp [around]
  · intro d hd
    rw [around, String.toList_ofList] at hd
    rcases List.mem_append.mp hd with hd | hd
    · exact List.mem_takeWhile_imp (List.mem_reverse.mp hd)
    · rcases List.mem_cons.mp hd with rfl | hd
      · exact hc
      · exact List.mem_takeWhile_imp hd

/-- A cursor is on a character of a line that has any, on the last one if it is behind the line. -/
theorem exists_cursor (hne : cs ≠ []) (column : Nat) :
    ∃ (before : List Char) (c : Char) (after : List Char), cs = before.reverse ++ c :: after ∧
      before.length = min column (cs.length - 1) := by
  have hpos := List.length_pos_iff.mpr hne
  have hindex : min column (cs.length - 1) < cs.length := by omega
  refine ⟨(cs.take (min column (cs.length - 1))).reverse, cs[min column (cs.length - 1)],
    cs.drop (min column (cs.length - 1) + 1), ?_, ?_⟩
  · rw [List.reverse_reverse, List.getElem_cons_drop, List.take_append_drop]
  · rw [List.length_reverse, List.length_take]
    omega

theorem inLine?_nil (line column : Nat) : inLine? line [] column = none := by
  simp [inLine?]

/-- The word around the character that the cursor is on, or around the one before it. -/
theorem inLine?_eq (line : Nat)
    (hindex : before.length = min column ((before.reverse ++ c :: after).length - 1)) :
    inLine? line (before.reverse ++ c :: after) column =
      if Word.isWordChar c then some (around line before.length before c after)
      else
        match before with
        | b :: earlier =>
          if Word.isWordChar b then some (around line earlier.length earlier b (c :: after))
          else none
        | [] => none := by
  have htake : (before.reverse ++ c :: after).take before.length = before.reverse := by
    rw [← List.length_reverse, List.take_left]
  have hdrop : (before.reverse ++ c :: after).drop before.length = c :: after := by
    rw [← List.length_reverse, List.drop_left]
  rw [inLine?, ← hindex, htake, hdrop, List.reverse_reverse]
  cases before <;> rfl

theorem spans_of_inLine? (h : inLine? line cs column = some w) :
    w.line = line ∧ ∃ before after, w.Spans cs before after := by
  by_cases hne : cs = []
  · rw [hne, inLine?_nil] at h
    cases h
  obtain ⟨before, c, after, rfl, hindex⟩ := exists_cursor hne column
  rw [inLine?_eq line hindex] at h
  split at h
  · next hc =>
    cases h
    exact ⟨rfl, _, _, spans_around line rfl hc⟩
  · split at h
    · next b earlier =>
      split at h
      · next hb =>
        cases h
        rw [List.reverse_cons, List.append_assoc, List.singleton_append]
        exact ⟨rfl, _, _, spans_around line rfl hb⟩
      · cases h
    · cases h

/-- The word under the cursor stands in the cursor's line. -/
theorem exists_spans {source : String} {p : Position} (h : at? source p = some w) :
    w.line = p.line ∧ ∃ line before after, Text.lineAt? source p.line = some line ∧
      w.Spans line before after := by
  obtain ⟨text, htext, hword⟩ := Option.bind_eq_some_iff.mp h
  obtain ⟨line, hline, rfl⟩ := Option.map_eq_some_iff.mp htext
  obtain ⟨hat, before, after, hspans⟩ := spans_of_inLine? hword
  obtain ⟨ending, hending, -⟩ := Chars.exists_dropEnding_return line
  refine ⟨hat, line, before, after ++ ending, hline, ?_⟩
  refine { hspans with line_eq := ?_ }
  rw [hending, hspans.line_eq]
  simp

end CampaignMarkup.Word
