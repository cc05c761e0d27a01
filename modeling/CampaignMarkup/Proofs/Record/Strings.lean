import CampaignMarkup.Proofs.Preprocess.Passage
import CampaignMarkup.Proofs.Record.Statements
import CampaignMarkup.Proofs.Token.Strings

/-! # Lines inside strings

The extractor follows quotes in the values of keys only. As long as every string that goes over the
end of a line begins in such a value, the pending value and a reader of the whole text have the same
strings open in front of every line, and no line inside a string is read. A string that begins
elsewhere sets the extractor adrift until it ends, and its lines are read like any others. -/
namespace CampaignMarkup

open Text Chars

namespace MarkupLine

def isAssignment : MarkupLine → Bool
  | .assignment _ _ => true
  | .opening _ | .closing _ | .other => false

theorem isInert_of_isNameChar {c : Char} (h : isNameChar c) : Delimiter.isInert c := by
  have hne : ∀ d, isNameChar d = false → c ≠ d := by
    rintro _ hd rfl
    simp [h] at hd
  simp [Delimiter.isInert, hne '"' (by decide), hne '<' (by decide), hne '>' (by decide)]

/-- In front of a value and behind it a line holds neither quotes nor angles. -/
theorem exists_value {line value : List Char} {key : String}
    (h : read line = .assignment key value) : ∃ before after, line = before ++ (value ++ after) ∧
      (∀ c ∈ before, Delimiter.isInert c) ∧ ∀ c ∈ after, Delimiter.isInert c := by
  obtain ⟨name, raw, hline, -, hname, htrim, rfl⟩ :=
    assignment?_eq_some.mp (read_eq_assignment.mp h)
  obtain ⟨edge, after, hwhole, hedge, hafter⟩ := exists_trim line
  obtain ⟨left, right, hkey, hleft, hright⟩ := exists_trim name
  refine ⟨edge ++ (name ++ '=' :: raw.takeWhile isBlank), after, ?_, ?_, ?_⟩
  · have hraw : raw = raw.takeWhile isBlank ++ Chars.trimStart raw :=
      List.takeWhile_append_dropWhile.symm
    calc line
        = edge ++ ((name ++ '=' :: raw) ++ after) := by rw [← hline, ← hwhole]
      _ = edge ++ (name ++ '=' :: raw.takeWhile isBlank) ++ (Chars.trimStart raw ++ after) := by
        nth_rewrite 1 [hraw]
        simp
  · intro c hc
    rw [hkey] at hc
    simp only [List.mem_append, List.mem_cons] at hc
    rcases hc with hc | (hc | hc | hc) | rfl | hc
    · exact Delimiter.isInert_of_isBlank (hedge c hc)
    · exact Delimiter.isInert_of_isBlank (hleft c hc)
    · exact isInert_of_isNameChar (hname.chars c (htrim ▸ hc))
    · exact Delimiter.isInert_of_isBlank (hright c hc)
    · decide
    · exact Delimiter.isInert_of_isBlank (List.mem_takeWhile_imp hc)
  · exact fun c hc => Delimiter.isInert_of_isBlank (hafter c hc)

end MarkupLine

namespace Pending

open Delimiter

/-- The reader has the string open that the pending value leaves open, and none if nothing is
pending. -/
def InStep (p : Pending) (d : Delimiter) : Prop :=
  match p with
  | none => d = .plain
  | some (_, value) => Delimiter.closed value = false ∧ d = afterLine .plain value

theorem afterLine_eq_plain {d : Delimiter} {line : List Char} (h : (d.afterLine line).isOutside) :
    d.afterLine line = .plain :=
  step_eq_plain h (by decide)

theorem InStep.isSome_eq {p : Pending} {d : Delimiter} (h : p.InStep d) :
    p.isSome = !d.isOutside := by
  cases p with
  | none =>
    cases h
    rfl
  | some pending =>
    obtain ⟨hopen, rfl⟩ := h
    rw [Delimiter.closed] at hopen
    rw [afterLine, isOutside_step_inert (by decide), hopen]
    rfl

theorem inStep_unfinished (key : String) (value : List Char) :
    (unfinished key value).InStep (afterLine .plain value) := by
  unfold unfinished
  split
  · next hclosed => exact step_of_isOutside hclosed (by decide) (by decide)
  · next hopen => exact ⟨by simpa using hopen, rfl⟩

theorem after_of_not_assignment {line : List Char}
    (h : (MarkupLine.read line).isAssignment = false) : after none line = none := by
  unfold after
  cases hread : MarkupLine.read line with
  | assignment key value => simp [hread, MarkupLine.isAssignment] at h
  | opening tag => rfl
  | closing tag => rfl
  | other => rfl

/-- One line keeps the two in step, unless it leaves a string open that is no value's. -/
theorem InStep.after {p : Pending} {d : Delimiter} (h : p.InStep d) {line : List Char}
    (hkeyed : d.isOutside → (d.afterLine line).isOutside = false →
      (MarkupLine.read line).isAssignment) :
    (p.after line).InStep (d.afterLine line) := by
  cases p with
  | some pending =>
    obtain ⟨key, value⟩ := pending
    obtain ⟨-, rfl⟩ := h
    have hjoin : (afterLine .plain value).afterLine line =
        afterLine .plain (value ++ '\n' :: line) := by
      rw [afterLine, afterLine, afterLine, List.foldl_append, List.foldl_cons]
    rw [hjoin]
    exact inStep_unfinished key _
  | none =>
    cases h
    cases hread : MarkupLine.read line with
    | assignment key value =>
      obtain ⟨before, after, rfl, hbefore, hafter⟩ := MarkupLine.exists_value hread
      have hvalue : afterLine .plain (before ++ (value ++ after)) = afterLine .plain value := by
        rw [afterLine, List.foldl_append, foldl_inert hbefore, List.foldl_append,
          step_break_foldl_inert hafter, afterLine]
      rw [Pending.after, hread, hvalue]
      exact inStep_unfinished key value
    | _ =>
      have hno : (MarkupLine.read line).isAssignment = false := by rw [hread]; rfl
      rw [after_of_not_assignment hno]
      apply afterLine_eq_plain
      by_contra hinside
      have hyes := hkeyed rfl (by simpa using hinside)
      rw [hno] at hyes
      cases hyes

/-- Every line that begins inside a string is no markup of its own, or the last line before it that
does not begin inside one sets an attribute. -/
def guarded (keyed : Bool) : List (Bool × List Char) → Bool
  | [] => true
  | (inside, line) :: rest =>
    if inside then (keyed || MarkupLine.read line == .other) && guarded keyed rest
    else guarded (MarkupLine.read line).isAssignment rest

/-- How the extractor stands to a reader of the whole text in front of a line. `keyed` tells whether
the last line that began outside strings sets an attribute. -/
inductive Abreast : Pending → Delimiter → Bool → Prop where
  | together {p d keyed} : p.InStep d → (d.isOutside = false → keyed = true) → Abreast p d keyed
  | adrift {d} : d.isOutside = false → Abreast none d false

namespace Abreast

variable {p : Pending} {d : Delimiter} {keyed : Bool}

theorem isSome_eq_false (h : Abreast p d keyed) (hout : d.isOutside) : p.isSome = false := by
  cases h with
  | together hstep _ => rw [hstep.isSome_eq, hout]; rfl
  | adrift hin => rfl

/-- Inside a string a line is left alone if the value it stands in is pending. -/
theorem unread_iff_guarded (h : Abreast p d keyed) (hin : d.isOutside = false) (line : MarkupLine) :
    ((if p.isSome then none else some line) = none ∨
      (if p.isSome then none else some line) = some .other) ↔ keyed = true ∨ line = .other := by
  cases h with
  | together hstep hkeyed =>
    have hsome : p.isSome = true := by rw [hstep.isSome_eq, hin]; rfl
    simp [hsome, hkeyed hin]
  | adrift _ => simp

theorem after (h : Abreast p d keyed) (line : List Char)
    (hline : d.isOutside ∨ keyed ∨ MarkupLine.read line = .other) :
    Abreast (p.after line) (d.afterLine line)
      (if d.isOutside then (MarkupLine.read line).isAssignment else keyed) := by
  cases h with
  | together hstep hkeyed =>
    by_cases hgiven : d.isOutside → (d.afterLine line).isOutside = false →
        (MarkupLine.read line).isAssignment
    · refine .together (hstep.after hgiven) fun hin => ?_
      split
      · next hout => exact hgiven hout hin
      · next hout => exact hkeyed (by simpa using hout)
    · -- a string begins outside values, and from here on nothing is pending for it
      push Not at hgiven
      obtain ⟨hout, hin, hgiven⟩ := hgiven
      have hno : (MarkupLine.read line).isAssignment = false := by simpa using hgiven
      have hnone : p = none := by
        have hsome := hstep.isSome_eq
        rw [hout] at hsome
        simpa using hsome
      rw [hnone, after_of_not_assignment hno, if_pos hout, hno]
      exact .adrift hin
  | adrift hin =>
    have hother : MarkupLine.read line = .other := by simpa [hin] using hline
    rw [after_of_not_assignment (by rw [hother]; rfl), if_neg (by simp [hin])]
    by_cases hout : (d.afterLine line).isOutside
    · exact .together (afterLine_eq_plain hout) (by simp [hout])
    · exact .adrift (by simpa using hout)

theorem forall_unread_iff (h : Abreast p d keyed) (lines : List (List Char)) :
    (∀ pair ∈ (openLines d lines).zip (p.readings lines),
        pair.1 → pair.2 = none ∨ pair.2 = some .other) ↔
      guarded keyed ((openLines d lines).zip lines) := by
  induction lines generalizing p d keyed with
  | nil => simp [openLines, guarded]
  | cons line rest ih =>
    rw [openLines, readings, List.zip_cons_cons, List.zip_cons_cons, List.forall_mem_cons, guarded]
    cases hout : d.isOutside with
    | true =>
      have hrest := ih (h.after line (.inl hout))
      simpa [hout] using hrest
    | false =>
      have hhere := h.unread_iff_guarded hout (MarkupLine.read line)
      simp only [Bool.not_false, if_true, Bool.and_eq_true, Bool.or_eq_true, beq_iff_eq,
        forall_const, hhere]
      -- behind a line that is read as markup neither side can hold, so the rest may be adrift
      apply and_congr_right
      intro hguarded
      have hrest := ih (h.after line (.inr hguarded))
      simpa [hout] using hrest

/-- Blocks are opened and closed by the lines that begin outside strings. -/
theorem filterMap_readings (h : Abreast p d keyed) {lines : List (List Char)}
    (hguarded : guarded keyed ((openLines d lines).zip lines)) :
    (p.readings lines).filterMap (·.bind MarkupLine.statement?) =
      ((openLines d lines).zip lines).filterMap fun (inside, line) =>
        if inside then none else (MarkupLine.read line).statement? := by
  induction lines generalizing p d keyed with
  | nil => rfl
  | cons line rest ih =>
    rw [openLines, List.zip_cons_cons, guarded] at hguarded
    cases hout : d.isOutside with
    | true =>
      have hrest := ih (h.after line (.inl hout)) (by simpa [hout] using hguarded)
      simp [openLines, readings, List.filterMap_cons, h.isSome_eq_false hout, hout, hrest]
    | false =>
      obtain ⟨hhere, hguarded⟩ : (keyed = true ∨ MarkupLine.read line = .other) ∧
          guarded keyed ((openLines (d.afterLine line) rest).zip rest) := by
        simpa [hout] using hguarded
      have hrest := ih (h.after line (.inr hhere)) (by simpa [hout] using hguarded)
      have hsilent : (if p.isSome then none else some (MarkupLine.read line)).bind
          MarkupLine.statement? = none := by
        rcases (h.unread_iff_guarded hout _).mpr hhere with hnone | hother
        · rw [hnone]
          rfl
        · rw [hother]
          rfl
      simp [openLines, readings, hsilent, hout, hrest]

end Abreast

end Pending

def Statement.bracket? : Statement → Option Statement
  | .giving _ _ => none
  | .opening tag => some (.opening tag)
  | .closing tag => some (.closing tag)

theorem filterMap_bracket? (text : String) :
    (statementsOf text).filterMap Statement.bracket? =
      (readingsOf text).filterMap (·.bind MarkupLine.statement?) := by
  rw [readingsOf_eq, statementsOf, Pending.filterMap_statements (fun _ _ => rfl)]
  congr 1
  funext reading
  rcases reading with _ | (_ | _ | _ | _)
  all_goals rfl

/-- The strings of the text that hold markup begin in values. -/
def StringsGuarded (source : String) : Prop :=
  Pending.guarded false ((stringLines source).zip (lines source.toList))

/-- A line that begins inside a string is never read as markup of its own exactly if every such line
either is none or stands in a value. Then blocks are opened and closed by the lines that begin
outside strings. -/
theorem lines_in_strings_unread_iff_guarded {source : String} (h : QuotesPaired source) :
    ((∀ pair ∈ (stringLines source).zip (readingsOf source),
        pair.1 → pair.2 = none ∨ pair.2 = some .other) ↔ StringsGuarded source) ∧
    (StringsGuarded source →
      extractRecords source = ((statementsOf source).foldl Extraction.obey {}).finish ∧
      (statementsOf source).filterMap Statement.bracket? =
        ((stringLines source).zip (lines source.toList)).filterMap fun (inside, line) =>
          if inside then none else (MarkupLine.read line).statement?) := by
  have hstart : Pending.Abreast none .plain false := .together rfl (by simp [Delimiter.isOutside])
  rw [filterMap_bracket?, StringsGuarded, readingsOf_eq, h.stringLines_eq]
  refine ⟨hstart.forall_unread_iff _, fun hguarded => ⟨extractRecords_eq source, ?_⟩⟩
  exact hstart.filterMap_readings hguarded

/-- A value of two strings, a string outside values that holds no markup, and a call with quotes. -/
theorem tags_in_strings_unread :
    let source := "[a]\nk = _ \"x\n[b]\ny\" + <<\n[/a]\n>>\n\"\n[/a\n\"\n\x7bM \"q\"\x7d\n[/a]"
    QuotesPaired source ∧ StringsGuarded source ∧
      (statementsOf source).filterMap Statement.bracket? = [.opening "a", .closing "a"] := by
  intro source
  have hpaired : QuotesPaired source := by decide +kernel
  have hguarded : StringsGuarded source := by
    unfold StringsGuarded
    decide +kernel
  refine ⟨hpaired, hguarded, ?_⟩
  rw [((lines_in_strings_unread_iff_guarded hpaired).2 hguarded).2]
  decide +kernel

/-- Two texts that come out of a run as they went in. A string that is no value, and a value with
one quote in a call, behind which the extractor takes the end of a string for its beginning. -/
theorem tags_in_strings_read :
    let bare := "\"\n[a]\n\""
    let called := "a=\x7bx \"\x7d\nb=\"\n[c]\n\""
    let env : Environment := ⟨.empty ["w"], {}, { undefinedMacro := .passthrough }⟩
    ((preprocess env none bare {}).result = .ok bare ∧ stringLines bare = [false, true, true] ∧
      (readingsOf bare)[1]? = some (some (.opening "a")) ∧
      (extractRecords bare).map Record.tag = ["a"]) ∧
    ((preprocess env none called {}).result = .ok called ∧
      stringLines called = [false, false, true, true] ∧
      (readingsOf called)[2]? = some (some (.opening "c")) ∧
      (extractRecords called).map Record.tag = ["c"]) := by
  intro bare called env
  have hpasses : ∀ source, Plain source → NamesNoPlace env {} ⟨"."⟩ source →
      (preprocess env none source {}).result = .ok source := by
    intro source hplain hplace
    obtain ⟨e, hrun, htext⟩ := @Evaluation.run_writes env {} { session := {} } source hplain rfl rfl
      rfl (by decide) {} hplace ⟨rfl, rfl, rfl, rfl⟩
    simp only [preprocess, hrun]
    exact congrArg Except.ok htext
  refine ⟨⟨hpasses bare ?_ ?_, ?_, ?_, ?_⟩, hpasses called ?_ ?_, ?_, ?_, ?_⟩
  · exact ⟨by decide +kernel, by decide +kernel, by decide +kernel, by decide +kernel⟩
  · unfold NamesNoPlace
    decide +kernel
  · decide +kernel
  · decide +kernel
  · decide +kernel
  · exact ⟨by decide +kernel, by decide +kernel, by decide +kernel, by decide +kernel⟩
  · unfold NamesNoPlace
    decide +kernel
  · decide +kernel
  · decide +kernel
  · decide +kernel

end CampaignMarkup
