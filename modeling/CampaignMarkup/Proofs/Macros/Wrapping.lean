import CampaignMarkup.Proofs.Macros.CallReading
import CampaignMarkup.Proofs.Token.Written
import Mathlib.Data.List.Infix

/-! # Delimiters around an argument

An argument in quotes, in raw delimiters or in parentheses goes without them to its parameter. Only
the two ends are looked at, so that delimiters come off also where the first of them closes before
the end and the last opens behind the start. -/
namespace CampaignMarkup

open Text Chars

/-- The text begins and ends with delimiters of one kind, whether or not they belong together. -/
inductive Delimited : List Char → Prop
  | quotes (inner : List Char) : Delimited ('"' :: (inner ++ ['"']))
  | angles (inner : List Char) : Delimited ('<' :: '<' :: (inner ++ ['>', '>']))
  | parens (inner : List Char) : Delimited ('(' :: (inner ++ [')']))

/-- The parenthesis at the start stays open up to the last character, which closes it. -/
@[mk_iff closedAtEnd_iff]
structure ClosedAtEnd (cs : List Char) : Prop where
  within : ∀ front, front <+: cs → front ≠ [] → front ≠ cs →
    0 < (front.foldl CallReader.step {}).parens
  settled : (cs.foldl CallReader.step {}).parens = 0

instance : DecidablePred ClosedAtEnd := fun cs =>
  decidable_of_iff
    ((∀ front ∈ cs.inits, front ≠ [] → front ≠ cs → 0 < (front.foldl CallReader.step {}).parens) ∧
      (cs.foldl CallReader.step {}).parens = 0)
    (by simp only [List.mem_inits, closedAtEnd_iff])

example : ClosedAtEnd "(f(\")\") y)".toList := by decide

example : ¬ ClosedAtEnd "(a)(b)".toList := by decide

/-- The delimiters at the ends of the first text belong together, and the second is what they
enclose. -/
@[mk_iff unwraps_iff]
inductive Unwraps : List Char → List Char → Prop
  | quotes (inner : List Char) : Unwraps ('"' :: (doubleQuotes inner ++ ['"'])) inner
  | angles (inner : List Char) (h : Undoubled '>' (inner ++ ['>'])) :
    Unwraps ('<' :: '<' :: (inner ++ ['>', '>'])) inner
  | parens (inner : List Char) (h : ClosedAtEnd ('(' :: (inner ++ [')']))) :
    Unwraps ('(' :: (inner ++ [')'])) inner

namespace Chars

variable {cs inner : List Char}

theorem between?_eq_some {opening closing : List Char} :
    between? opening closing cs = some inner ↔ cs = opening ++ (inner ++ closing) := by
  simp only [between?, Option.bind_eq_some_iff, dropStart?_eq_some, dropEnding?_eq_some]
  constructor
  · rintro ⟨rest, rfl, rfl⟩
    rfl
  · rintro rfl
    exact ⟨inner ++ closing, rfl, rfl⟩

theorem between?_eq_none {opening closing : List Char} (h : ¬ opening <+: cs) :
    between? opening closing cs = none := by
  rw [Option.eq_none_iff_forall_ne_some]
  intro inner hinner
  exact h ⟨inner ++ closing, (between?_eq_some.mp hinner).symm⟩

theorem stripWrapping_quotes (inner : List Char) :
    stripWrapping ('"' :: (inner ++ ['"'])) = unquoteTail (inner ++ ['"']) := by
  have hbetween : between? ['"'] ['"'] ('"' :: (inner ++ ['"'])) = some inner :=
    between?_eq_some.mpr rfl
  have hdrop : dropStart? ['"'] ('"' :: (inner ++ ['"'])) = some (inner ++ ['"']) :=
    dropStart?_eq_some.mpr rfl
  rw [stripWrapping, hbetween, Option.isSome_some, if_pos rfl, unquote, hdrop, Option.getD_some]

theorem stripWrapping_angles (inner : List Char) :
    stripWrapping ('<' :: '<' :: (inner ++ ['>', '>'])) = inner := by
  have hquotes : between? ['"'] ['"'] ('<' :: '<' :: (inner ++ ['>', '>'])) = none :=
    between?_eq_none (by simp)
  have hangles : between? ['<', '<'] ['>', '>'] ('<' :: '<' :: (inner ++ ['>', '>'])) =
      some inner := between?_eq_some.mpr rfl
  rw [stripWrapping, hquotes, hangles]
  rfl

theorem stripWrapping_parens (inner : List Char) :
    stripWrapping ('(' :: (inner ++ [')'])) = inner := by
  have hquotes : between? ['"'] ['"'] ('(' :: (inner ++ [')'])) = none :=
    between?_eq_none (by simp)
  have hangles : between? ['<', '<'] ['>', '>'] ('(' :: (inner ++ [')'])) = none :=
    between?_eq_none (by simp)
  have hparens : between? ['('] [')'] ('(' :: (inner ++ [')'])) = some inner :=
    between?_eq_some.mpr rfl
  rw [stripWrapping, hquotes, hangles, hparens]
  rfl

theorem stripWrapping_of_not_delimited (h : ¬ Delimited cs) : stripWrapping cs = cs := by
  have hnone : ∀ opening closing, (∀ inner, Delimited (opening ++ (inner ++ closing))) →
      between? opening closing cs = none := by
    intro opening closing hends
    rw [Option.eq_none_iff_forall_ne_some]
    intro inner hinner
    rw [between?_eq_some.mp hinner] at h
    exact h (hends inner)
  rw [stripWrapping, hnone ['"'] ['"'] .quotes, hnone ['<', '<'] ['>', '>'] .angles,
    hnone ['('] [')'] .parens]
  rfl

theorem length_unquoteTail_le (cs : List Char) : (unquoteTail cs).length ≤ cs.length := by
  fun_induction unquoteTail cs with
  | case1 => exact le_rfl
  | case2 cs ih =>
    rw [List.length_cons, List.length_cons, List.length_cons]
    omega
  | case3 => exact Nat.zero_le _
  | case4 c cs _ _ ih => exact Nat.succ_le_succ ih

theorem length_stripWrapping_lt (h : Delimited cs) : (stripWrapping cs).length < cs.length := by
  cases h with
  | quotes inner =>
    rw [stripWrapping_quotes]
    exact Nat.lt_succ_of_le (length_unquoteTail_le _)
  | angles inner =>
    rw [stripWrapping_angles]
    simp only [List.length_cons, List.length_append]
    omega
  | parens inner =>
    rw [stripWrapping_parens]
    simp only [List.length_cons, List.length_append]
    omega

end Chars

theorem Unwraps.stripWrapping_eq {cs inner : List Char} (h : Unwraps cs inner) :
    stripWrapping cs = inner := by
  cases h with
  | quotes => rw [stripWrapping_quotes, unquoteTail_closed]
  | angles => exact stripWrapping_angles inner
  | parens => exact stripWrapping_parens inner

/-- Either nothing comes off or delimiters that belong together, unless the ends of the text are
delimited and do not belong together. -/
theorem stripWrapping_sound_iff {cs : List Char} :
    stripWrapping cs = cs ∨ Unwraps cs (stripWrapping cs) ↔
      (Delimited cs → ∃ inner, Unwraps cs inner) := by
  constructor
  · rintro (hself | hunwraps) hends
    · -- Delimiters at the ends come off in any case, so no such text is its own value.
      have hlt := length_stripWrapping_lt hends
      rw [hself] at hlt
      exact absurd hlt (lt_irrefl _)
    · exact ⟨_, hunwraps⟩
  · intro hmatch
    by_cases hends : Delimited cs
    · obtain ⟨inner, hinner⟩ := hmatch hends
      right
      rwa [hinner.stripWrapping_eq]
    · left
      exact stripWrapping_of_not_delimited hends

theorem MacroCall.exists_piece {content : String} {a : Argument}
    (h : a ∈ (MacroCall.read content).args) :
    ∃ raw ∈ splitArguments content.toList, a = Argument.ofRaw raw := by
  rw [MacroCall.read] at h
  cases hpieces : splitArguments content.toList with
  | nil =>
    rw [hpieces] at h
    cases h
  | cons name pieces =>
    rw [hpieces] at h
    obtain ⟨raw, hraw, rfl⟩ := List.mem_map.mp h
    exact ⟨raw, List.mem_cons_of_mem name hraw, rfl⟩

/-- An argument stands in the call as it is written, in a place outside of all delimiters. Its value
is what it says between delimiters that belong together, and all of it where its ends are not
delimited. So it loses something that does not wrap it exactly if its ends are delimited and do not
belong together. -/
theorem wrapping_removed_iff_matched {content : String} {a : Argument}
    (h : a ∈ (MacroCall.read content).args) :
    (∃ before after, content.toList = before ++ (a.raw.toList ++ after) ∧
      before.foldl CallReader.step {} = {}) ∧
    (∀ inner, Unwraps a.raw.toList inner → a.value.toList = inner) ∧
    (¬ Delimited a.raw.toList → a.value = a.raw) ∧
    (a.value = a.raw ∨ Unwraps a.raw.toList a.value.toList ↔
      (Delimited a.raw.toList → ∃ inner, Unwraps a.raw.toList inner)) := by
  obtain ⟨raw, hraw, rfl⟩ := MacroCall.exists_piece h
  have hvalue : (Argument.ofRaw raw).value = (Argument.ofRaw raw).raw ↔ stripWrapping raw = raw :=
    String.ofList_inj
  -- Every piece begins where the reader is at its start, so that `ClosedAtEnd` may begin there too.
  have hplace := exists_place hraw rfl
  rw [List.reverse_nil, List.nil_append] at hplace
  rw [hvalue]
  simp only [Argument.ofRaw, String.toList_ofList]
  refine ⟨hplace, ?_, stripWrapping_of_not_delimited, stripWrapping_sound_iff⟩
  intro inner hinner
  exact hinner.stripWrapping_eq

/-- A group with a group in it, before and behind other arguments. -/
theorem nested_group_unwrapped :
    let a : Argument := ⟨"(f(x) y)", "f(x) y", none⟩
    a ∈ (MacroCall.read "WRAP \"b\" (f(x) y) z").args ∧
      (∃ before after, "WRAP \"b\" (f(x) y) z".toList = before ++ (a.raw.toList ++ after) ∧
        before.foldl CallReader.step {} = {}) ∧
      Unwraps a.raw.toList a.value.toList := by
  intro a
  have hmem : a ∈ (MacroCall.read "WRAP \"b\" (f(x) y) z").args := by decide +kernel
  obtain ⟨hplace, hinner, -⟩ := wrapping_removed_iff_matched hmem
  have hunwraps : Unwraps a.raw.toList ['f', '(', 'x', ')', ' ', 'y'] := by
    have hraw : a.raw.toList = '(' :: (['f', '(', 'x', ')', ' ', 'y'] ++ [')']) := by simp [a]
    rw [hraw]
    exact .parens _ (by decide)
  refine ⟨hmem, hplace, ?_⟩
  rwa [hinner _ hunwraps]

/-- Strings and a word between them are one argument, of which only the first string arrives. -/
theorem glued_strings_lost :
    ¬ ∀ content, ∀ a ∈ (MacroCall.read content).args,
      a.value = a.raw ∨ Unwraps a.raw.toList a.value.toList := by
  intro h
  have hread : MacroCall.read "M \"a\"b\"c\"" = ⟨"M", [⟨"\"a\"b\"c\"", "a", none⟩]⟩ := by
    decide +kernel
  rcases h "M \"a\"b\"c\"" ⟨"\"a\"b\"c\"", "a", none⟩ (by simp [hread]) with hself | hunwraps
  · exact absurd hself (by decide)
  · simp [unwraps_iff, doubleQuotes] at hunwraps

end CampaignMarkup
