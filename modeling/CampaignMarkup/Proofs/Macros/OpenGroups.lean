import CampaignMarkup.Proofs.Macros.CallReading

/-! # What a text leaves open

Quotes run to the next quote, raw stretches to the next pair of closing brackets, and parentheses
count where neither is open. A reader of calls goes by one character at a time, and it is outside of
everything exactly behind the texts that leave nothing open. -/
namespace CampaignMarkup

open Text Chars

/-- A text that starts within `m` parentheses and ends within `n` of them, with every quote and raw
stretch in it closed. A parenthesis that closes none is a plain character, and so is a bracket with
no other behind it. -/
inductive Leaves : ℕ → List Char → ℕ → Prop
  | done (n : ℕ) : Leaves n [] n
  | opening {m n : ℕ} {cs : List Char} (h : Leaves (m + 1) cs n) : Leaves m ('(' :: cs) n
  | closing {m n : ℕ} {cs : List Char} (h : Leaves (m - 1) cs n) : Leaves m (')' :: cs) n
  | quoted {m n : ℕ} {cs : List Char} (inner : List Char) (hinner : '"' ∉ inner)
      (h : Leaves m cs n) : Leaves m ('"' :: (inner ++ '"' :: cs)) n
  | raw {m n : ℕ} {cs : List Char} (inner : List Char) (hinner : Undoubled '>' (inner ++ ['>']))
      (h : Leaves m cs n) : Leaves m ('<' :: '<' :: (inner ++ '>' :: '>' :: cs)) n
  | plain {m n : ℕ} {cs : List Char} (c : Char) (hc : c ∉ ['"', '(', ')'])
      (hangle : c = '<' → cs.head? ≠ some '<') (h : Leaves m cs n) : Leaves m (c :: cs) n

/-- No quote, raw stretch or parenthesis is open behind the text. -/
def Shut (cs : List Char) : Prop :=
  Leaves 0 cs 0

namespace CallReader

variable {r : CallReader} {cs : List Char} {m n : ℕ}

/-- Outside of quotes and raw stretches, within so many parentheses. -/
def StandsIn (r : CallReader) (n : ℕ) : Prop :=
  r.delimiter.isOutside ∧ r.parens = n

instance : Decidable (r.StandsIn n) :=
  inferInstanceAs (Decidable (_ ∧ _))

theorem isNeutral_iff : r.isNeutral ↔ r.StandsIn 0 := by
  simp [isNeutral, StandsIn]

/-- In quotes and raw stretches no parenthesis counts. -/
theorem step_inside {d : Delimiter} (h : d.isOutside = false) (n : ℕ) (c : Char) :
    step ⟨d, n⟩ c = ⟨d.step c, n⟩ := by
  simp [step, h]

theorem foldl_quoted_inner (h : '"' ∉ cs) (n : ℕ) : cs.foldl step ⟨.quoted, n⟩ = ⟨.quoted, n⟩ := by
  induction cs with
  | nil => rfl
  | cons c cs ih =>
    obtain ⟨hc, hcs⟩ : '"' ≠ c ∧ '"' ∉ cs := by simpa using h
    have hstay : Delimiter.step .quoted c = .quoted := by simp [Delimiter.step, hc.symm]
    rw [List.foldl_cons, step_inside rfl, hstay]
    exact ih hcs

theorem isOutside_foldl_raw (h : Undoubled '>' cs) :
    (cs.foldl Delimiter.step .raw).isOutside = false := by
  rw [Delimiter.foldl_raw h]
  split <;> rfl

theorem foldl_raw_inner (h : Undoubled '>' cs) (n : ℕ) :
    cs.foldl step ⟨.raw, n⟩ = ⟨cs.foldl Delimiter.step .raw, n⟩ := by
  induction cs using List.reverseRecOn with
  | nil => rfl
  | append_singleton cs c ih =>
    obtain ⟨hcs, -, -⟩ := undoubled_append.mp h
    rw [List.foldl_append, List.foldl_append, ih hcs]
    exact step_inside (isOutside_foldl_raw hcs) n c

/-- A bracket that no other follows makes no difference. -/
theorem standsIn_foldl_angle (h : cs.head? ≠ some '<') :
    (cs.foldl step ⟨.angle, m⟩).StandsIn n ↔ (cs.foldl step ⟨.plain, m⟩).StandsIn n := by
  cases cs with
  | nil => exact Iff.rfl
  | cons c cs =>
    have hc : c ≠ '<' := by simpa using h
    have hstep : step ⟨.angle, m⟩ c = step ⟨.plain, m⟩ c := by
      simp [step, Delimiter.step, Delimiter.isOutside, hc]
    rw [List.foldl_cons, List.foldl_cons, hstep]

theorem step_plain {c : Char} (hc : c ∉ ['"', '(', ')']) (hangle : c ≠ '<') (m : ℕ) :
    step ⟨.plain, m⟩ c = ⟨.plain, m⟩ := by
  obtain ⟨hquote, hopen, hclose⟩ : c ≠ '"' ∧ c ≠ '(' ∧ c ≠ ')' := by simpa using hc
  simp [step, Delimiter.step, Delimiter.isOutside, hquote, hopen, hclose, hangle]

theorem foldl_quoted (inner : List Char) (hinner : '"' ∉ inner) (m : ℕ) :
    ('"' :: (inner ++ '"' :: cs)).foldl step ⟨.plain, m⟩ = cs.foldl step ⟨.plain, m⟩ := by
  have hopen : step ⟨.plain, m⟩ '"' = ⟨.quoted, m⟩ := rfl
  rw [List.foldl_cons, hopen, List.foldl_append, foldl_quoted_inner hinner]
  rfl

theorem foldl_raw (inner : List Char) (hinner : Undoubled '>' (inner ++ ['>'])) (m : ℕ) :
    ('<' :: '<' :: (inner ++ '>' :: '>' :: cs)).foldl step ⟨.plain, m⟩ =
      cs.foldl step ⟨.plain, m⟩ := by
  have hopen : step (step ⟨.plain, m⟩ '<') '<' = ⟨.raw, m⟩ := rfl
  rw [List.foldl_cons, List.foldl_cons, hopen, List.append_cons, List.foldl_append,
    foldl_raw_inner hinner, Delimiter.foldl_raw hinner, List.getLast?_concat, if_pos rfl]
  rfl

/-- In quotes that nothing closes the reader is still at the end. -/
theorem not_standsIn_quoted (h : '"' ∉ cs) :
    ¬ (('"' :: cs).foldl step ⟨.plain, m⟩).StandsIn n := by
  have hopen : step ⟨.plain, m⟩ '"' = ⟨.quoted, m⟩ := rfl
  rw [List.foldl_cons, hopen, foldl_quoted_inner h]
  rintro ⟨hout, -⟩
  cases hout

theorem not_standsIn_raw (h : Undoubled '>' cs) :
    ¬ (('<' :: '<' :: cs).foldl step ⟨.plain, m⟩).StandsIn n := by
  have hopen : step (step ⟨.plain, m⟩ '<') '<' = ⟨.raw, m⟩ := rfl
  rw [List.foldl_cons, List.foldl_cons, hopen, foldl_raw_inner h]
  rintro ⟨hout, -⟩
  rw [isOutside_foldl_raw h] at hout
  cases hout

end CallReader

open CallReader

namespace Leaves

variable {cs : List Char} {m n : ℕ}

theorem standsIn (h : Leaves m cs n) : (cs.foldl step ⟨.plain, m⟩).StandsIn n := by
  induction h with
  | done n => exact ⟨rfl, rfl⟩
  | opening h ih => exact ih
  | closing h ih => exact ih
  | quoted inner hinner h ih => rwa [foldl_quoted inner hinner]
  | raw inner hinner h ih => rwa [foldl_raw inner hinner]
  | plain c hc hangle h ih =>
    rw [List.foldl_cons]
    by_cases hbracket : c = '<'
    · subst hbracket
      exact (standsIn_foldl_angle (hangle rfl)).mpr ih
    · rwa [step_plain hc hbracket]

/-- Where the reader is outside at the end, each quote and each raw stretch that it met was closed
before. -/
theorem of_standsIn (h : (cs.foldl step ⟨.plain, m⟩).StandsIn n) : Leaves m cs n := by
  -- a closed stretch is one step of the text, so the induction is on the length
  induction hlength : cs.length using Nat.strong_induction_on generalizing cs m with
  | h length ih =>
    subst hlength
    cases cs with
    | nil =>
      obtain rfl : m = n := h.2
      exact .done m
    | cons c cs =>
      by_cases hopening : c = '('
      · subst hopening
        exact .opening (ih _ (Nat.lt_succ_self _) h rfl)
      by_cases hclosing : c = ')'
      · subst hclosing
        exact .closing (ih _ (Nat.lt_succ_self _) h rfl)
      by_cases hquote : c = '"'
      · subst hquote
        by_cases hmem : '"' ∈ cs
        · obtain ⟨inner, rest, rfl, hinner⟩ := List.eq_append_cons_of_mem hmem
          rw [foldl_quoted inner hinner] at h
          exact .quoted inner hinner (ih _ (by simp; omega) h rfl)
        · exact absurd h (not_standsIn_quoted hmem)
      by_cases hraw : c = '<' ∧ cs.head? = some '<'
      · obtain ⟨rfl, hhead⟩ := hraw
        obtain ⟨cs, rfl⟩ := List.head?_eq_some_iff.mp hhead
        rcases Lexeme.rawTail_cases cs with ⟨inner, rest, hinner, rfl⟩ | hopen
        · rw [foldl_raw inner hinner] at h
          exact .raw inner hinner (ih _ (by simp; omega) h rfl)
        · exact absurd h (not_standsIn_raw hopen)
      · have hangle : c = '<' → cs.head? ≠ some '<' := fun hc hhead => hraw ⟨hc, hhead⟩
        have hplain : c ∉ ['"', '(', ')'] := by simp [hquote, hopening, hclosing]
        refine .plain c hplain hangle (ih _ (Nat.lt_succ_self _) ?_ rfl)
        rw [List.foldl_cons] at h
        by_cases hbracket : c = '<'
        · subst hbracket
          exact (standsIn_foldl_angle (hangle rfl)).mp h
        · rwa [step_plain hplain hbracket] at h

theorem iff_standsIn : Leaves m cs n ↔ (cs.foldl step ⟨.plain, m⟩).StandsIn n :=
  ⟨standsIn, of_standsIn⟩

instance : Decidable (Leaves m cs n) :=
  decidable_of_iff _ iff_standsIn.symm

end Leaves

instance : DecidablePred Shut := fun cs =>
  inferInstanceAs (Decidable (Leaves 0 cs 0))

/-- The reader of a call would cut behind exactly the texts that leave nothing open. -/
theorem shut_iff {cs : List Char} : Shut cs ↔ (cs.foldl step {}).isNeutral :=
  Leaves.iff_standsIn.trans isNeutral_iff.symm

example : Shut "a) \"(\" <<\">> (b < c)".toList := by decide

example : ¬ Shut "(a \")\"".toList := by decide

end CampaignMarkup
