import CampaignMarkup.Macros.Call
import CampaignMarkup.Proofs.Text.Delimiters

/-! # Where a call is cut

A reader of a call cuts only at blanks that stand outside quotes, raw stretches and parentheses. So
a text that hides its blanks becomes part of one piece, and every piece begins where the reader is
outside of everything. -/
namespace CampaignMarkup

open Text Chars

namespace CallReader

variable {r : CallReader} {cs ds : List Char}

/-- Every blank of the text stands inside quotes, a raw stretch or parentheses. -/
def Unbroken (r : CallReader) : List Char → Prop
  | [] => True
  | c :: cs => (isBlank c && r.isNeutral) = false ∧ (r.step c).Unbroken cs

theorem unbroken_append :
    r.Unbroken (cs ++ ds) ↔ r.Unbroken cs ∧ (cs.foldl step r).Unbroken ds := by
  induction cs generalizing r with
  | nil => simp [Unbroken]
  | cons c cs ih => simp only [List.cons_append, Unbroken, ih, List.foldl_cons, and_assoc]

theorem unbroken_of_not_blank (h : ∀ c ∈ cs, isBlank c = false) (r : CallReader) :
    r.Unbroken cs := by
  induction cs generalizing r with
  | nil => trivial
  | cons c cs ih =>
    obtain ⟨hc, hcs⟩ := List.forall_mem_cons.mp h
    exact ⟨by rw [hc, Bool.false_and], ih hcs _⟩

/-- A blank that cuts leaves the reader at its start. -/
theorem step_blank {c : Char} (hc : isBlank c) (hr : r.isNeutral) : r.step c = {} := by
  obtain ⟨hout, hparens⟩ : r.delimiter.isOutside ∧ r.parens = 0 := by
    simpa [isNeutral] using hr
  have hne : ∀ d, isBlank d = false → c ≠ d := by
    rintro _ hd rfl
    rw [hc] at hd
    cases hd
  have hdelimiter : r.delimiter.step c = .plain :=
    Delimiter.step_of_isOutside hout (hne '"' (by decide)) (hne '<' (by decide))
  simp [step, hdelimiter, hout, hparens, hne '(' (by decide), hne ')' (by decide)]

end CallReader

open CallReader

section Splitting

variable {r : CallReader} {piece cs : List Char}

theorem splitArgumentsFrom_unbroken (h : r.Unbroken cs) (rest : List Char) :
    splitArgumentsFrom r piece (cs ++ rest) =
      splitArgumentsFrom (cs.foldl step r) (cs.reverse ++ piece) rest := by
  induction cs generalizing r piece with
  | nil => rfl
  | cons c cs ih =>
    obtain ⟨hc, hcs⟩ := h
    rw [List.cons_append, splitArgumentsFrom, hc, if_neg (by simp), ih hcs]
    simp

theorem splitArgumentsFrom_of_not_blank (h : ∀ c ∈ cs, isBlank c = false) (r : CallReader)
    (hpiece : piece ++ cs ≠ []) : splitArgumentsFrom r piece cs = [piece.reverse ++ cs] := by
  have hne : cs.reverse ++ piece ≠ [] := by
    simpa [and_comm] using hpiece
  calc splitArgumentsFrom r piece cs
      = splitArgumentsFrom (cs.foldl step r) (cs.reverse ++ piece) [] := by
        rw [← splitArgumentsFrom_unbroken (unbroken_of_not_blank h r), List.append_nil]
    _ = [(cs.reverse ++ piece).reverse] := by
        rw [splitArgumentsFrom, if_neg (by simpa using hne)]
    _ = [piece.reverse ++ cs] := by
        rw [List.reverse_append, List.reverse_reverse]

theorem splitArgumentsFrom_blank {c : Char} (hc : isBlank c) (hr : r.isNeutral)
    (hpiece : piece ≠ []) :
    splitArgumentsFrom r piece (c :: cs) = piece.reverse :: splitArgumentsFrom {} [] cs := by
  rw [splitArgumentsFrom, hc, hr, Bool.and_self, if_pos rfl, if_neg (by simpa using hpiece),
    step_blank hc hr]

/-- Nothing stands there, or a blank does first. -/
def Parted (cs : List Char) : Prop :=
  ∀ c ∈ cs.head?, isBlank c = true

theorem splitArgumentsFrom_append_blank {c : Char} (hc : isBlank c)
    (h : (cs.foldl step r).isNeutral) (rest : List Char) :
    splitArgumentsFrom r piece (cs ++ c :: rest) =
      splitArgumentsFrom r piece cs ++ splitArgumentsFrom {} [] rest := by
  induction cs generalizing r piece with
  | nil =>
    have hr : r.isNeutral := h
    have hnil : splitArgumentsFrom r piece [] = if piece.isEmpty then [] else [piece.reverse] := by
      rw [splitArgumentsFrom]
    rw [List.nil_append, hnil, splitArgumentsFrom, hc, hr, Bool.and_self, if_pos rfl,
      step_blank hc hr]
    cases piece.isEmpty <;> rfl
  | cons d cs ih =>
    rw [List.foldl_cons] at h
    rw [List.cons_append, splitArgumentsFrom, splitArgumentsFrom, ih h, ih h]
    split
    · split <;> rfl
    · rfl

theorem splitArguments_cons_blank {c : Char} (hc : isBlank c) (cs : List Char) :
    splitArguments (c :: cs) = splitArguments cs := by
  have hempty : ([].foldl step {}).isNeutral := rfl
  exact splitArgumentsFrom_append_blank hc hempty cs

/-- Where nothing is left open, what comes behind a blank is cut by itself. -/
theorem splitArguments_append {ds : List Char} (h : (cs.foldl step {}).isNeutral)
    (hds : Parted ds) : splitArguments (cs ++ ds) = splitArguments cs ++ splitArguments ds := by
  cases ds with
  | nil => simp [splitArguments, splitArgumentsFrom]
  | cons c rest =>
    have hc : isBlank c := hds c rfl
    rw [splitArguments_cons_blank hc]
    exact splitArgumentsFrom_append_blank hc h rest

theorem ne_nil_of_mem_splitArgumentsFrom {p : List Char} (h : p ∈ splitArgumentsFrom r piece cs) :
    p ≠ [] := by
  induction cs generalizing r piece with
  | nil =>
    rw [splitArgumentsFrom] at h
    split at h
    · cases h
    · next hpiece =>
      rw [List.mem_singleton.mp h]
      simpa using hpiece
  | cons c cs ih =>
    rw [splitArgumentsFrom] at h
    split at h
    · split at h
      · exact ih h
      · next hpiece =>
        rcases List.mem_cons.mp h with rfl | h
        · simpa using hpiece
        · exact ih h
    · exact ih h

/-- Every piece stands in the call, and the reader is outside of everything where it begins. -/
theorem exists_place {p : List Char} (h : p ∈ splitArgumentsFrom r piece cs)
    (hpiece : r = piece.reverse.foldl step {}) :
    ∃ before after, piece.reverse ++ cs = before ++ (p ++ after) ∧ before.foldl step {} = {} := by
  induction cs generalizing r piece with
  | nil =>
    rw [splitArgumentsFrom] at h
    split at h
    · cases h
    · obtain rfl := List.mem_singleton.mp h
      exact ⟨[], [], by simp, rfl⟩
  | cons c cs ih =>
    have hnext : r.step c = (c :: piece).reverse.foldl step {} := by
      rw [List.reverse_cons, List.foldl_append, ← hpiece]
      rfl
    by_cases hcut : (isBlank c && r.isNeutral) = true
    · obtain ⟨hc, hr⟩ := Bool.and_eq_true_iff.mp hcut
      have hstart : (c :: piece).reverse.foldl step {} = {} := hnext ▸ step_blank hc hr
      have hlater : p ∈ splitArgumentsFrom (r.step c) [] cs → ∃ before after,
          piece.reverse ++ c :: cs = before ++ (p ++ after) ∧ before.foldl step {} = {} := by
        intro hmem
        obtain ⟨before, after, heq, hbefore⟩ := ih hmem (step_blank hc hr)
        rw [List.reverse_nil, List.nil_append] at heq
        refine ⟨(c :: piece).reverse ++ before, after, ?_, ?_⟩
        · simp [heq]
        · rw [List.foldl_append, hstart, hbefore]
      rw [splitArgumentsFrom, if_pos hcut] at h
      split at h
      · exact hlater h
      · rcases List.mem_cons.mp h with rfl | h
        · exact ⟨[], c :: cs, rfl, rfl⟩
        · exact hlater h
    · rw [splitArgumentsFrom, if_neg hcut] at h
      obtain ⟨before, after, heq, hbefore⟩ := ih h hnext
      exact ⟨before, after, by rw [← heq]; simp, hbefore⟩

end Splitting

end CampaignMarkup
