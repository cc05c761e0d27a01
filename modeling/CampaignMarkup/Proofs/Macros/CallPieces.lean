import CampaignMarkup.Proofs.Macros.OpenGroups

/-! # The pieces of a call

A call is cut at the blanks where nothing is open, and nothing but these blanks is lost. Each piece
begins and, if another follows, ends where nothing is open, so the pieces written with single blanks
between them are cut into the same pieces again. -/
namespace CampaignMarkup

open Text Chars CallReader

variable {r : CallReader} {cs piece p content : List Char} {ps qs : List (List Char)}

/-- The text without the blanks that stand where nothing is open, when `before` stands in front. -/
def withoutCuts (before : List Char) : List Char → List Char
  | [] => []
  | c :: cs =>
    if isBlank c ∧ Shut before then withoutCuts (before ++ [c]) cs
    else c :: withoutCuts (before ++ [c]) cs

theorem flatten_splitArgumentsFrom (before : List Char) (hr : r = before.foldl step {}) :
    (splitArgumentsFrom r piece cs).flatten = piece.reverse ++ withoutCuts before cs := by
  induction cs generalizing r piece before with
  | nil =>
    rw [splitArgumentsFrom, withoutCuts]
    cases piece <;> simp
  | cons c cs ih =>
    have hnext : r.step c = (before ++ [c]).foldl step {} := by
      rw [List.foldl_append, ← hr]
      rfl
    have hshut : Shut before ↔ r.isNeutral := by
      rw [shut_iff, hr]
    rw [splitArgumentsFrom, withoutCuts]
    simp only [hshut, Bool.and_eq_true]
    by_cases hcut : isBlank c ∧ r.isNeutral
    · rw [if_pos hcut, if_pos hcut]
      cases piece with
      | nil => exact ih _ hnext
      | cons d piece =>
        rw [if_neg (by simp), List.flatten_cons, ih _ hnext]
        rfl
    · rw [if_neg hcut, if_neg hcut, ih _ hnext]
      simp

theorem flatten_splitArguments (content : List Char) :
    (splitArguments content).flatten = withoutCuts [] content :=
  flatten_splitArgumentsFrom [] rfl

/-- A text that is one piece: it is not empty, and something is open at each of its blanks. -/
structure Whole (p : List Char) : Prop where
  ne_nil : p ≠ []
  unbroken : Unbroken {} p

/-- A text with its pieces: blanks may stand in front of each, and one stands behind each that
another follows, where nothing is open. -/
inductive CutInto : List Char → List (List Char) → Prop
  | blanks {blanks : List Char} (hblanks : ∀ c ∈ blanks, isBlank c) : CutInto blanks []
  | last (blanks : List Char) {p : List Char} (hblanks : ∀ c ∈ blanks, isBlank c) (hp : Whole p) :
      CutInto (blanks ++ p) [p]
  | more (blanks : List Char) {p rest : List Char} {c : Char} {ps : List (List Char)}
      (hblanks : ∀ c ∈ blanks, isBlank c) (hp : Whole p) (hshut : Shut p) (hc : isBlank c)
      (h : CutInto rest ps) : CutInto (blanks ++ (p ++ c :: rest)) (p :: ps)

theorem foldl_blanks (h : ∀ c ∈ cs, isBlank c) : cs.foldl step {} = {} := by
  induction cs with
  | nil => rfl
  | cons c cs ih =>
    obtain ⟨hc, hcs⟩ := List.forall_mem_cons.mp h
    rw [List.foldl_cons, step_blank hc rfl]
    exact ih hcs

theorem shut_blanks_append (h : ∀ c ∈ cs, isBlank c) : Shut (cs ++ p) ↔ Shut p := by
  rw [shut_iff, shut_iff, List.foldl_append, foldl_blanks h]

theorem Shut.append_blank {c : Char} (h : Shut p) (hc : isBlank c) (hcs : Shut cs) :
    Shut (p ++ c :: cs) := by
  rw [shut_iff] at h hcs ⊢
  rwa [List.foldl_append, List.foldl_cons, step_blank hc h]

theorem splitArguments_blanks_append (h : ∀ c ∈ cs, isBlank c) (rest : List Char) :
    splitArguments (cs ++ rest) = splitArguments rest := by
  induction cs with
  | nil => rfl
  | cons c cs ih =>
    obtain ⟨hc, hcs⟩ := List.forall_mem_cons.mp h
    rw [List.cons_append, splitArguments_cons_blank hc]
    exact ih hcs

theorem Whole.splitArguments_eq (h : Whole p) : splitArguments p = [p] := by
  have hread := @splitArgumentsFrom_unbroken {} [] p h.unbroken []
  rw [List.append_nil, List.append_nil] at hread
  rw [splitArguments, hread, splitArgumentsFrom, if_neg (by simpa using h.ne_nil),
    List.reverse_reverse]

namespace CutInto

theorem cons_blank {c : Char} (hc : isBlank c) (h : CutInto cs ps) : CutInto (c :: cs) ps := by
  cases h with
  | blanks hblanks => exact .blanks (List.forall_mem_cons.mpr ⟨hc, hblanks⟩)
  | last blanks hblanks hp =>
    exact .last (c :: blanks) (List.forall_mem_cons.mpr ⟨hc, hblanks⟩) hp
  | @more blanks p rest d ps hblanks hp hshut hd h =>
    exact .more (c :: blanks) (List.forall_mem_cons.mpr ⟨hc, hblanks⟩) hp hshut hd h

/-- Between two of its pieces a text has a blank where nothing is open. -/
theorem append_inv (h : CutInto content (ps ++ qs)) (hps : ps ≠ []) (hqs : qs ≠ []) :
    ∃ before c after, content = before ++ c :: after ∧ isBlank c ∧ Shut before ∧
      CutInto before ps ∧ CutInto after qs := by
  generalize hall : ps ++ qs = all at h
  induction h generalizing ps with
  | blanks => exact absurd (List.append_eq_nil_iff.mp hall).1 hps
  | last blanks hblanks hp =>
    rcases List.append_eq_singleton_iff.mp hall with ⟨hnil, -⟩ | ⟨-, hnil⟩
    · exact absurd hnil hps
    · exact absurd hnil hqs
  | @more blanks p rest c all hblanks hp hshut hc h ih =>
    obtain ⟨q, ps, rfl⟩ := List.exists_cons_of_ne_nil hps
    obtain ⟨rfl, hrest⟩ := List.cons.inj hall
    by_cases hlast : ps = []
    · subst hlast
      obtain rfl : qs = all := hrest
      exact ⟨blanks ++ q, c, rest, by simp, hc, (shut_blanks_append hblanks).mpr hshut,
        .last blanks hblanks hp, h⟩
    · obtain ⟨before, d, after, rfl, hd, hbefore, hcut, hafter⟩ := ih hlast hrest
      exact ⟨blanks ++ (q ++ c :: before), d, after, by simp, hd,
        (shut_blanks_append hblanks).mpr (hshut.append_blank hc hbefore),
        .more blanks hblanks hp hshut hc hcut, hafter⟩

theorem shut_of_mem_dropLast (h : CutInto content ps) : ∀ p ∈ ps.dropLast, Shut p := by
  induction h with
  | blanks => simp
  | last => simp
  | @more blanks p rest c ps hblanks hp hshut hc h ih =>
    cases ps with
    | nil => simp
    | cons q qs => exact List.forall_mem_cons.mpr ⟨hshut, ih⟩

/-- With single blanks between them the pieces are cut at these blanks. -/
theorem intercalate (h : CutInto content ps) : CutInto ([' '].intercalate ps) ps := by
  induction h with
  | blanks => exact .blanks (by simp)
  | last blanks hblanks hp =>
    rw [List.intercalate_singleton]
    exact .last [] (by simp) hp
  | @more blanks p rest c ps hblanks hp hshut hc h ih =>
    cases ps with
    | nil =>
      rw [List.intercalate_singleton]
      exact .last [] (by simp) hp
    | cons q qs =>
      rw [List.intercalate_cons_cons, List.append_assoc]
      exact .more [] (by simp) hp hshut (by decide) ih

/-- There is one way to cut a text, and it is the reader's. -/
theorem splitArguments_eq (h : CutInto content ps) : splitArguments content = ps := by
  induction h with
  | blanks hblanks =>
    have hnil := splitArguments_blanks_append hblanks []
    rwa [List.append_nil] at hnil
  | last blanks hblanks hp => rw [splitArguments_blanks_append hblanks, hp.splitArguments_eq]
  | @more blanks p rest c ps hblanks hp hshut hc h ih =>
    have hparted : Parted (c :: rest) := by
      intro d hd
      cases hd
      exact hc
    rw [splitArguments_blanks_append hblanks, splitArguments_append (shut_iff.mp hshut) hparted,
      splitArguments_cons_blank hc, hp.splitArguments_eq, ih]
    rfl

end CutInto

theorem cutInto_splitArgumentsFrom (piece : List Char) (hpiece : Unbroken {} piece.reverse)
    (hr : r = piece.reverse.foldl step {}) :
    CutInto (piece.reverse ++ cs) (splitArgumentsFrom r piece cs) := by
  induction cs generalizing r piece with
  | nil =>
    rw [splitArgumentsFrom, List.append_nil]
    cases piece with
    | nil => exact .blanks (by simp)
    | cons d piece => exact .last [] (by simp) ⟨by simp, hpiece⟩
  | cons c cs ih =>
    rw [splitArgumentsFrom]
    by_cases hcut : (isBlank c && r.isNeutral) = true
    · obtain ⟨hc, hneutral⟩ := Bool.and_eq_true_iff.mp hcut
      have hbehind : CutInto cs (splitArgumentsFrom {} [] cs) := ih [] trivial rfl
      rw [if_pos hcut, step_blank hc hneutral]
      cases piece with
      | nil => exact hbehind.cons_blank hc
      | cons d piece =>
        rw [if_neg (by simp)]
        have hshut : Shut (d :: piece).reverse := shut_iff.mpr (hr ▸ hneutral)
        exact .more [] (by simp) ⟨by simp, hpiece⟩ hshut hc hbehind
    · have hlonger : Unbroken {} (c :: piece).reverse := by
        rw [List.reverse_cons, unbroken_append]
        exact ⟨hpiece, by simpa [← hr] using hcut, trivial⟩
      have hnext : r.step c = (c :: piece).reverse.foldl step {} := by
        rw [List.reverse_cons, List.foldl_append, ← hr]
        rfl
      rw [if_neg hcut, List.append_cons, ← List.reverse_cons]
      exact ih _ hlonger hnext

theorem cutInto_splitArguments (content : List Char) : CutInto content (splitArguments content) :=
  cutInto_splitArgumentsFrom [] trivial rfl

/-- A call is cut without loss. No piece is empty, and the pieces are the content without the blanks
that stand where nothing is open. Behind each piece but the last nothing is open, in the piece by
itself and in the content, which is cut in two there. The pieces written with single blanks between
them are cut into the same pieces. -/
theorem arguments_cut_without_loss (content : List Char) :
    (∀ p ∈ splitArguments content, p ≠ []) ∧
    (splitArguments content).flatten = withoutCuts [] content ∧
    (∀ p ∈ (splitArguments content).dropLast, Shut p) ∧
    (∀ ps qs, splitArguments content = ps ++ qs → ps ≠ [] → qs ≠ [] →
      ∃ before c after, content = before ++ c :: after ∧ isBlank c ∧ Shut before ∧
        splitArguments before = ps ∧ splitArguments after = qs) ∧
    splitArguments ([' '].intercalate (splitArguments content)) = splitArguments content := by
  have hcut := cutInto_splitArguments content
  refine ⟨fun _ => ne_nil_of_mem_splitArgumentsFrom, flatten_splitArguments content,
    hcut.shut_of_mem_dropLast, ?_, hcut.intercalate.splitArguments_eq⟩
  intro ps qs hpieces hps hqs
  rw [hpieces] at hcut
  obtain ⟨before, c, after, hcontent, hc, hshut, hbefore, hafter⟩ := hcut.append_inv hps hqs
  exact ⟨before, c, after, hcontent, hc, hshut, hbefore.splitArguments_eq,
    hafter.splitArguments_eq⟩

/-- A string that hides a parenthesis, a group, and a raw stretch that nothing closes. -/
theorem call_cut_behind_group :
    let content := "M \"a (\"  (b  c)\t<<d e".toList
    let named := ["M".toList, "\"a (\"".toList, "(b  c)".toList]
    splitArguments content = named ++ ["<<d e".toList] ∧ named ≠ [] ∧ ["<<d e".toList] ≠ [] ∧
      "(b  c)".toList ∈ (splitArguments content).dropLast ∧ Shut "(b  c)".toList ∧
      ∃ before c after, content = before ++ c :: after ∧ isBlank c ∧ Shut before ∧
        splitArguments before = named ∧ splitArguments after = ["<<d e".toList] := by
  intro content named
  have hpieces : splitArguments content = named ++ ["<<d e".toList] := by decide +kernel
  have hmem : "(b  c)".toList ∈ (splitArguments content).dropLast := by decide +kernel
  obtain ⟨-, -, hshut, hcut, -⟩ := arguments_cut_without_loss content
  exact ⟨hpieces, by simp [named], by simp, hmem, hshut _ hmem,
    hcut named ["<<d e".toList] hpieces (by simp [named]) (by simp)⟩

end CampaignMarkup
