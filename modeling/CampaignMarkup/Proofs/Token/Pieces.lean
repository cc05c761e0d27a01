import CampaignMarkup.Proofs.Token.Cuts

/-! # The pieces of a text

Once plain text and lone angles are fused, a text falls into pieces: words, and the other forms as
they were cut. A list of pieces in which each can stand in front of the next is the only such list,
which is how a text is recognised that was put together from pieces. -/
namespace CampaignMarkup

namespace Lexeme

open Text Chars

/-- A run of plain characters and lone angles. -/
structure IsWord (w : List Char) : Prop where
  ne_nil : w ≠ []
  chars : ∀ c ∈ w, isPlain c ∨ c = '<'
  undoubled : Undoubled '<' w

theorem IsWord.append {v w : List Char} (hv : IsWord v) (hw : IsWord w)
    (h : v.getLast? = some '<' → w.head? ≠ some '<') : IsWord (v ++ w) := by
  refine ⟨by simp [hv.ne_nil], fun c hc => ?_, undoubled_append.mpr ⟨hv.undoubled, hw.undoubled, h⟩⟩
  rcases List.mem_append.mp hc with hc | hc
  · exact hv.chars c hc
  · exact hw.chars c hc

theorem isWord_of_plain {run : List Char} (hne : run ≠ []) (h : ∀ c ∈ run, isPlain c) :
    IsWord run := by
  refine ⟨hne, fun c hc => .inl (h c hc), ?_⟩
  -- a plain character is no angle, so no pair of neighbours is a pair of angles
  clear hne
  induction run with
  | nil => exact .nil
  | cons c run ih =>
    refine undoubled_cons.mpr ⟨fun hc => ?_, ih fun d hd => h d (List.mem_cons_of_mem _ hd)⟩
    exact absurd hc (isPlain_iff.mp (h c List.mem_cons_self)).2.2.2.2.1

theorem isWord_angle : IsWord ['<'] :=
  ⟨by simp, by simp, .singleton _⟩

/-- The shape of a fused run of text. -/
def wordShape (w : List Char) : Shape :=
  if w = ['<'] then .loneAngle else .text

@[simp] theorem kind_wordShape (w : List Char) : (wordShape w).kind = .text := by
  unfold wordShape
  split <;> rfl

/-- The kind of the token with which a text begins. -/
def firstKind (cs : List Char) : Option TokenKind :=
  (scan cs).head?.map (·.shape.kind)

theorem firstKind_nil : firstKind [] = none := by
  rw [firstKind, scan_nil]
  rfl

theorem firstKind_plain {c : Char} (h : isPlain c) (cs : List Char) :
    firstKind (c :: cs) = some .text := by
  rw [firstKind, scan, next_plain h]
  rfl

theorem not_plain_of_firstKind {rest : List Char} (h : firstKind rest ≠ some .text) :
    ∀ c ∈ rest.head?, isPlain c = false := by
  intro c hc
  obtain ⟨cs, rfl⟩ := List.head?_eq_some_iff.mp hc
  by_contra hp
  exact h (firstKind_plain (by simpa using hp) cs)

theorem head?_fuse (xs : List Lexeme) :
    (fuse xs).head?.map (·.shape.kind) = xs.head?.map (·.shape.kind) := by
  cases xs with
  | nil => rfl
  | cons x xs =>
    rw [fuse]
    cases fuse xs with
    | nil => rfl
    | cons y ys =>
      by_cases h : (x.isText && y.isText) = true
      · have hx : x.shape.kind = .text := by
          simp only [isText, Bool.and_eq_true, beq_iff_eq] at h
          exact h.1
        simp only [h, if_true]
        exact congrArg some hx.symm
      · simp only [h]
        rfl

/-- A lexeme stays apart from what follows unless both are text. -/
theorem fuse_cons_apart {x : Lexeme} {xs : List Lexeme}
    (h : x.isText → xs.head?.map (·.shape.kind) ≠ some .text) :
    fuse (x :: xs) = x :: fuse xs := by
  rw [fuse]
  have hhead := head?_fuse xs
  cases hys : fuse xs with
  | nil => rfl
  | cons y ys =>
    have hno : (x.isText && y.isText) = false := by
      rw [hys] at hhead
      by_contra hb
      simp only [Bool.not_eq_false, Bool.and_eq_true] at hb
      refine h hb.1 (hhead.symm.trans ?_)
      simpa [isText] using hb.2
    simp only [hno]
    rfl

theorem fuse_cons_text {x y : Lexeme} {xs ys : List Lexeme} (hx : x.isText) (hy : y.isText)
    (h : fuse xs = y :: ys) : fuse (x :: xs) = ⟨.text, x.chars ++ y.chars⟩ :: ys := by
  rw [fuse, h]
  simp only [hx, hy, Bool.and_self, if_true]

/-- The piece can stand in front of this rest. -/
inductive PieceBefore : Lexeme → List Char → Prop where
  | form {x rest} : x.CutBefore rest → x.isText = false → PieceBefore x rest
  | word {w rest} : IsWord w → firstKind rest ≠ some .text →
      (w.getLast? = some '<' → rest.head? ≠ some '<') → PieceBefore ⟨wordShape w, w⟩ rest

/-- A text and the pieces it falls into. -/
inductive Pieces : List Char → List Lexeme → Prop where
  | nil : Pieces [] []
  | cons {x rest xs} : x.PieceBefore rest → Pieces rest xs → Pieces (x.chars ++ rest) (x :: xs)

theorem fuse_scan_form {x : Lexeme} {rest : List Char} (h : x.CutBefore rest)
    (hx : x.isText = false) : fuse (scan (x.chars ++ rest)) = x :: fuse (scan rest) := by
  rw [h.scan_eq]
  exact fuse_cons_apart (fun ht => by simp [hx] at ht)

theorem wordShape_of_ne {w : List Char} (h : w ≠ ['<']) : wordShape w = .text :=
  if_neg h

theorem wordShape_append {v w : List Char} (hv : v ≠ []) (hw : w ≠ []) :
    wordShape (v ++ w) = .text := by
  refine wordShape_of_ne (fun h => ?_)
  have hlen := congrArg List.length h
  have hv := List.length_pos_iff.mpr hv
  have hw := List.length_pos_iff.mpr hw
  simp only [List.length_append, List.length_singleton] at hlen
  omega

/-- The first plain run or lone angle of a word is a lexeme. -/
theorem IsWord.first_cut {w rest : List Char} (hw : IsWord w) (hrest : firstKind rest ≠ some .text)
    (hangle : w.getLast? = some '<' → rest.head? ≠ some '<') :
    ∃ (first : Lexeme) (after : List Char), first.CutBefore (after ++ rest) ∧ first.isText ∧
      w = first.chars ++ after ∧ (after = [] → first.shape = wordShape w) := by
  obtain ⟨c, w, rfl⟩ := List.exists_cons_of_ne_nil hw.ne_nil
  rcases hw.chars c List.mem_cons_self with hc | rfl
  · refine ⟨⟨.text, (c :: w).takeWhile isPlain⟩, (c :: w).dropWhile isPlain, ?_, rfl,
      List.takeWhile_append_dropWhile.symm, fun _ => ?_⟩
    · refine .text (by simp [hc]) (fun d hd => List.mem_takeWhile_imp hd) (fun d hd => ?_)
      cases hafter : (c :: w).dropWhile isPlain with
      | nil =>
        rw [hafter] at hd
        exact not_plain_of_firstKind hrest d hd
      | cons e after =>
        rw [hafter] at hd
        exact head?_dropWhile d (by rw [hafter]; exact hd)
    · have hne : c ≠ '<' := (isPlain_iff.mp hc).2.2.2.2.1
      exact (wordShape_of_ne (by simp [hne])).symm
  · refine ⟨⟨.loneAngle, ['<']⟩, w, .loneAngle ?_, rfl, rfl, fun h => by subst h; rfl⟩
    cases w with
    | nil => exact hangle rfl
    | cons d w => exact (undoubled_cons.mp hw.undoubled).1 rfl

/-- By induction on the word: its first lexeme is fused with the word that is left, if there is
one. -/
theorem fuse_scan_word {w rest : List Char} (hw : IsWord w) (hrest : firstKind rest ≠ some .text)
    (hangle : w.getLast? = some '<' → rest.head? ≠ some '<') :
    fuse (scan (w ++ rest)) = ⟨wordShape w, w⟩ :: fuse (scan rest) := by
  induction hn : w.length using Nat.strong_induction_on generalizing w with
  | _ n ih =>
    obtain ⟨first, after, hcut, htext, rfl, hshape⟩ := hw.first_cut hrest hangle
    have hpos := List.length_pos_iff.mpr hcut.ne_nil
    rw [List.append_assoc, hcut.scan_eq]
    by_cases hafter : after = []
    · subst hafter
      rw [List.nil_append, fuse_cons_apart (fun _ => hrest), ← hshape rfl, List.append_nil]
    · have hword : IsWord after :=
        ⟨hafter, fun c hc => hw.chars c (List.mem_append_right _ hc),
          (undoubled_append.mp hw.undoubled).2.1⟩
      have hlast : after.getLast? = some '<' → rest.head? ≠ some '<' := by
        rw [List.getLast?_append_of_ne_nil _ hafter] at hangle
        exact hangle
      have hlen : after.length < n := by
        rw [← hn, List.length_append]
        omega
      rw [wordShape_append hcut.ne_nil hafter]
      exact fuse_cons_text htext (by simp [isText]) (ih _ hlen hword hlast rfl)

/-- There is no second way to take a text apart. -/
theorem Pieces.eq_fuse {text : List Char} {xs : List Lexeme} (h : Pieces text xs) :
    xs = fuse (scan text) := by
  induction h with
  | nil => rw [scan_nil]; rfl
  | cons hx _ ih =>
    cases hx with
    | form hcut htext => rw [fuse_scan_form hcut htext, ih]
    | word hw hrest hangle => rw [fuse_scan_word hw hrest hangle, ih]

theorem CutBefore.isWord {x : Lexeme} {rest : List Char} (h : x.CutBefore rest) (hx : x.isText) :
    IsWord x.chars ∧ x.shape = wordShape x.chars ∧
      (x.chars.getLast? = some '<' → rest.head? ≠ some '<') := by
  cases h with
  | loneAngle hrest => exact ⟨isWord_angle, rfl, fun _ => hrest⟩
  | @text run _ hne hrun hrest =>
    have hangle : ∀ c ∈ run, c ≠ '<' := fun c hc => (isPlain_iff.mp (hrun c hc)).2.2.2.2.1
    refine ⟨isWord_of_plain hne hrun, (wordShape_of_ne ?_).symm, fun hlast => ?_⟩
    · rintro rfl
      exact hangle '<' List.mem_cons_self rfl
    · exact absurd rfl (hangle '<' (List.mem_of_getLast? hlast))
  | _ => cases hx

theorem CutBefore.pieceBefore {x : Lexeme} {rest : List Char} (h : x.CutBefore rest)
    (hrest : x.isText → firstKind rest ≠ some .text) : x.PieceBefore rest := by
  by_cases hx : x.isText
  · obtain ⟨hword, hshape, hangle⟩ := h.isWord hx
    have hword := PieceBefore.word hword (hrest hx) hangle
    rwa [← hshape] at hword
  · exact .form h (by simpa using hx)

theorem Pieces.eq_nil {text : List Char} (h : Pieces text []) : text = [] := by
  cases h
  rfl

theorem Pieces.firstKind_eq {text : List Char} {xs : List Lexeme} (h : Pieces text xs) :
    firstKind text = xs.head?.map (·.shape.kind) := by
  rw [h.eq_fuse, head?_fuse]
  rfl

/-- Every text falls into the pieces that fusing its lexemes gives. -/
theorem pieces_fuse_scan (text : List Char) : Pieces text (fuse (scan text)) := by
  induction text using scan_induction with
  | nil => rw [scan_nil]; exact .nil
  | cut x rest hcut ih =>
    rw [hcut.scan_eq]
    by_cases hboth : x.isText ∧ firstKind rest = some .text
    · obtain ⟨hx, hrest⟩ := hboth
      -- the word that follows begins right behind the lexeme, and the two make one word
      cases hys : fuse (scan rest) with
      | nil =>
        rw [hys] at ih
        rw [ih.eq_nil, firstKind_nil] at hrest
        cases hrest
      | cons y ys =>
        rw [hys] at ih
        have hy : y.shape.kind = .text := by
          rw [ih.firstKind_eq] at hrest
          exact Option.some.inj hrest
        obtain ⟨hword, -, hjoin⟩ := hcut.isWord hx
        rw [fuse_cons_text hx (by simp [isText, hy]) hys]
        cases ih with
        | @cons _ after _ hpiece hafter =>
          cases hpiece with
          | form _ hno => simp [isText, hy] at hno
          | @word w _ hw hstop hangle =>
            have hsum : IsWord (x.chars ++ w) := hword.append hw (fun hl => by
              have h := hjoin hl
              rwa [List.head?_append_of_ne_nil _ hw.ne_nil] at h)
            have hlast : (x.chars ++ w).getLast? = some '<' → after.head? ≠ some '<' := by
              rw [List.getLast?_append_of_ne_nil _ hw.ne_nil]
              exact hangle
            have hsumPiece := PieceBefore.word hsum hstop hlast
            rw [wordShape_append hword.ne_nil hw.ne_nil] at hsumPiece
            simpa using Pieces.cons hsumPiece hafter
    · have hapart : x.isText → firstKind rest ≠ some .text := fun hx hr => hboth ⟨hx, hr⟩
      rw [fuse_cons_apart hapart]
      exact .cons (hcut.pieceBefore hapart) ih

end Lexeme

end CampaignMarkup
