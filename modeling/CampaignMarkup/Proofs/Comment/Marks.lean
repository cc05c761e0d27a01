import CampaignMarkup.Comment.Spacing
import CampaignMarkup.Proofs.Token.Lossless

/-! # The hashes that get a blank

Spacing goes line by line. Here the `#`s it looks for are marked in one pass over the characters, so
that the text with its marks shows both the text as it was and the text with its blanks. -/
namespace CampaignMarkup

namespace Comment

open Chars Text

/-- Where the `#`s stand that get a blank, in lines that follow one another from byte `offset`. -/
def hashesFrom (offset : Nat) : List (List Char) → List Nat
  | [] => []
  | line :: more =>
    (if lacksSpace (trimStart line) then [offset + byteSize (line.takeWhile isBlank)] else []) ++
      hashesFrom (offset + byteSize line) more

/-- The byte offsets of the `#`s that get a blank. -/
def hashes (source : String) : List Nat :=
  hashesFrom 0 (linesInclusive source.toList)

/-- A text, some of whose characters are marked. -/
abbrev Marked := List (Char × Bool)

namespace Marked

def plain (m : Marked) : List Char :=
  m.map Prod.fst

/-- The text with a blank behind each marked character. -/
def spaced (m : Marked) : List Char :=
  m.flatMap fun p => if p.2 then [p.1, ' '] else [p.1]

def count (m : Marked) : Nat :=
  m.countP Prod.snd

/-- The byte offsets of the marks. -/
def offsets (offset : Nat) : Marked → List Nat
  | [] => []
  | (c, marked) :: m => (if marked then [offset] else []) ++ offsets (offset + c.utf8Size) m

def unmarked (cs : List Char) : Marked :=
  cs.map (·, false)

@[simp] theorem plain_append (m n : Marked) : plain (m ++ n) = plain m ++ plain n :=
  List.map_append

@[simp] theorem spaced_append (m n : Marked) : spaced (m ++ n) = spaced m ++ spaced n :=
  List.flatMap_append

@[simp] theorem count_append (m n : Marked) : count (m ++ n) = count m + count n :=
  List.countP_append

@[simp] theorem plain_cons (c : Char) (marked : Bool) (m : Marked) :
    plain ((c, marked) :: m) = c :: plain m := rfl

@[simp] theorem spaced_cons_true (c : Char) (m : Marked) :
    spaced ((c, true) :: m) = c :: ' ' :: spaced m := rfl

@[simp] theorem spaced_cons_false (c : Char) (m : Marked) :
    spaced ((c, false) :: m) = c :: spaced m := rfl

@[simp] theorem count_cons_true (c : Char) (m : Marked) :
    count ((c, true) :: m) = count m + 1 := by
  simp [count]

@[simp] theorem count_cons_false (c : Char) (m : Marked) :
    count ((c, false) :: m) = count m := by
  simp [count]

@[simp] theorem plain_unmarked (cs : List Char) : plain (unmarked cs) = cs := by
  simp [plain, unmarked, Function.comp_def]

@[simp] theorem spaced_unmarked (cs : List Char) : spaced (unmarked cs) = cs := by
  induction cs with
  | nil => rfl
  | cons c cs ih => exact congrArg (c :: ·) ih

@[simp] theorem offsets_unmarked (offset : Nat) (cs : List Char) :
    offsets offset (unmarked cs) = [] := by
  induction cs generalizing offset with
  | nil => rfl
  | cons c cs ih => exact ih (offset + c.utf8Size)

theorem unmarked_append (cs ds : List Char) : unmarked (cs ++ ds) = unmarked cs ++ unmarked ds :=
  List.map_append

theorem offsets_append (offset : Nat) (m n : Marked) :
    offsets offset (m ++ n) = offsets offset m ++ offsets (offset + byteSize (plain m)) n := by
  induction m generalizing offset with
  | nil => rfl
  | cons p m ih =>
    obtain ⟨c, marked⟩ := p
    rw [List.cons_append, offsets, ih, offsets, plain_cons, byteSize_cons, Nat.add_assoc,
      List.append_assoc]

theorem eq_unmarked {m : Marked} (h : ∀ p ∈ m, p.2 = false) : m = unmarked (plain m) := by
  induction m with
  | nil => rfl
  | cons p m ih =>
    obtain ⟨hp, hm⟩ := List.forall_mem_cons.mp h
    obtain ⟨c, marked⟩ := p
    cases hp
    exact congrArg ((c, false) :: ·) (ih hm)

end Marked

open Marked

/-- Whether a blank belongs behind a `#` that this text follows. -/
def lacksBlank : List Char → Bool
  | [] => false
  | c :: cs => !isBlank c && c != '#' &&
      (DirectiveKind.ofKeyword? (String.ofList ((c :: cs).takeWhile (!isBlank ·)))).isNone

/-- Marks the `#`s that get a blank; `fresh` tells that the line so far is blank. -/
def mark (fresh : Bool) : List Char → Marked
  | [] => []
  | c :: cs =>
    (c, fresh && c == '#' && lacksBlank cs) :: mark (c == '\n' || (fresh && isBlank c)) cs

@[simp] theorem plain_mark (fresh : Bool) (cs : List Char) : plain (mark fresh cs) = cs := by
  induction cs generalizing fresh with
  | nil => rfl
  | cons c cs ih => exact congrArg (c :: ·) (ih _)

theorem mark_append (fresh : Bool) (cs ds : List Char) : ∃ m fresh',
    mark fresh (cs ++ ds) = m ++ mark fresh' ds ∧ plain m = cs ∧ ∀ p ∈ m, p.2 → p.1 = '#' := by
  induction cs generalizing fresh with
  | nil => exact ⟨[], fresh, rfl, rfl, by simp⟩
  | cons c cs ih =>
    obtain ⟨m, fresh', heq, hplain, hhash⟩ := ih (c == '\n' || (fresh && isBlank c))
    refine ⟨(c, fresh && c == '#' && lacksBlank (cs ++ ds)) :: m, fresh', ?_, ?_, ?_⟩
    · rw [List.cons_append, mark, heq, List.cons_append]
    · exact congrArg (c :: ·) hplain
    · refine List.forall_mem_cons.mpr ⟨fun hmark => ?_, hhash⟩
      simp only [Bool.and_eq_true, beq_iff_eq] at hmark
      exact hmark.1.2

/-- Behind something that is not blank there is no mark up to the end of the line. -/
theorem mark_stale {cs : List Char} (h : '\n' ∉ cs) (ds : List Char) :
    mark false (cs ++ ds) = unmarked cs ++ mark false ds := by
  induction cs with
  | nil => rfl
  | cons c cs ih =>
    obtain ⟨hc, hcs⟩ : '\n' ≠ c ∧ '\n' ∉ cs := by simpa using h
    have hfeed : (c == '\n') = false := by simpa using hc.symm
    rw [List.cons_append, mark, hfeed, Bool.false_and, Bool.false_and, Bool.false_or,
      Bool.false_and, ih hcs]
    rfl

theorem mark_blank {cs : List Char} (h : ∀ c ∈ cs, isBlank c) (ds : List Char) :
    mark true (cs ++ ds) = unmarked cs ++ mark true ds := by
  induction cs with
  | nil => rfl
  | cons c cs ih =>
    obtain ⟨hc, hcs⟩ := List.forall_mem_cons.mp h
    have hhash : (c == '#') = false := by
      have : c ≠ '#' := by
        rintro rfl
        exact absurd hc (by decide)
      simpa using this
    rw [List.cons_append, mark, hhash, hc, Bool.and_false, Bool.false_and, Bool.and_self,
      Bool.or_true, ih hcs]
    rfl

/-! ## The marks of a line -/

/-- What ends a line, and what follows. -/
def Ends (ending rest : List Char) : Prop :=
  ending = ['\n'] ∨ ending = [] ∧ rest = []

theorem exists_line (cs : List Char) (hne : cs ≠ []) : ∃ body ending rest,
    '\n' ∉ body ∧ Ends ending rest ∧ cs = body ++ ending ++ rest ∧
      linesInclusive cs = (body ++ ending) :: linesInclusive rest := by
  induction cs with
  | nil => exact absurd rfl hne
  | cons c cs ih =>
    by_cases hc : c = '\n'
    · subst hc
      exact ⟨[], ['\n'], cs, by simp, .inl rfl, rfl, by simp [linesInclusive]⟩
    · cases cs with
      | nil =>
        exact ⟨[c], [], [], by simpa using Ne.symm hc, .inr ⟨rfl, rfl⟩, by simp,
          by simp [linesInclusive, hc]⟩
      | cons d cs =>
        obtain ⟨body, ending, rest, hbody, hending, heq, hlines⟩ := ih (by simp)
        refine ⟨c :: body, ending, rest, ?_, hending, ?_, ?_⟩
        · simpa using ⟨Ne.symm hc, hbody⟩
        · rw [heq]
          rfl
        · rw [linesInclusive, if_neg hc, hlines]
          rfl

/-- Blanks behind a text do not change the word it begins with. -/
theorem takeWhile_append_blank {cs ds : List Char} (h : ∀ c ∈ ds.head?, isBlank c) :
    (cs ++ ds).takeWhile (!isBlank ·) = cs.takeWhile (!isBlank ·) := by
  induction cs with
  | nil =>
    cases ds with
    | nil => rfl
    | cons d ds => simp [h d rfl]
  | cons c cs ih => simp [List.takeWhile_cons, ih]

theorem takeWhile_trimEnd (cs : List Char) :
    (trimEnd cs).takeWhile (!isBlank ·) = cs.takeWhile (!isBlank ·) := by
  have hsplit : cs = trimEnd cs ++ (cs.reverse.takeWhile isBlank).reverse := by
    rw [trimEnd, ← List.reverse_append, List.takeWhile_append_dropWhile, List.reverse_reverse]
  conv_rhs => rw [hsplit]
  refine (takeWhile_append_blank fun c hc => ?_).symm
  exact List.mem_takeWhile_imp (List.mem_reverse.mp (List.mem_of_mem_head? hc))

theorem trimEnd_hash (cs : List Char) : trimEnd ('#' :: cs) = '#' :: trimEnd cs := by
  rw [trimEnd, trimEnd, List.reverse_cons, List.dropWhile_append]
  split
  · next h =>
    rw [List.isEmpty_iff.mp h]
    rfl
  · simp

theorem isNone_ofComment?_hash (cs : List Char) :
    (Directive.ofComment? (String.ofList ('#' :: cs))).isNone =
      (DirectiveKind.ofKeyword? (String.ofList (cs.takeWhile (!isBlank ·)))).isNone := by
  simp [Directive.ofComment?]

/-- The marks of one line. -/
def markLine (line : List Char) : Marked :=
  if lacksSpace (trimStart line) then
    unmarked (line.takeWhile isBlank) ++ ('#', true) :: unmarked (trimStart line).tail
  else unmarked line

theorem Ends.takeWhile_eq {ending rest : List Char} (h : Ends ending rest) (cs : List Char) :
    (cs ++ ending ++ rest).takeWhile (!isBlank ·) = (cs ++ ending).takeWhile (!isBlank ·) := by
  rcases h with rfl | ⟨rfl, rfl⟩
  · have hfeed : ∀ more, ∀ c ∈ ('\n' :: more).head?, isBlank c := by
      rintro more c ⟨⟩
      decide
    rw [List.append_assoc, List.singleton_append, takeWhile_append_blank (hfeed rest),
      takeWhile_append_blank (hfeed [])]
  · simp

theorem Ends.mark_stale {ending rest : List Char} (h : Ends ending rest) :
    mark false (ending ++ rest) = unmarked ending ++ mark true rest := by
  rcases h with rfl | ⟨rfl, rfl⟩
  · rfl
  · rfl

theorem Ends.isBlank {ending rest : List Char} (h : Ends ending rest) :
    ∀ c ∈ ending, isBlank c := by
  rcases h with rfl | ⟨rfl, rfl⟩
  · exact List.forall_mem_singleton.mpr (by decide)
  · simp

/-- Whether a line lacks its blank can be told from what follows the `#`. -/
theorem lacksSpace_eq (c : Char) (cs : List Char) {ending rest : List Char}
    (h : Ends ending rest) :
    lacksSpace (c :: (cs ++ ending)) = (c == '#' && lacksBlank (cs ++ ending ++ rest)) := by
  by_cases hc : c = '#'
  · subst hc
    have hword := h.takeWhile_eq cs
    cases hcs : cs ++ ending with
    | nil =>
      obtain ⟨rfl, rfl⟩ := List.append_eq_nil_iff.mp hcs
      obtain hno | ⟨-, rfl⟩ := h
      · cases hno
      · rfl
    | cons d ds =>
      rw [hcs] at hword
      rw [lacksSpace, trimEnd_hash, isNone_ofComment?_hash, takeWhile_trimEnd, ← hword]
      rfl
  · have hno : (c == '#') = false := by simpa using hc
    rw [hno, lacksSpace, Bool.false_and]
    intro d ds heq
    exact absurd (List.cons.inj heq).1 hc

/-- The marks of a text are the marks of its lines. -/
theorem mark_line {body ending rest : List Char} (hbody : '\n' ∉ body) (h : Ends ending rest) :
    mark true (body ++ ending ++ rest) = markLine (body ++ ending) ++ mark true rest := by
  have hsplit : body = body.takeWhile isBlank ++ body.dropWhile isBlank :=
    List.takeWhile_append_dropWhile.symm
  have hblank : ∀ c ∈ body.takeWhile isBlank, isBlank c := fun c hc => List.mem_takeWhile_imp hc
  cases hcore : body.dropWhile isBlank with
  | nil =>
    rw [hcore, List.append_nil] at hsplit
    have hall : ∀ c ∈ body ++ ending, isBlank c := by
      intro c hc
      rcases List.mem_append.mp hc with hc | hc
      · exact hblank c (hsplit ▸ hc)
      · exact h.isBlank c hc
    have htrim : trimStart (body ++ ending) = [] := List.dropWhile_eq_nil_iff.mpr hall
    rw [markLine, htrim, mark_blank hall]
    rfl
  | cons c core =>
    have hc : isBlank c = false := head?_dropWhile c (by rw [hcore]; rfl)
    have hfeed : (c == '\n') = false := by
      have : c ≠ '\n' := by
        rintro rfl
        exact absurd hc (by decide)
      simpa using this
    have hcoreFeed : '\n' ∉ core := by
      intro hmem
      rw [hsplit, hcore] at hbody
      exact hbody (by simp [hmem])
    have htake : (body ++ ending).takeWhile isBlank = body.takeWhile isBlank := by
      conv_lhs => rw [hsplit, hcore, List.append_assoc]
      exact takeWhile_run hblank (by simp [hc])
    have htrim : trimStart (body ++ ending) = c :: (core ++ ending) := by
      rw [Chars.trimStart, hsplit, hcore, List.append_assoc]
      exact dropWhile_run hblank (by simp [hc])
    have hmark : mark true (body ++ ending ++ rest) = unmarked (body.takeWhile isBlank) ++
        (c, c == '#' && lacksBlank (core ++ ending ++ rest)) :: (unmarked (core ++ ending) ++
          mark true rest) := by
      conv_lhs => rw [hsplit, hcore]
      rw [List.append_assoc, List.append_assoc, mark_blank hblank, List.cons_append, mark, hfeed,
        hc, Bool.true_and, Bool.true_and, Bool.false_or, Comment.mark_stale hcoreFeed, h.mark_stale,
        unmarked_append, List.append_assoc, List.append_assoc]
    rw [hmark, ← lacksSpace_eq c core h, markLine, htake, htrim]
    cases hlacks : lacksSpace (c :: (core ++ ending)) with
    | true =>
      have hhash : c = '#' := by
        rw [lacksSpace_eq c core h, Bool.and_eq_true, beq_iff_eq] at hlacks
        exact hlacks.1
      rw [if_pos rfl, hhash]
      simp
    | false =>
      conv_rhs => rw [hsplit, hcore]
      simp [unmarked]

theorem spaced_markLine (line : List Char) : spaced (markLine line) = spaceLine line := by
  unfold markLine spaceLine
  dsimp only
  split
  · rw [spaced_append, spaced_unmarked, spaced_cons_true, spaced_unmarked]
  · exact spaced_unmarked line

theorem offsets_markLine (offset : Nat) (line : List Char) :
    offsets offset (markLine line) =
      if lacksSpace (trimStart line) then [offset + byteSize (line.takeWhile isBlank)] else [] := by
  unfold markLine
  split
  · rw [offsets_append, offsets_unmarked, plain_unmarked, offsets, offsets_unmarked]
    rfl
  · exact offsets_unmarked offset line

theorem plain_markLine (line : List Char) : plain (markLine line) = line := by
  unfold markLine
  split
  · next hlacks =>
    have hhash : trimStart line = '#' :: (trimStart line).tail := by
      unfold lacksSpace at hlacks
      split at hlacks
      · next heq => rw [heq]; rfl
      · cases hlacks
    rw [plain_append, plain_unmarked, plain_cons, plain_unmarked, ← hhash]
    exact List.takeWhile_append_dropWhile
  · exact plain_unmarked line

/-- The marked text shows what spacing the lines gives, and where. -/
theorem spaced_mark (offset : Nat) (cs : List Char) :
    spaced (mark true cs) = (linesInclusive cs).flatMap spaceLine ∧
      offsets offset (mark true cs) = hashesFrom offset (linesInclusive cs) := by
  induction hn : cs.length using Nat.strong_induction_on generalizing offset cs with
  | _ n ih =>
    by_cases hne : cs = []
    · subst hne
      exact ⟨rfl, rfl⟩
    · obtain ⟨body, ending, rest, hbody, hends, rfl, hlines⟩ := exists_line cs hne
      have hshort : rest.length < n := by
        rw [← hn]
        rcases hends with rfl | ⟨rfl, rfl⟩
        · simp
          omega
        · simpa using List.length_pos_iff.mpr hne
      obtain ⟨hspaced, hoffsets⟩ :=
        ih rest.length hshort (offset + byteSize (body ++ ending)) rest rfl
      rw [mark_line hbody hends, hlines]
      constructor
      · rw [spaced_append, spaced_markLine, hspaced, List.flatMap_cons]
      · rw [offsets_append, offsets_markLine, plain_markLine, hoffsets, hashesFrom]

theorem hashes_eq (source : String) : hashes source = offsets 0 (mark true source.toList) :=
  (spaced_mark 0 source.toList).2.symm

theorem toList_of_space? {source spacedSource : String} (h : space? source = some spacedSource) :
    spacedSource.toList = spaced (mark true source.toList) := by
  unfold space? at h
  dsimp only at h
  split at h
  · cases h
    rw [String.toList_ofList, (spaced_mark 0 source.toList).1]
  · cases h

end Comment

end CampaignMarkup
