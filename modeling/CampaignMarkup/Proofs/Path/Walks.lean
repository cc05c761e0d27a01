import CampaignMarkup.FileTree
import CampaignMarkup.Proofs.Path.Joins
import CampaignMarkup.Proofs.Token.Lossless

/-! # Walks

A walk below a directory takes the files in order, if each directory on its way can be listed. What
can keep it from that is the text of the directory's path, which is that of the path it starts from
and the names on the way. So a walk from a path of which characters were left out finds no less. -/
namespace CampaignMarkup

namespace Chars

theorem byteSize_le_of_sublist {cs ds : List Char} (h : cs.Sublist ds) :
    byteSize cs ≤ byteSize ds := by
  induction h with
  | slnil => exact le_rfl
  | cons c _ ih =>
    rw [byteSize_cons]
    omega
  | cons_cons c _ ih =>
    rw [byteSize_cons, byteSize_cons]
    omega

end Chars

namespace Path

variable {p q : Path}

/-- The text of a path with the slash that the paths below it go on behind. -/
def stem (p : Path) : List Char :=
  if p.text = "" ∨ p.text.toList.getLast? = some '/' then p.text.toList
  else p.text.toList ++ ['/']

theorem toList_join (p : Path) (h : q.isAbsolute = false) :
    (p.join q).text.toList = p.stem ++ q.text.toList := by
  rw [join, h, Bool.false_or, stem]
  by_cases hempty : p.text = ""
  · rw [if_pos (beq_iff_eq.mpr hempty), if_pos (.inl hempty), hempty]
    rfl
  rw [if_neg (mt beq_iff_eq.mp hempty)]
  by_cases hslash : p.text.toList.getLast? = some '/'
  · rw [if_pos hslash, if_pos (.inr hslash), String.toList_append]
  · rw [if_neg hslash, if_neg (not_or.mpr ⟨hempty, hslash⟩), String.toList_append,
      String.toList_append]
    rfl

theorem text_sublist_stem (p : Path) : p.text.toList.Sublist p.stem := by
  unfold stem
  split
  · exact .refl _
  · exact List.sublist_append_left _ _

theorem stem_sublist (h : q.text.toList.Sublist p.text.toList) : q.stem.Sublist p.stem := by
  by_cases hq : q.text = "" ∨ q.text.toList.getLast? = some '/'
  · rw [stem, if_pos hq]
    exact h.trans (text_sublist_stem p)
  obtain ⟨hne, hslash⟩ := not_or.mp hq
  rw [stem, if_neg hq]
  by_cases hp : p.text.toList.getLast? = some '/'
  · rw [stem, if_pos (.inr hp)]
    -- The slash at the end of the one path is none of the characters of the other.
    obtain ⟨front, hfront⟩ := List.getLast?_eq_some_iff.mp hp
    rw [hfront] at h ⊢
    obtain ⟨kept, last, hkept, hsub, hlast⟩ := List.sublist_append_iff.mp h
    rcases List.sublist_singleton.mp hlast with rfl | rfl
    · rw [hkept, List.append_nil]
      exact hsub.append_right ['/']
    · rw [hkept, List.getLast?_concat] at hslash
      exact absurd rfl hslash
  · have hpne : p.text ≠ "" := by
      intro hempty
      rw [hempty] at h
      exact hne (String.toList_injective (List.eq_nil_of_sublist_nil h))
    rw [stem, if_neg (not_or.mpr ⟨hpne, hp⟩)]
    exact h.append_right ['/']

theorem join_sublist (h : q.text.toList.Sublist p.text.toList) (n : Path) :
    (q.join n).text.toList.Sublist (p.join n).text.toList := by
  cases habsolute : n.isAbsolute with
  | true =>
    rw [join_of_isAbsolute p habsolute, join_of_isAbsolute q habsolute]
  | false =>
    rw [toList_join p habsolute, toList_join q habsolute]
    exact (stem_sublist h).append_right _

theorem join_ne_empty (h : p.text ≠ "") (n : Path) : (p.join n).text ≠ "" := by
  intro hempty
  cases habsolute : n.isAbsolute with
  | true =>
    rw [join_of_isAbsolute p habsolute] at hempty
    rw [isAbsolute, hempty] at habsolute
    exact absurd habsolute (by decide)
  | false =>
    have hnil := toList_join p habsolute
    rw [hempty] at hnil
    have hstem : p.stem = [] := (List.append_eq_nil_iff.mp hnil.symm).1
    have hsub := text_sublist_stem p
    rw [hstem] at hsub
    exact h (String.toList_injective (List.eq_nil_of_sublist_nil hsub))

end Path

namespace FileTree

open CampaignMarkup.Path

variable {t : FileTree} {p q : Path} {l : Location} {met : List (Location × Entry)}
  {found : List Path}

/-- A path has no fault of its own if one has none that it is left of. -/
theorem fault?_of_sublist (hsub : q.text.toList.Sublist p.text.toList) (hne : q.text ≠ "")
    (h : fault? p = none) : fault? q = none := by
  have hsize : q.text.utf8ByteSize ≤ p.text.utf8ByteSize := by
    rw [Chars.utf8ByteSize_eq, Chars.utf8ByteSize_eq]
    exact Chars.byteSize_le_of_sublist hsub
  unfold fault? at h ⊢
  split at h
  · cases h
  · next hnul =>
    split at h
    · cases h
    · split at h
      · cases h
      · next hlimit =>
        rw [if_neg, if_neg hne, if_neg (by omega)]
        rw [List.contains_iff_mem] at hnul ⊢
        exact fun hmem => hnul (hsub.subset hmem)

theorem fault?_spelledFrom {names : Location} (hsub : q.text.toList.Sublist p.text.toList)
    (hne : q.text ≠ "") (h : fault? (spelledFrom p names) = none) :
    fault? (spelledFrom q names) = none := by
  induction names generalizing p q with
  | nil => exact fault?_of_sublist hsub hne h
  | cons n names ih => exact ih (join_sublist hsub ⟨n⟩) (join_ne_empty hne ⟨n⟩) h

/-- The names of the files among what a walk meets. -/
def fileNames (met : List (Location × Entry)) : List Location :=
  met.filterMap fun (names, e) =>
    match e with
    | .file _ => some names
    | .directory => none

/-- Each directory that a walk from `p` meets can be listed. -/
def Listed (p : Path) (met : List (Location × Entry)) : Prop :=
  ∀ names, (names, Entry.directory) ∈ met → fault? (spelledFrom p names) = none

theorem collect_eq_ok_iff :
    collect p met = .ok found ↔ Listed p met ∧ found = (fileNames met).map (spelledFrom p) := by
  fun_induction collect p met generalizing found with
  | case1 => simp [Listed, fileNames, eq_comm]
  | case2 names contents met ih =>
    have hlisted : Listed p ((names, .file contents) :: met) ↔ Listed p met := by
      simp [Listed]
    rw [hlisted, fileNames, List.filterMap_cons, ← fileNames]
    constructor
    · intro h
      cases hrest : collect p met with
      | error error =>
        rw [hrest] at h
        cases h
      | ok rest =>
        rw [hrest] at h
        cases h
        obtain ⟨hmet, rfl⟩ := ih.mp hrest
        exact ⟨hmet, rfl⟩
    · rintro ⟨hmet, rfl⟩
      rw [ih.mpr ⟨hmet, rfl⟩]
      rfl
  | case3 names met fault hfault =>
    refine iff_of_false (by simp) ?_
    rintro ⟨hlisted, -⟩
    rw [hlisted names List.mem_cons_self] at hfault
    cases hfault
  | case4 names met hfault ih =>
    have hlisted : Listed p ((names, .directory) :: met) ↔ Listed p met := by
      simp [Listed, hfault]
    rw [hlisted, ih]
    rfl

/-- The names of the files below a location, in the order of a walk. -/
def namesBelow (t : FileTree) (base : Location) : List Location :=
  fileNames (t.entriesBelow base)

theorem filesBelow_eq_ok_iff (h : t.locate p = .ok l) (hdash : ¬ isStandardInput p) :
    t.filesBelow p = .ok found ↔
      Listed p (t.entriesBelow l) ∧ found = (t.namesBelow l).map (spelledFrom p) := by
  rw [filesBelow, if_neg hdash, h]
  exact collect_eq_ok_iff

end FileTree

end CampaignMarkup
