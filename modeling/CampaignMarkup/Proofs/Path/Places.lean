import CampaignMarkup.Proofs.Path.Walks

/-! # Places and their normal forms

Where a path leads somewhere, its normal form leads to the same place: only names that were entered
are left again, and what is left of the path is walked as before. The one exception is a path of
which nothing is left. Its place is the working directory, and the empty path leads nowhere. -/
namespace CampaignMarkup

namespace Chars

theorem intercalate_sublist {α : Type} (sep : List α) {xs ys : List (List α)}
    (h : xs.Sublist ys) : (sep.intercalate xs).Sublist (sep.intercalate ys) := by
  induction h with
  | slnil => exact List.Sublist.refl _
  | @cons xs ys y h ih =>
    cases ys with
    | nil =>
      rw [List.eq_nil_of_sublist_nil h]
      exact List.nil_sublist _
    | cons z zs =>
      rw [List.intercalate_cons_cons]
      exact ih.trans (List.sublist_append_right _ _)
  | @cons_cons xs ys y h ih =>
    cases xs with
    | nil =>
      rw [List.intercalate_singleton]
      cases ys with
      | nil => rw [List.intercalate_singleton]
      | cons z zs =>
        rw [List.intercalate_cons_cons, List.append_assoc]
        exact List.sublist_append_left _ _
    | cons x xs =>
      obtain ⟨z, zs, rfl⟩ : ∃ z zs, ys = z :: zs := by
        cases ys with
        | nil => cases h
        | cons z zs => exact ⟨z, zs, rfl⟩
      rw [List.intercalate_cons_cons, List.intercalate_cons_cons]
      exact (List.Sublist.refl _).append ih

end Chars

namespace Path

open Component

variable {p : Path}

/-- Nothing is left of the path: it goes down and up again, and back to where it starts from. -/
def FoldsAway (p : Path) : Prop :=
  foldAll p.components = []

instance : DecidablePred FoldsAway :=
  fun _ => inferInstanceAs (Decidable (_ = _))

/-- A name at the end is never taken away. -/
theorem not_foldsAway_of_getLast? {n : String} (h : p.named.getLast? = some (.name n)) :
    ¬ p.FoldsAway := by
  obtain ⟨others, hnamed⟩ := List.getLast?_eq_some_iff.mp h
  intro haway
  rw [FoldsAway, foldAll_components, hnamed, List.foldl_append] at haway
  exact List.cons_ne_nil _ _ (List.reverse_eq_nil_iff.mp haway)

theorem map_text_sublist (ss : List String) :
    ((ss.filterMap ofSegment?).map Component.text).Sublist ss := by
  induction ss with
  | nil => exact List.Sublist.refl _
  | cons s ss ih =>
    cases hread : ofSegment? s with
    | none =>
      rw [List.filterMap_cons_none hread]
      exact ih.cons s
    | some c =>
      rw [List.filterMap_cons_some hread, List.map_cons, text_of_ofSegment? hread]
      exact ih.cons_cons s

theorem intercalate_text_sublist {ss ts : List String} (h : ss.Sublist ts) :
    ("/".intercalate ss).toList.Sublist ("/".intercalate ts).toList := by
  rw [String.toList_intercalate, String.toList_intercalate]
  exact Chars.intercalate_sublist _ (h.map _)

/-- Folding leaves characters out and adds none. -/
theorem text_normalize_sublist (p : Path) : p.normalize.text.toList.Sublist p.text.toList := by
  obtain ⟨kept, hkept, hsub, hproper⟩ := exists_foldAll p
  have hsegments : (kept.map Component.text).Sublist (p.named.map Component.text) := hsub.map _
  rw [normalize, hkept, ← intercalate_segments p]
  rcases p.ground_cases with ⟨habsolute, hground⟩ | ⟨-, hground⟩ <;> rw [hground]
  · obtain ⟨s, rest, hp⟩ := isAbsolute_iff.mp habsolute
    have hnamed : p.named = (s :: rest).filterMap ofSegment? := by
      rw [named, hp, List.filterMap_cons_none rfl]
    rw [List.singleton_append, ofComponents_root, hp]
    by_cases hnil : kept = []
    · rw [hnil, String.intercalate_cons_cons, String.empty_append, String.toList_append]
      exact List.sublist_append_left _ _
    · rw [spelled, if_neg hnil]
      rw [hnamed] at hsegments
      exact intercalate_text_sublist ((hsegments.trans (map_text_sublist _)).cons_cons "")
  · rw [List.nil_append, ofComponents_of_proper hproper]
    by_cases hnil : kept = []
    · rw [hnil]
      exact List.nil_sublist _
    · rw [spelled, if_neg hnil]
      exact intercalate_text_sublist (hsegments.trans (map_text_sublist _))

theorem text_normalize_eq_empty_iff : p.normalize.text = "" ↔ p.FoldsAway := by
  constructor
  · intro h
    rw [FoldsAway, ← components_normalize, components, segments, isAbsolute, h]
    decide
  · intro h
    rw [normalize, h]
    rfl

end Path

namespace FileTree

open CampaignMarkup.Path Component

variable {t : FileTree} {p : Path} {l l' start : Location}

/-! ## Walking -/

/-- The location that segments lead to, one after the other. -/
def walk (t : FileTree) (start : Location) (ss : List String) : Except FileError Location :=
  ss.foldlM t.step start

theorem walk_cons (t : FileTree) (start : Location) (s : String) (ss : List String) :
    t.walk start (s :: ss) = (t.step start s).bind fun l => t.walk l ss :=
  rfl

theorem walk_concat {ss : List String} {s : String} :
    t.walk start (ss ++ [s]) = .ok l' ↔ ∃ l, t.walk start ss = .ok l ∧ t.step l s = .ok l' := by
  rw [walk, List.foldlM_append, ← walk]
  cases t.walk start ss with
  | error e => simp [bind, Except.bind]
  | ok l => cases hstep : t.step l s <;> simp [bind, Except.bind, pure, Except.pure, hstep]

/-- Where a segment leads from a directory: nowhere else, to the directory above, or to an entry. -/
def onward (l : Location) (s : String) : Location :=
  match ofSegment? s with
  | none => l
  | some .parent => l.dropLast
  | some _ => l ++ [s]

theorem step_eq_ok {s : String} (h : t.step l s = .ok l') :
    t.entry? l = some .directory ∧ l' = onward l s := by
  unfold step at h
  cases hentry : t.entry? l with
  | none => simp [hentry] at h
  | some e =>
    cases e with
    | file contents => simp [hentry] at h
    | directory =>
      refine ⟨rfl, ?_⟩
      unfold onward ofSegment?
      simp only [hentry] at h
      split at h
      · next hskip =>
        rw [if_pos hskip]
        exact (Except.ok.inj h).symm
      · next hskip =>
        rw [if_neg hskip]
        split at h
        · next hparent =>
          rw [if_pos hparent]
          exact (Except.ok.inj h).symm
        · next hparent =>
          rw [if_neg hparent]
          split at h
          · cases h
          · split at h
            · exact (Except.ok.inj h).symm
            · cases h

/-- What is left of the components leads where their segments have led. -/
def Led (t : FileTree) (p : Path) (folded : List Component) (l : Location) : Prop :=
  ∃ kept, folded = kept ++ p.ground ∧ (∀ c ∈ kept, Proper c) ∧
    t.walk (t.start p) (kept.reverse.map Component.text) = .ok l

theorem Led.begin (t : FileTree) (p : Path) : t.Led p p.ground (t.start p) :=
  ⟨[], rfl, by simp, rfl⟩

theorem Led.fold {folded : List Component} (h : t.Led p folded l) {c : Component} (hc : Proper c)
    (hstep : t.step l c.text = .ok l') : t.Led p (Path.fold folded c) l' := by
  obtain ⟨kept, rfl, hkept, hwalk⟩ := h
  rcases fold_cases hc hkept p with
    hpush | ⟨rfl, n, rest, rfl, hpop⟩ | ⟨rfl, rfl, habsolute, hroot⟩
  · refine ⟨c :: kept, hpush, List.forall_mem_cons.mpr ⟨hc, hkept⟩, ?_⟩
    rw [List.reverse_cons, List.map_append]
    exact walk_concat.mpr ⟨l, hwalk, hstep⟩
  · obtain ⟨hn, hrest⟩ := List.forall_mem_cons.mp hkept
    refine ⟨rest, hpop, hrest, ?_⟩
    -- The name was entered from a directory, and its parent leads back there.
    rw [List.reverse_cons, List.map_append] at hwalk
    obtain ⟨above, habove, henter⟩ := walk_concat.mp hwalk
    have hl : l = above ++ [n] := by
      rw [(step_eq_ok henter).2, onward, hn.read]
      rfl
    have hl' : l' = l.dropLast := (step_eq_ok hstep).2
    rw [habove, hl', hl, List.dropLast_concat]
  · refine ⟨[], hroot, by simp, ?_⟩
    have hl : l = [] := by
      have hstart : t.start p = l := Except.ok.inj hwalk
      rw [← hstart, start, if_pos habsolute]
    have hl' : l' = l.dropLast := (step_eq_ok hstep).2
    rw [hwalk, hl', hl]
    rfl

theorem led_of_walk {ss : List String} (h : t.walk (t.start p) ss = .ok l)
    (hss : ∀ s ∈ ss, '/' ∉ s.toList) :
    t.Led p ((ss.filterMap ofSegment?).foldl Path.fold p.ground) l := by
  induction ss using List.reverseRecOn generalizing l with
  | nil =>
    obtain rfl : t.start p = l := Except.ok.inj h
    exact .begin t p
  | append_singleton ss s ih =>
    obtain ⟨m, hm, hstep⟩ := walk_concat.mp h
    have hled := ih hm fun s hs => hss s (List.mem_append_left _ hs)
    rw [List.filterMap_append, List.foldl_append]
    cases hread : ofSegment? s with
    | none =>
      obtain rfl : l = m := by
        rw [(step_eq_ok hstep).2, onward, hread]
      rw [List.filterMap_cons_none hread]
      exact hled
    | some c =>
      have htext := text_of_ofSegment? hread
      have hproper : Proper c := by
        constructor
        · rw [htext, hread]
        · rw [htext]
          exact hss s (by simp)
      rw [List.filterMap_cons_some hread]
      exact hled.fold hproper (htext.symm ▸ hstep)

/-! ## Normal forms -/

theorem fault?_normalize (h : fault? p = none) (hkept : ¬ p.FoldsAway) :
    fault? p.normalize = none :=
  fault?_of_sublist (text_normalize_sublist p) (mt text_normalize_eq_empty_iff.mp hkept) h

theorem locate_eq_ok (h : t.locate p = .ok l) :
    fault? p = none ∧ t.walk (t.start p) p.segments = .ok l := by
  unfold locate at h
  cases hfault : fault? p with
  | none => exact ⟨rfl, by rwa [hfault] at h⟩
  | some fault =>
    rw [hfault] at h
    cases h

theorem exists_locate (h : t.has p) : ∃ l, t.locate p = .ok l := by
  rw [has, find] at h
  cases hl : t.locate p with
  | error e =>
    rw [hl] at h
    cases h
  | ok l => exact ⟨l, rfl⟩

/-- Nothing is walked to, and nothing is left of the path. -/
theorem workdir_of_foldsAway (h : t.locate p = .ok l) (haway : p.FoldsAway) : l = t.workdir := by
  obtain ⟨-, hwalk⟩ := locate_eq_ok h
  obtain ⟨kept, hfold, -, hkept⟩ := led_of_walk hwalk fun s hs => undivided_of_mem_segments hs
  rw [FoldsAway, foldAll_components, named, hfold, List.reverse_eq_nil_iff,
    List.append_eq_nil_iff] at haway
  obtain ⟨rfl, hground⟩ := haway
  rcases p.ground_cases with ⟨-, hroot⟩ | ⟨hrelative, -⟩
  · rw [hroot] at hground
    cases hground
  · have hstart : t.start p = l := Except.ok.inj hkept
    rw [← hstart, start, hrelative, if_neg Bool.false_ne_true]

theorem locate_normalize (h : t.locate p = .ok l) (hleft : ¬ p.FoldsAway) :
    t.locate p.normalize = .ok l := by
  obtain ⟨hfault, hwalk⟩ := locate_eq_ok h
  obtain ⟨kept, hfold, hproper, hkept⟩ :=
    led_of_walk hwalk fun s hs => undivided_of_mem_segments hs
  have hproper : ∀ c ∈ kept.reverse, Proper c := fun c hc => hproper c (List.mem_reverse.mp hc)
  have hfolded : foldAll p.components = p.ground.reverse ++ kept.reverse := by
    rw [foldAll_components, named, hfold, List.reverse_append]
  have hstart : t.start p.normalize = t.start p := by
    rw [start, start, isAbsolute_normalize]
  rw [locate, fault?_normalize hfault hleft, hstart]
  change t.walk (t.start p) p.normalize.segments = .ok l
  rcases p.ground_cases with ⟨habsolute, hground⟩ | ⟨-, hground⟩
  · -- The empty segment in front of the first slash asks for the root to be a directory.
    have hroot : t.step (t.start p) "" = .ok (t.start p) := by
      obtain ⟨s, rest, hp⟩ := isAbsolute_iff.mp habsolute
      rw [hp, walk_cons] at hwalk
      cases hstep : t.step (t.start p) "" with
      | error e =>
        rw [hstep] at hwalk
        cases hwalk
      | ok m => exact congrArg _ (step_eq_ok hstep).2
    rw [Path.normalize, hfolded, hground, List.reverse_singleton, List.singleton_append,
      segments_ofComponents_root hproper, walk_cons, hroot, Except.bind, spelled]
    split
    · next hnil =>
      rw [hnil] at hkept
      obtain rfl : t.start p = l := Except.ok.inj hkept
      exact congrArg (Except.bind · pure) hroot
    · exact hkept
  · have hne : kept.reverse ≠ [] := by
      intro hnil
      rw [FoldsAway, hfolded, hground, hnil] at hleft
      exact hleft rfl
    rw [Path.normalize, hfolded, hground, List.reverse_nil, List.nil_append,
      segments_ofComponents hproper, spelled, if_neg hne]
    exact hkept

/-- What is left of a path finds what the path finds. -/
theorem find_normalize (h : t.has p) (hleft : ¬ p.FoldsAway) : t.find p.normalize = t.find p := by
  obtain ⟨l, hl⟩ := exists_locate h
  rw [find, find, locate_normalize hl hleft, hl]

theorem not_has_of_foldsAway (h : p.FoldsAway) : ¬ t.has p.normalize := by
  intro hhas
  obtain ⟨l, hl⟩ := exists_locate hhas
  have hempty : (fault? p.normalize).isSome := by
    rw [fault?, text_normalize_eq_empty_iff.mpr h]
    decide
  rw [(locate_eq_ok hl).1] at hempty
  cases hempty

/-! ## The files below a place -/

theorem isStandardInput_normalize (h : isStandardInput p) : isStandardInput p.normalize := by
  rw [isStandardInput, same, beq_iff_eq] at h ⊢
  rw [components_normalize, h]
  decide

/-- Two paths to one place: what is there is the same. A walk from the first path that finds the
files below it finds files of the same names from the second, unless that is a dash and stands for
the standard input. -/
structure SamePlace (t : FileTree) (p q : Path) : Prop where
  place : t.locate q = t.locate p
  entry : t.find q = t.find p
  files : ¬ isStandardInput q → ∀ found, t.filesBelow p = .ok found →
    ∃ names : List Location, found = names.map (spelledFrom p) ∧
      t.filesBelow q = .ok (names.map (spelledFrom q))

theorem samePlace_normalize (h : t.has p) (hleft : ¬ p.FoldsAway) :
    t.SamePlace p p.normalize := by
  obtain ⟨l, hl⟩ := exists_locate h
  have hplace := locate_normalize hl hleft
  refine ⟨hplace.trans hl.symm, find_normalize h hleft, ?_⟩
  intro hdash found hfound
  have hdash' : ¬ isStandardInput p := mt isStandardInput_normalize hdash
  obtain ⟨hlisted, rfl⟩ := (filesBelow_eq_ok_iff hl hdash').mp hfound
  refine ⟨t.namesBelow l, rfl, (filesBelow_eq_ok_iff hplace hdash).mpr ⟨?_, rfl⟩⟩
  intro names hnames
  exact fault?_spelledFrom (text_normalize_sublist p) (mt text_normalize_eq_empty_iff.mp hleft)
    (hlisted names hnames)

end FileTree

end CampaignMarkup
