import CampaignMarkup.Path.Normal
import CampaignMarkup.Proofs.Text.Lines
import CampaignMarkup.Proofs.Token.Cuts

/-! # Segments and components

A path is its segments with slashes between them. Folding takes segments away and adds none, so what
is left of a path are names and, in front of them, parents or the root; and this is just what the
folded path is read as. -/
namespace CampaignMarkup

namespace Chars

variable {sep : Char} {cs piece : List Char}

theorem splitOn_eq (sep : Char) (cs : List Char) : splitOn sep cs = cs.splitOn sep := by
  induction cs with
  | nil => rfl
  | cons c cs ih =>
    rw [splitOn, List.splitOn_cons_eq_if_modifyHead, ih]
    by_cases hc : c = sep
    · rw [if_pos hc, if_pos (by simpa using hc)]
    · rw [if_neg hc, if_neg (by simpa using hc)]
      obtain ⟨piece, pieces, hpieces⟩ := List.exists_cons_of_ne_nil (List.splitOn_ne_nil sep cs)
      rw [hpieces, List.modifyHead_cons]

theorem not_mem_of_mem_splitOn (h : piece ∈ splitOn sep cs) : sep ∉ piece := by
  induction cs generalizing piece with
  | nil =>
    obtain rfl := List.mem_singleton.mp h
    exact List.not_mem_nil
  | cons c cs ih =>
    obtain ⟨first, pieces, hpieces⟩ := List.exists_cons_of_ne_nil (splitOn_ne_nil sep cs)
    rw [splitOn, hpieces] at h
    rw [hpieces] at ih
    by_cases hc : c = sep
    · rw [if_pos hc] at h
      rcases List.mem_cons.mp h with rfl | h
      · exact List.not_mem_nil
      · exact ih h
    · rw [if_neg hc] at h
      rcases List.mem_cons.mp h with rfl | h
      · rw [List.mem_cons, not_or]
        exact ⟨Ne.symm hc, ih List.mem_cons_self⟩
      · exact ih (List.mem_cons_of_mem first h)

end Chars

namespace Path

/-! ## Segments -/

section Segments

variable {p : Path} {ss : List String}

theorem segments_ne_nil (p : Path) : p.segments ≠ [] := by
  rw [segments, Text.splitOn, ne_eq, List.map_eq_nil_iff]
  exact Chars.splitOn_ne_nil '/' _

theorem undivided_of_mem_segments {s : String} (h : s ∈ p.segments) : '/' ∉ s.toList := by
  obtain ⟨piece, hpiece, rfl⟩ := List.mem_map.mp h
  rw [String.toList_ofList]
  exact Chars.not_mem_of_mem_splitOn hpiece

theorem intercalate_segments (p : Path) : "/".intercalate p.segments = p.text := by
  apply String.toList_injective
  have hpieces : p.segments.map String.toList = p.text.toList.splitOn '/' := by
    rw [segments, Text.splitOn, Chars.splitOn_eq, List.map_map, String.toList_comp_ofList,
      List.map_id]
  rw [String.toList_intercalate, hpieces]
  exact List.intercalate_splitOn '/'

theorem segments_intercalate (hne : ss ≠ []) (h : ∀ s ∈ ss, '/' ∉ s.toList) :
    (Path.mk ("/".intercalate ss)).segments = ss := by
  have hpieces : (ss.map String.toList).map String.ofList = ss := by
    rw [List.map_map]
    simp
  have hsplit : Chars.splitOn '/' ("/".intercalate ss).toList = ss.map String.toList := by
    rw [String.toList_intercalate, Chars.splitOn_eq]
    apply List.splitOn_intercalate
    · intro piece hpiece
      obtain ⟨s, hs, rfl⟩ := List.mem_map.mp hpiece
      exact h s hs
    · simpa using hne
  rw [segments, Text.splitOn, hsplit, hpieces]

theorem isAbsolute_iff_text : p.isAbsolute ↔ ∃ cs, p.text.toList = '/' :: cs := by
  rw [isAbsolute, Text.startsWith, Option.isSome_iff_exists]
  simp only [Chars.dropStart?_eq_some]
  rfl

/-- A path is absolute if its first segment is empty and not the only one. -/
theorem isAbsolute_iff : p.isAbsolute ↔ ∃ s rest, p.segments = "" :: s :: rest := by
  rw [isAbsolute_iff_text, segments, Text.splitOn]
  cases htext : p.text.toList with
  | nil => simp [Chars.splitOn]
  | cons c cs =>
    obtain ⟨first, pieces, hpieces⟩ := List.exists_cons_of_ne_nil (Chars.splitOn_ne_nil '/' cs)
    rw [Chars.splitOn, hpieces]
    by_cases hc : c = '/'
    · simp [hc]
    · simp [hc]

end Segments

/-! ## Components -/

namespace Component

/-- A component that a segment stands for: a parent or a name. -/
structure Proper (c : Component) : Prop where
  read : ofSegment? c.text = some c
  undivided : '/' ∉ c.text.toList

theorem text_of_ofSegment? {s : String} {c : Component} (h : ofSegment? s = some c) :
    c.text = s := by
  unfold ofSegment? at h
  split at h
  · cases h
  · split at h
    · next hparent =>
      cases h
      exact hparent.symm
    · cases h
      rfl

theorem Proper.cases {c : Component} (h : Proper c) : c = .parent ∨ ∃ n, c = .name n := by
  cases c with
  | root => exact absurd h.undivided (by decide)
  | current => exact absurd h.read (by decide)
  | parent => exact .inl rfl
  | name n => exact .inr ⟨n, rfl⟩

theorem filterMap_text {cs : List Component} (h : ∀ c ∈ cs, Proper c) :
    (cs.map text).filterMap ofSegment? = cs := by
  rw [List.filterMap_map]
  calc cs.filterMap (ofSegment? ∘ text)
      = cs.filterMap some := List.filterMap_congr fun c hc => (h c hc).read
    _ = cs := List.filterMap_some

end Component

open Component

/-- The components that the segments stand for. -/
def named (p : Path) : List Component :=
  p.segments.filterMap ofSegment?

/-- What the components of a path are folded onto. -/
def ground (p : Path) : List Component :=
  if p.isAbsolute then [.root] else []

theorem proper_of_mem_named {p : Path} {c : Component} (h : c ∈ p.named) : Proper c := by
  obtain ⟨s, hs, hread⟩ := List.mem_filterMap.mp h
  have htext := text_of_ofSegment? hread
  constructor
  · rw [htext]
    exact hread
  · rw [htext]
    exact undivided_of_mem_segments hs

theorem foldAll_components (p : Path) :
    foldAll p.components = (p.named.foldl fold p.ground).reverse := by
  rw [foldAll, components, ground]
  cases p.isAbsolute with
  | true => rfl
  | false =>
    rw [if_neg Bool.false_ne_true, if_neg Bool.false_ne_true]
    split <;> rfl

theorem getLast?_named_of_fileName? {p : Path} {n : String}
    (h : p.fileName? = some n) :
    p.named.getLast? = some (.name n) := by
  have hlast : p.components.getLast? = some (.name n) := by
    unfold fileName? at h
    split at h
    · next m hm =>
      cases h
      exact hm
    · cases h
  have hfront : ∀ c : Component, c ≠ .name n → (c :: p.named).getLast? = some (.name n) →
      p.named.getLast? = some (.name n) := by
    intro c hc hcons
    cases hnamed : p.named with
    | nil =>
      rw [hnamed] at hcons
      exact absurd (Option.some.inj hcons) hc
    | cons d ds =>
      rw [hnamed, List.getLast?_cons_cons] at hcons
      exact hcons
  unfold components at hlast
  dsimp only at hlast
  split at hlast
  · exact hfront .root nofun hlast
  · split at hlast
    · exact hfront .current nofun hlast
    · exact hlast

/-! ## Folding -/

theorem ground_cases (p : Path) : p.isAbsolute = true ∧ p.ground = [.root] ∨
    p.isAbsolute = false ∧ p.ground = [] := by
  unfold ground
  cases p.isAbsolute with
  | true => exact .inl ⟨rfl, rfl⟩
  | false => exact .inr ⟨rfl, rfl⟩

/-- What folding does with one more component: it is put on top, or it is a parent and takes the
name on top away, or it is a parent at the root. -/
theorem fold_cases {c : Component} (hc : Proper c) {kept : List Component}
    (hkept : ∀ d ∈ kept, Proper d) (p : Path) :
    fold (kept ++ p.ground) c = (c :: kept) ++ p.ground ∨
      (c = .parent ∧ ∃ n rest, kept = .name n :: rest ∧
        fold (kept ++ p.ground) c = rest ++ p.ground) ∨
      (c = .parent ∧ kept = [] ∧ p.isAbsolute ∧ fold (kept ++ p.ground) c = kept ++ p.ground) := by
  obtain rfl | ⟨n, rfl⟩ := hc.cases
  · cases kept with
    | nil =>
      rcases p.ground_cases with ⟨habsolute, hground⟩ | ⟨-, hground⟩
      · rw [hground]
        exact .inr (.inr ⟨rfl, rfl, habsolute, rfl⟩)
      · rw [hground]
        exact .inl rfl
    | cons top rest =>
      obtain rfl | ⟨n, rfl⟩ := (hkept top List.mem_cons_self).cases
      · exact .inl rfl
      · exact .inr (.inl ⟨rfl, n, rest, rfl, rfl⟩)
  · exact .inl rfl

/-- Folding leaves some of the components, in their order, on what they are folded onto. -/
theorem exists_foldl_fold (cs : List Component) (h : ∀ c ∈ cs, Proper c) (p : Path) :
    ∃ kept, cs.foldl fold p.ground = kept ++ p.ground ∧ kept.Sublist cs.reverse := by
  induction cs using List.reverseRecOn with
  | nil => exact ⟨[], rfl, List.Sublist.refl _⟩
  | append_singleton cs c ih =>
    obtain ⟨kept, hfold, hsub⟩ := ih fun d hd => h d (List.mem_append_left _ hd)
    have hkept : ∀ d ∈ kept, Proper d := by
      intro d hd
      exact h d (List.mem_append_left _ (List.mem_reverse.mp (hsub.subset hd)))
    rw [List.foldl_append, List.foldl_cons, List.foldl_nil, hfold, List.reverse_concat]
    rcases fold_cases (h c (by simp)) hkept p with
      hpush | ⟨-, n, rest, rfl, hpop⟩ | ⟨-, -, -, hroot⟩
    · exact ⟨c :: kept, hpush, hsub.cons_cons c⟩
    · exact ⟨rest, hpop, ((List.sublist_cons_self _ rest).trans hsub).cons c⟩
    · exact ⟨kept, hroot, hsub.cons c⟩

/-- The folded path: what is left of the components in front of which the root may stand. -/
theorem exists_foldAll (p : Path) :
    ∃ kept, foldAll p.components = p.ground ++ kept ∧ kept.Sublist p.named ∧
      ∀ c ∈ kept, Proper c := by
  obtain ⟨kept, hkept, hsub⟩ :=
    exists_foldl_fold p.named (fun c hc => proper_of_mem_named hc) p
  have hsub : kept.reverse.Sublist p.named := by
    rw [← List.reverse_sublist, List.reverse_reverse]
    exact hsub
  refine ⟨kept.reverse, ?_, hsub, fun c hc => proper_of_mem_named (hsub.subset hc)⟩
  have hground : p.ground.reverse = p.ground := by
    rcases p.ground_cases with ⟨-, h⟩ | ⟨-, h⟩ <;> rw [h] <;> rfl
  rw [foldAll_components, hkept, List.reverse_append, hground]

/-! ## The shortest spelling -/

/-- The segments that components without a root are spelled with. -/
def spelled (cs : List Component) : List String :=
  if cs = [] then [""] else cs.map Component.text

section Spelling

variable {cs : List Component}

theorem spelled_ne_nil (cs : List Component) : spelled cs ≠ [] := by
  unfold spelled
  split
  · simp
  · next hne => simpa using hne

theorem undivided_of_mem_spelled (h : ∀ c ∈ cs, Proper c) {s : String} (hs : s ∈ spelled cs) :
    '/' ∉ s.toList := by
  unfold spelled at hs
  split at hs
  · obtain rfl := List.mem_singleton.mp hs
    simp
  · obtain ⟨c, hc, rfl⟩ := List.mem_map.mp hs
    exact (h c hc).undivided

theorem filterMap_spelled (h : ∀ c ∈ cs, Proper c) : (spelled cs).filterMap ofSegment? = cs := by
  unfold spelled
  split
  · next hnil =>
    rw [hnil]
    rfl
  · exact filterMap_text h

/-- No segment that stands for a component is empty or a single dot. -/
theorem head?_spelled (h : ∀ c ∈ cs, Proper c) :
    (∀ s rest, spelled cs ≠ "" :: s :: rest) ∧ (spelled cs).head? ≠ some "." := by
  cases cs with
  | nil => simp [spelled]
  | cons c cs =>
    have hread := (h c List.mem_cons_self).read
    have hne : c.text ≠ "" ∧ c.text ≠ "." := by
      constructor <;> intro heq <;> rw [heq] at hread <;> cases hread
    simp [spelled, hne]

theorem ofComponents_root (cs : List Component) :
    ofComponents (.root :: cs) = ⟨"/".intercalate ("" :: spelled cs)⟩ := by
  cases cs with
  | nil => rfl
  | cons c cs =>
    rw [ofComponents, spelled, if_neg (List.cons_ne_nil c cs), List.map_cons,
      String.intercalate_cons_cons, String.empty_append]

theorem ofComponents_of_proper (h : ∀ c ∈ cs, Proper c) :
    ofComponents cs = ⟨"/".intercalate (spelled cs)⟩ := by
  cases cs with
  | nil => rfl
  | cons c cs => obtain rfl | ⟨n, rfl⟩ := (h c List.mem_cons_self).cases <;> rfl

theorem segments_ofComponents_root (h : ∀ c ∈ cs, Proper c) :
    (ofComponents (.root :: cs)).segments = "" :: spelled cs := by
  rw [ofComponents_root]
  apply segments_intercalate (List.cons_ne_nil _ _)
  intro s hs
  rcases List.mem_cons.mp hs with rfl | hs
  · simp
  · exact undivided_of_mem_spelled h hs

theorem segments_ofComponents (h : ∀ c ∈ cs, Proper c) :
    (ofComponents cs).segments = spelled cs := by
  rw [ofComponents_of_proper h]
  exact segments_intercalate (spelled_ne_nil cs) fun s hs => undivided_of_mem_spelled h hs

theorem isAbsolute_ofComponents_root (h : ∀ c ∈ cs, Proper c) :
    (ofComponents (.root :: cs)).isAbsolute = true := by
  obtain ⟨s, rest, hspelled⟩ := List.exists_cons_of_ne_nil (spelled_ne_nil cs)
  rw [isAbsolute_iff, segments_ofComponents_root h, hspelled]
  exact ⟨s, rest, rfl⟩

theorem isAbsolute_ofComponents (h : ∀ c ∈ cs, Proper c) :
    (ofComponents cs).isAbsolute = false := by
  rw [← Bool.not_eq_true, isAbsolute_iff, segments_ofComponents h]
  rintro ⟨s, rest, heq⟩
  exact (head?_spelled h).1 s rest heq

theorem components_ofComponents_root (h : ∀ c ∈ cs, Proper c) :
    (ofComponents (.root :: cs)).components = .root :: cs := by
  rw [components, isAbsolute_ofComponents_root h, segments_ofComponents_root h, if_pos rfl,
    List.filterMap_cons_none rfl, filterMap_spelled h]

theorem components_ofComponents (h : ∀ c ∈ cs, Proper c) : (ofComponents cs).components = cs := by
  rw [components, isAbsolute_ofComponents h, segments_ofComponents h, if_neg Bool.false_ne_true,
    if_neg (head?_spelled h).2, filterMap_spelled h]

end Spelling

/-- A folded path is read as what was left of it. -/
theorem components_normalize (p : Path) : p.normalize.components = foldAll p.components := by
  obtain ⟨kept, hkept, -, hproper⟩ := exists_foldAll p
  rw [normalize, hkept]
  rcases p.ground_cases with ⟨-, hground⟩ | ⟨-, hground⟩ <;> rw [hground]
  · exact components_ofComponents_root hproper
  · exact components_ofComponents hproper

theorem isAbsolute_normalize (p : Path) : p.normalize.isAbsolute = p.isAbsolute := by
  obtain ⟨kept, hkept, -, hproper⟩ := exists_foldAll p
  rw [normalize, hkept]
  rcases p.ground_cases with ⟨habsolute, hground⟩ | ⟨habsolute, hground⟩ <;>
    rw [hground, habsolute]
  · exact isAbsolute_ofComponents_root hproper
  · exact isAbsolute_ofComponents hproper

end Path

end CampaignMarkup
