import CampaignMarkup.Proofs.Path.Joins

/-! # The normal form

Folding leaves names and, in front of them, the root or the parents that found no name to take away.
Such a path is folded to itself, so a path can be folded before something is joined to it. -/
namespace CampaignMarkup.Path

open Component

/-- What a name between slashes can be. -/
structure IsName (n : String) : Prop where
  ne_empty : n ≠ ""
  ne_dot : n ≠ "."
  ne_dots : n ≠ ".."
  undivided : '/' ∉ n.toList

instance (n : String) : Decidable (IsName n) :=
  decidable_of_iff (n ≠ "" ∧ n ≠ "." ∧ n ≠ ".." ∧ '/' ∉ n.toList)
    ⟨fun h => ⟨h.1, h.2.1, h.2.2.1, h.2.2.2⟩,
      fun h => ⟨h.ne_empty, h.ne_dot, h.ne_dots, h.undivided⟩⟩

/-- Parents and names below them; below the root there are no parents. -/
inductive Canonical : Path → Prop where
  | absolute {names} : (∀ n ∈ names, IsName n) → Canonical ⟨"/" ++ "/".intercalate names⟩
  | relative {ups names} : (∀ n ∈ names, IsName n) →
      Canonical ⟨"/".intercalate (List.replicate ups ".." ++ names)⟩

variable {n : String} {names : List String} {p q : Path}

/-! ## Parents and names -/

theorem IsName.read (h : IsName n) : ofSegment? n = some (.name n) := by
  rw [ofSegment?, if_neg (not_or.mpr ⟨h.ne_empty, h.ne_dot⟩), if_neg h.ne_dots]

theorem IsName.proper (h : IsName n) : Proper (.name n) :=
  ⟨h.read, h.undivided⟩

theorem isName_of_proper (h : Proper (.name n)) : IsName n := by
  have hread : ofSegment? n = some (.name n) := h.read
  refine ⟨?_, ?_, ?_, h.undivided⟩ <;> rintro rfl <;> exact absurd hread (by decide)

/-- So many parents, and then the names. -/
def descent (ups : Nat) (names : List String) : List Component :=
  List.replicate ups .parent ++ names.map .name

theorem proper_of_mem_descent (ups : Nat) (h : ∀ n ∈ names, IsName n) :
    ∀ c ∈ descent ups names, Proper c := by
  intro c hc
  rcases List.mem_append.mp hc with hc | hc
  · rw [List.eq_of_mem_replicate hc]
    exact ⟨by decide, by decide⟩
  · obtain ⟨n, hn, rfl⟩ := List.mem_map.mp hc
    exact (h n hn).proper

theorem map_text_descent (ups : Nat) (names : List String) :
    (descent ups names).map Component.text = List.replicate ups ".." ++ names := by
  have hnames : names.map (Component.text ∘ .name) = names := List.map_id names
  rw [descent, List.map_append, List.map_replicate, List.map_map, hnames]
  rfl

theorem descent_nil (ups : Nat) : descent ups [] = List.replicate ups .parent :=
  List.append_nil _

/-! ## Folding -/

theorem foldl_fold_parents (ups : Nat) :
    (List.replicate ups Component.parent).foldl fold [] = List.replicate ups .parent := by
  induction ups with
  | zero => rfl
  | succ ups ih =>
    rw [List.replicate_succ', List.foldl_append, ih, ← List.replicate_succ']
    cases ups <;> rfl

/-- Parents and names are folded to themselves. -/
theorem foldl_fold_descent {ups : Nat} (hups : p.isAbsolute → ups = 0) :
    (descent ups names).foldl fold p.ground = (descent ups names).reverse ++ p.ground := by
  rw [descent, List.foldl_append, foldl_fold_names, List.reverse_append, List.reverse_replicate,
    List.append_assoc]
  rcases p.ground_cases with ⟨habsolute, -⟩ | ⟨-, hground⟩
  · rw [hups habsolute]
    rfl
  · rw [hground, foldl_fold_parents, List.append_nil]

/-- One more component onto parents and names. -/
theorem fold_descent {ups : Nat} (hups : p.isAbsolute → ups = 0) (h : ∀ n ∈ names, IsName n)
    {c : Component} (hc : Proper c) :
    ∃ ups' names', fold ((descent ups names).reverse ++ p.ground) c =
        (descent ups' names').reverse ++ p.ground ∧
      (p.isAbsolute → ups' = 0) ∧ ∀ n ∈ names', IsName n := by
  obtain rfl | ⟨n, rfl⟩ := hc.cases
  · rcases List.eq_nil_or_concat names with rfl | ⟨outer, n, rfl⟩
    · rcases p.ground_cases with ⟨habsolute, hground⟩ | ⟨hrelative, hground⟩
      · refine ⟨0, [], ?_, fun _ => rfl, h⟩
        rw [hups habsolute, hground]
        rfl
      · refine ⟨ups + 1, [], ?_, fun habsolute => ?_, h⟩
        · rw [hground, descent_nil, descent_nil, List.reverse_replicate, List.reverse_replicate]
          cases ups <;> rfl
        · rw [hrelative] at habsolute
          cases habsolute
    · refine ⟨ups, outer, ?_, hups, fun m hm => h m (by simp [hm])⟩
      simp [descent, fold]
  · refine ⟨ups, names ++ [n], ?_, hups, ?_⟩
    · simp [descent, fold]
    · exact List.forall_mem_append.mpr ⟨h, List.forall_mem_singleton.mpr (isName_of_proper hc)⟩

/-- Induction on the components: whatever they are, parents and names are left of them. -/
theorem exists_descent (p : Path) :
    ∃ ups names, p.named.foldl fold p.ground = (descent ups names).reverse ++ p.ground ∧
      (p.isAbsolute → ups = 0) ∧ ∀ n ∈ names, IsName n := by
  have hproper : ∀ c ∈ p.named, Proper c := fun c hc => proper_of_mem_named hc
  generalize p.named = cs at hproper
  induction cs using List.reverseRecOn with
  | nil => exact ⟨0, [], rfl, fun _ => rfl, by simp⟩
  | append_singleton cs c ih =>
    obtain ⟨hcs, hc⟩ := List.forall_mem_append.mp hproper
    obtain ⟨ups, names, hfold, hups, hnames⟩ := ih hcs
    rw [List.foldl_append, hfold]
    exact fold_descent hups hnames (List.forall_mem_singleton.mp hc)

theorem ground_reverse (p : Path) : p.ground.reverse = p.ground := by
  rcases p.ground_cases with ⟨-, h⟩ | ⟨-, h⟩ <;> rw [h] <;> rfl

/-! ## Spelling -/

section Spelling

variable (ups : Nat) (p : Path)

theorem ofComponents_root_descent (names : List String) :
    ofComponents (.root :: descent 0 names) = ⟨"/" ++ "/".intercalate names⟩ := by
  rw [ofComponents, map_text_descent]
  rfl

theorem ofComponents_descent (h : ∀ n ∈ names, IsName n) :
    ofComponents (descent ups names) = ⟨"/".intercalate (List.replicate ups ".." ++ names)⟩ := by
  rw [ofComponents_of_proper (proper_of_mem_descent ups h), ← map_text_descent, spelled]
  split
  · next hnil =>
    rw [hnil]
    rfl
  · rfl

theorem segments_ofComponents_descent (h : ∀ n ∈ names, IsName n) :
    (ofComponents (p.ground ++ descent ups names)).segments =
      (if p.isAbsolute then [""] else []) ++ spelled (descent ups names) := by
  have hproper := proper_of_mem_descent ups h
  rcases p.ground_cases with ⟨habsolute, hground⟩ | ⟨hrelative, hground⟩
  · rw [hground, habsolute, if_pos rfl]
    exact segments_ofComponents_root hproper
  · rw [hground, hrelative, if_neg Bool.false_ne_true]
    exact segments_ofComponents hproper

theorem named_ofComponents_descent (h : ∀ n ∈ names, IsName n) :
    (ofComponents (p.ground ++ descent ups names)).named = descent ups names := by
  rw [named, segments_ofComponents_descent ups p h, List.filterMap_append,
    filterMap_spelled (proper_of_mem_descent ups h)]
  split <;> rfl

/-- Parents and names put together are canonical. -/
theorem canonical_ofComponents (hups : p.isAbsolute → ups = 0) (h : ∀ n ∈ names, IsName n) :
    (ofComponents (p.ground ++ descent ups names)).Canonical := by
  rcases p.ground_cases with ⟨habsolute, hground⟩ | ⟨-, hground⟩ <;> rw [hground]
  · rw [hups habsolute, List.singleton_append, ofComponents_root_descent]
    exact .absolute h
  · rw [List.nil_append, ofComponents_descent ups h]
    exact .relative h

end Spelling

theorem Canonical.exists_descent (h : p.Canonical) :
    ∃ ups names, p = ofComponents (p.ground ++ descent ups names) ∧
      (p.isAbsolute → ups = 0) ∧ ∀ n ∈ names, IsName n := by
  cases h with
  | @absolute names hnames =>
    have habsolute := isAbsolute_ofComponents_root (proper_of_mem_descent 0 hnames)
    rw [← ofComponents_root_descent, ground, if_pos habsolute]
    exact ⟨0, names, rfl, fun _ => rfl, hnames⟩
  | @relative ups names hnames =>
    have hrelative := isAbsolute_ofComponents (proper_of_mem_descent ups hnames)
    rw [← ofComponents_descent ups hnames, ground, hrelative]
    exact ⟨ups, names, rfl, fun h => absurd h Bool.false_ne_true, hnames⟩

theorem Canonical.undotted (h : p.Canonical) : "." ∉ p.segments := by
  obtain ⟨ups, names, hp, -, hnames⟩ := h.exists_descent
  rw [hp, segments_ofComponents_descent ups p hnames, spelled, map_text_descent]
  have hname : "." ∉ names := fun hmem => (hnames _ hmem).ne_dot rfl
  split <;> split <;> simp [hname]

/-- What stands in front of a parent are parents, and not the root. -/
theorem Canonical.parents_lead (h : p.Canonical) {before after : List String}
    (hcut : p.segments = before ++ ".." :: after) :
    p.isAbsolute = false ∧ ∀ s ∈ before, s = ".." := by
  obtain ⟨ups, names, hp, hups, hnames⟩ := h.exists_descent
  have hname : ".." ∉ names := fun hmem => (hnames _ hmem).ne_dots rfl
  have hmem : ".." ∈ p.segments := by simp [hcut]
  have hsegments := segments_ofComponents_descent ups p hnames
  rw [← hp, spelled, map_text_descent] at hsegments
  cases habsolute : p.isAbsolute with
  | true =>
    rw [habsolute, if_pos rfl, hups habsolute] at hsegments
    rw [hsegments] at hmem
    split at hmem <;> simp [hname] at hmem
  | false =>
    rw [habsolute, if_neg Bool.false_ne_true, List.nil_append] at hsegments
    split at hsegments
    · rw [hsegments] at hmem
      simp at hmem
    · rw [hsegments] at hcut
      refine ⟨rfl, fun s hs => ?_⟩
      rcases List.append_eq_append_iff.mp hcut with ⟨rest, -, rfl⟩ | ⟨rest, hfront, -⟩
      · simp at hname
      · apply List.eq_of_mem_replicate (n := ups)
        rw [hfront]
        exact List.mem_append_left _ hs

/-! ## Normal forms -/

theorem normalize_eq {ups : Nat}
    (h : p.named.foldl fold p.ground = (descent ups names).reverse ++ p.ground) :
    p.normalize = ofComponents (p.ground ++ descent ups names) := by
  rw [normalize, foldAll_components, h, List.reverse_append, List.reverse_reverse, ground_reverse]

theorem canonical_normalize (p : Path) : p.normalize.Canonical := by
  obtain ⟨ups, names, hfold, hups, hnames⟩ := p.exists_descent
  rw [normalize_eq hfold]
  exact canonical_ofComponents ups p hups hnames

/-- A path is its own normal form exactly if it is canonical. -/
theorem normalize_eq_self_iff : p.normalize = p ↔ p.Canonical := by
  constructor
  · intro h
    rw [← h]
    exact canonical_normalize p
  · intro h
    obtain ⟨ups, names, hp, hups, hnames⟩ := h.exists_descent
    have hnamed := named_ofComponents_descent ups p hnames
    rw [← hp] at hnamed
    have hfold : p.named.foldl fold p.ground = (descent ups names).reverse ++ p.ground := by
      rw [hnamed, foldl_fold_descent hups]
    rw [normalize_eq hfold, ← hp]

theorem ground_normalize (p : Path) : p.normalize.ground = p.ground := by
  rw [ground, ground, isAbsolute_normalize]

/-- To what is joined to it, a folded path is the path. -/
theorem foldl_named_normalize (p : Path) :
    p.normalize.named.foldl fold p.ground = p.named.foldl fold p.ground := by
  obtain ⟨ups, names, hfold, hups, hnames⟩ := p.exists_descent
  rw [normalize_eq hfold, named_ofComponents_descent ups p hnames, foldl_fold_descent hups, hfold]

theorem normalize_join (p : Path) (h : q.isAbsolute = false) :
    (p.join q).normalize = (p.normalize.join q).normalize := by
  rw [normalize, normalize, foldAll_components, foldAll_components, named_join p h,
    named_join p.normalize h, ground_join p h, ground_join p.normalize h, ground_normalize,
    List.foldl_append, List.foldl_append, foldl_named_normalize]

/-- A parent takes the name before it away. -/
theorem normalize_join_parent (p : Path) (h : IsName n) :
    (p.join ⟨n ++ "/.."⟩).normalize = p.normalize := by
  have hsegments : (Path.mk (n ++ "/..")).segments = [n, ".."] := by
    have hjoined : n ++ "/.." = "/".intercalate [n, ".."] := by simp [String.append_assoc]
    rw [hjoined]
    exact segments_intercalate (List.cons_ne_nil _ _) (by simp [h.undivided])
  have hrelative : (Path.mk (n ++ "/..")).isAbsolute = false := by
    rw [← Bool.not_eq_true, isAbsolute_iff, hsegments]
    rintro ⟨s, rest, heq⟩
    exact h.ne_empty (List.cons.inj heq).1
  have hnamed : (Path.mk (n ++ "/..")).named = [.name n, .parent] := by
    rw [named, hsegments, List.filterMap_cons_some h.read]
    rfl
  rw [normalize, normalize, foldAll_components, foldAll_components, named_join p hrelative,
    ground_join p hrelative, List.foldl_append, hnamed]
  rfl

/-- The normal form has no single dots, has parents in front of a relative path only, is absolute
where the path is and is its own normal form, as a path is exactly if it is canonical. A name and a
parent behind it take each other away, and it makes no difference whether a path is folded before
a relative one is joined to it. -/
theorem normal_form_is_canonical (p : Path) :
    "." ∉ p.normalize.segments ∧
      (∀ before after, p.normalize.segments = before ++ ".." :: after →
        p.isAbsolute = false ∧ ∀ s ∈ before, s = "..") ∧
      p.normalize.isAbsolute = p.isAbsolute ∧
      p.normalize.normalize = p.normalize ∧
      (p.normalize = p ↔ p.Canonical) ∧
      (∀ n, IsName n → (p.join ⟨n ++ "/.."⟩).normalize = p.normalize) ∧
      ∀ q : Path, q.isAbsolute = false → (p.join q).normalize = (p.normalize.join q).normalize := by
  have hcanonical := canonical_normalize p
  refine ⟨hcanonical.undotted, ?_, isAbsolute_normalize p, normalize_eq_self_iff.mpr hcanonical,
    normalize_eq_self_iff, fun n hn => normalize_join_parent p hn, fun q hq => normalize_join p hq⟩
  intro before after hcut
  rw [← isAbsolute_normalize]
  exact hcanonical.parents_lead hcut

/-- More parents than names: those that find none stay, joined at once or step by step. -/
theorem surplus_parents_stay :
    let p : Path := ⟨"../a/./b"⟩
    let q : Path := ⟨"../../../c"⟩
    q.isAbsolute = false ∧ IsName "d" ∧ (p.join ⟨"d/.."⟩).normalize = p.normalize ∧
      p.normalize = ⟨"../a/b"⟩ ∧ (p.join q).normalize = (p.normalize.join q).normalize ∧
      (p.join q).normalize = ⟨"../../c"⟩ ∧
      p.normalize.segments = [] ++ ".." :: ["a", "b"] ∧ p.isAbsolute = false := by
  intro p q
  have hrelative : q.isAbsolute = false := by decide
  have hname : IsName "d" := by decide
  have hnormal : p.normalize = ⟨"../a/b"⟩ := by decide
  have hcut : p.normalize.segments = [] ++ ".." :: ["a", "b"] := by decide
  obtain ⟨-, hlead, -, -, -, hparent, hjoin⟩ := normal_form_is_canonical p
  exact ⟨hrelative, hname, hparent "d" hname, hnormal, hjoin q hrelative, by decide, hcut,
    (hlead [] ["a", "b"] hcut).1⟩

end CampaignMarkup.Path
