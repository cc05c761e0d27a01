import CampaignMarkup.Proofs.Path.Resolution

/-! # Staying below a directory

A path without parents that is not absolute leads to what it is joined to or to a place below it,
and so do all the places that a tame path in the markup may stand for. A path that is not tame gets
out: behind a tilde a second slash makes the rest absolute, and two dots are a parent. -/
namespace CampaignMarkup

namespace Path

open Component

variable {root p q : Path}

/-- The place `q` is the place `root` or lies below it. -/
def Within (root q : Path) : Prop :=
  ∃ names : List String, q.components = root.components ++ names.map .name

theorem Within.trans {r : Path} (h : root.Within q) (k : q.Within r) : root.Within r := by
  obtain ⟨names, hq⟩ := h
  obtain ⟨more, hr⟩ := k
  refine ⟨names ++ more, ?_⟩
  rw [hr, hq, List.map_append, List.append_assoc]

/-- A path that goes down and nowhere else, from wherever it is joined to. -/
def Descends (q : Path) : Prop :=
  q.isAbsolute = false ∧ ∃ names : List String, q.named = names.map .name

theorem exists_names {ss : List String} (h : ".." ∉ ss) :
    ∃ names : List String, ss.filterMap ofSegment? = names.map .name := by
  induction ss with
  | nil => exact ⟨[], rfl⟩
  | cons s ss ih =>
    rw [List.mem_cons, not_or] at h
    obtain ⟨names, hnames⟩ := ih h.2
    by_cases hskip : s = "" ∨ s = "."
    · have hread : ofSegment? s = none := if_pos hskip
      exact ⟨names, (List.filterMap_cons_none hread).trans hnames⟩
    · have hread : ofSegment? s = some (.name s) := by
        rw [ofSegment?, if_neg hskip, if_neg (Ne.symm h.1)]
      refine ⟨s :: names, ?_⟩
      rw [List.filterMap_cons_some hread, hnames, List.map_cons]

theorem Descends.of_segments (habsolute : q.isAbsolute = false) (hparents : ".." ∉ q.segments) :
    q.Descends :=
  ⟨habsolute, exists_names hparents⟩

theorem Descends.join (h : p.Descends) (k : q.Descends) : (p.join q).Descends := by
  obtain ⟨hp, names, hnames⟩ := h
  obtain ⟨hq, more, hmore⟩ := k
  refine ⟨(isAbsolute_join p hq).trans hp, names ++ more, ?_⟩
  rw [named_join p hq, hnames, hmore, List.map_append]

theorem Descends.within (h : q.Descends) (p : Path) :
    p.normalize.Within (p.join q).normalize := by
  obtain ⟨habsolute, names, hnames⟩ := h
  refine ⟨names, ?_⟩
  rw [components_normalize, components_normalize, foldAll_join p habsolute hnames]

/-- Only names lie below a place without components. -/
theorem not_within_of_head? (hroot : root.components = []) {c : Component}
    (hq : q.components.head? = some c) (hc : ∀ n, c ≠ .name n) : ¬ root.Within q := by
  rintro ⟨names, h⟩
  rw [hroot, List.nil_append] at h
  cases names with
  | nil =>
    rw [h] at hq
    cases hq
  | cons n names =>
    rw [h, List.map_cons, List.head?_cons, Option.some.injEq] at hq
    exact hc n hq.symm

end Path

namespace Resolver

open CampaignMarkup.Path

variable {r : Resolver} {tree : FileTree} {binaryPaths : List Path} {current : Path}
  {path : String}

/-- The path that is looked for is not absolute and has no parents. -/
def Tame (path : String) : Prop :=
  (sought path).isAbsolute = false ∧ ".." ∉ (sought path).segments

instance : DecidablePred Tame :=
  fun _ => inferInstanceAs (Decidable (_ ∧ _))

/-- The place is at or below the directory that the kind of path belongs to: the user's data behind
a tilde, else the game's data or, for an asset, a binary path on one of the two sides. -/
def Confined (r : Resolver) (binaryPaths : List Path) (path : String) (place : Path) : Prop :=
  if Text.startsWith "~" path then r.userDataDir.normalize.Within place
  else
    r.dataDir.normalize.Within place ∨
      (AssetBucket.ofPath? ⟨path⟩).isSome ∧
        ∃ binary ∈ binaryPaths, ∃ side ∈ [r.userDataDir, r.dataDir],
          ((side.join ⟨".."⟩).join binary).normalize.Within place

theorem sought_of_bare (h : ¬ Text.startsWith "~" path) : sought path = ⟨path⟩ := by
  rw [Text.startsWith_eq, Option.not_isSome_iff_eq_none] at h
  rw [sought, h]

/-! ## Tame paths -/

theorem descends_directory (bucket : AssetBucket) : (Path.mk bucket.directory).Descends := by
  cases bucket <;> exact .of_segments (by decide) (by decide)

theorem descends_core : (Path.mk "core").Descends :=
  .of_segments (by decide) (by decide)

theorem Tame.confined (h : Tame path) (hdot : ¬ Text.startsWith "." path) {q : Path}
    (hq : q ∈ r.spellings tree binaryPaths current path) :
    r.Confined binaryPaths path q.normalize := by
  have hsought : (sought path).Descends := .of_segments h.1 h.2
  rw [spellings, if_neg hdot] at hq
  unfold Confined
  by_cases htilde : Text.startsWith "~" path
  · rw [if_pos htilde] at hq ⊢
    obtain rfl := List.mem_singleton.mp hq
    exact hsought.within _
  · rw [if_neg htilde] at hq ⊢
    cases hbucket : AssetBucket.ofPath? ⟨path⟩ with
    | none =>
      rw [hbucket] at hq
      obtain rfl := List.mem_singleton.mp hq
      exact .inl (hsought.within _)
    | some bucket =>
      rw [hbucket] at hq
      rw [sought_of_bare htilde] at hsought
      have hbucketed : (bucketed bucket path).Descends := (descends_directory bucket).join hsought
      rcases List.mem_append.mp hq with hq | hq
      · obtain ⟨binary, hbinary, hq⟩ := List.mem_flatMap.mp hq
        obtain ⟨side, hside, rfl⟩ := List.mem_map.mp hq
        exact .inr ⟨rfl, binary, hbinary, side, hside, hbucketed.within _⟩
      · obtain rfl := List.mem_singleton.mp hq
        exact .inl ((descends_core.within _).trans (hbucketed.within _))

/-! ## Paths that get out -/

/-- What is absolute stands for itself, whatever it is joined to. -/
theorem resolve_of_isAbsolute (h : (sought path).isAbsolute) (hdot : ¬ Text.startsWith "." path) :
    r.resolve tree binaryPaths current path = (sought path).normalize := by
  obtain ⟨q, hq, hresolve, -⟩ := r.resolve_eq_first tree binaryPaths current path
  rw [hresolve]
  congr 1
  rw [spellings, if_neg hdot] at hq
  split at hq
  · rw [List.mem_singleton.mp hq, join_of_isAbsolute _ h]
  · next htilde =>
    split at hq
    · rw [List.mem_singleton.mp hq, join_of_isAbsolute _ h]
    · next bucket _ =>
      obtain ⟨p, rfl⟩ := exists_join_bucketed hq
      rw [sought_of_bare htilde] at h ⊢
      have hbucketed : bucketed bucket path = ⟨path⟩ := join_of_isAbsolute _ h
      rw [hbucketed, join_of_isAbsolute _ h]

theorem tail_segments_tilde (rest : String) :
    (Path.mk ("~" ++ rest)).segments.tail = (Path.mk rest).segments.tail := by
  obtain ⟨piece, pieces, hpieces⟩ :=
    List.exists_cons_of_ne_nil (Chars.splitOn_ne_nil '/' rest.toList)
  have htilde : ("~" ++ rest).toList = '~' :: rest.toList := by simp
  rw [segments, segments, Text.splitOn, Text.splitOn, htilde, Chars.splitOn, hpieces]
  rfl

theorem sought_cases (h : Text.startsWith "~" path) :
    ∃ rest, path = "~" ++ rest ∧
      ((∃ inner, rest = "/" ++ inner ∧ sought path = ⟨inner⟩) ∨ sought path = ⟨rest⟩) := by
  obtain ⟨rest, hrest⟩ := Option.isSome_iff_exists.mp (Text.startsWith_eq _ _ ▸ h)
  refine ⟨rest, Text.eq_of_dropStart? hrest, ?_⟩
  have hsought : sought path = ⟨(Text.dropStart? "/" rest).getD rest⟩ := by
    rw [sought, hrest]
  cases hslash : Text.dropStart? "/" rest with
  | some inner =>
    rw [hslash, Option.getD_some] at hsought
    exact .inl ⟨inner, Text.eq_of_dropStart? hslash, hsought⟩
  | none =>
    rw [hslash, Option.getD_none] at hsought
    exact .inr hsought

/-- The only parent that a path without parents can have behind its tilde comes first. -/
theorem sought_of_not_tame (h : ¬ Tame path) (hparents : ".." ∉ (Path.mk path).segments) :
    (sought path).isAbsolute ∨
      (sought path).isAbsolute = false ∧ Text.startsWith "~" path ∧
        ∃ ss, (sought path).segments = ".." :: ss ∧ ".." ∉ ss := by
  by_cases habsolute : (sought path).isAbsolute
  · exact .inl habsolute
  rw [Bool.not_eq_true] at habsolute
  have hparent : ".." ∈ (sought path).segments := by
    by_contra hnone
    exact h ⟨habsolute, hnone⟩
  by_cases htilde : Text.startsWith "~" path
  · obtain ⟨rest, rfl, hsought⟩ := sought_cases htilde
    obtain ⟨first, others, hfirst⟩ := List.exists_cons_of_ne_nil (segments_ne_nil ⟨rest⟩)
    have hothers : ".." ∉ others := by
      have htail := tail_segments_tilde rest
      rw [hfirst, List.tail_cons] at htail
      exact fun hmem => hparents (List.mem_of_mem_tail (htail ▸ hmem))
    rcases hsought with ⟨inner, rfl, hsought⟩ | hsought
    · -- What follows the slash are the other segments.
      have hsegments := segments_slash "" inner
      rw [String.empty_append, hfirst] at hsegments
      rw [hsought] at hparent
      exact absurd ((List.cons.inj hsegments).2 ▸ hparent) hothers
    · rw [hsought, hfirst] at hparent
      obtain rfl | hmem := List.mem_cons.mp hparent
      · exact .inr ⟨habsolute, htilde, others, hsought ▸ hfirst, hothers⟩
      · exact absurd hmem hothers
  · rw [sought_of_bare htilde] at hparent
    exact absurd hparent hparents

theorem not_confined_of_not_tame (h : ¬ Tame path) (hdot : ¬ Text.startsWith "." path)
    (hparents : ".." ∉ (Path.mk path).segments) :
    ¬ Confined {} [] path (resolve {} (.empty []) [] ⟨"."⟩ path) := by
  have hbase : (Path.mk ".").normalize.components = [] := by decide
  rcases sought_of_not_tame h hparents with habsolute | ⟨habsolute, htilde, ss, hss, hnone⟩
  · have hname : ∀ n, Component.root ≠ .name n := by
      intro n heq
      cases heq
    have hplace : (sought path).normalize.components.head? = some .root := by
      obtain ⟨kept, hkept, -, -⟩ := exists_foldAll (sought path)
      rw [components_normalize, hkept, ground, if_pos habsolute]
      rfl
    rw [resolve_of_isAbsolute habsolute hdot]
    unfold Confined
    split
    · exact not_within_of_head? hbase hplace hname
    · rintro (hwithin | ⟨-, binary, hbinary, -⟩)
      · exact not_within_of_head? hbase hplace hname hwithin
      · cases hbinary
  · obtain ⟨q, hq, hresolve, -⟩ := resolve_eq_first {} (.empty []) [] ⟨"."⟩ path
    rw [spellings, if_neg hdot, if_pos htilde, List.mem_singleton] at hq
    obtain ⟨names, hnames⟩ := exists_names hnone
    have hname : ∀ n, Component.parent ≠ .name n := by
      intro n heq
      cases heq
    have hnamed : (sought path).named = .parent :: names.map .name := by
      have hread : Component.ofSegment? ".." = some .parent := rfl
      rw [named, hss, List.filterMap_cons_some hread, hnames]
    have hplace : q.normalize.components.head? = some .parent := by
      rw [components_normalize, hq, foldAll_components, named_join _ habsolute,
        ground_join _ habsolute, hnamed]
      change ((names.map Component.name).foldl fold [.parent]).reverse.head? = _
      rw [foldl_fold_names, List.reverse_append, List.reverse_reverse]
      rfl
    rw [Confined, if_pos htilde, hresolve]
    exact not_within_of_head? hbase hplace hname

/-- Whatever the directories are, just the tame ones among the paths without parents stay where they
belong; and one that is absolute behind its tilde, or as it stands, leads to itself. -/
theorem confined_iff_tame (hdot : ¬ Text.startsWith "." path)
    (hparents : ".." ∉ (Path.mk path).segments) :
    ((∀ (r : Resolver) (tree : FileTree) (binaryPaths : List Path) (current : Path),
        r.Confined binaryPaths path (r.resolve tree binaryPaths current path)) ↔ Tame path) ∧
      ((sought path).isAbsolute →
        ∀ (r : Resolver) (tree : FileTree) (binaryPaths : List Path) (current : Path),
          r.resolve tree binaryPaths current path = (sought path).normalize) := by
  refine ⟨⟨?_, ?_⟩, ?_⟩
  · intro hall
    by_contra htame
    exact not_confined_of_not_tame htame hdot hparents (hall _ _ _ _)
  · intro htame r tree binaryPaths current
    obtain ⟨q, hq, hresolve, -⟩ := r.resolve_eq_first tree binaryPaths current path
    rw [hresolve]
    exact htame.confined hdot hq
  · intro habsolute r tree binaryPaths current
    exact resolve_of_isAbsolute habsolute hdot

theorem altar_confined : Tame "scenery/altar.png" ∧
    ∀ (r : Resolver) (tree : FileTree) (binaryPaths : List Path) (current : Path),
      r.Confined binaryPaths "scenery/altar.png"
        (r.resolve tree binaryPaths current "scenery/altar.png") := by
  have htame : Tame "scenery/altar.png" := by decide
  exact ⟨htame, (confined_iff_tame (by decide) (by decide)).1.mpr htame⟩

/-- The rest behind the tilde and one slash is an absolute path. -/
theorem doubled_slash_gets_out :
    ".." ∉ (Path.mk "~//x").segments ∧
      resolve {} (.empty []) [] ⟨"."⟩ "~//x" = ⟨"/x"⟩ ∧
      ¬ Confined {} [] "~//x" (resolve {} (.empty []) [] ⟨"."⟩ "~//x") :=
  ⟨by decide, by decide +kernel, not_confined_of_not_tame (by decide) (by decide) (by decide)⟩

end Resolver

end CampaignMarkup
