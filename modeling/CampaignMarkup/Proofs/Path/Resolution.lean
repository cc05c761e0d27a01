import CampaignMarkup.Proofs.Path.Joins
import CampaignMarkup.Proofs.Preprocess.Assets

/-! # What a path in the markup may be spelled as

Before anything is folded: the one path it stands for or, for an asset, a path below each binary
path and the one in the core bucket. It is resolved to the normal form of one of them. -/
namespace CampaignMarkup

namespace Text

theorem startsWith_eq (start s : String) : startsWith start s = (dropStart? start s).isSome := by
  rw [startsWith, dropStart?, Option.isSome_map]

theorem eq_of_dropStart? {start s rest : String} (h : dropStart? start s = some rest) :
    s = start ++ rest := by
  obtain ⟨cs, hcs, rfl⟩ := Option.map_eq_some_iff.mp h
  apply String.toList_injective
  rw [Chars.dropStart?_eq_some.mp hcs, String.toList_append, String.toList_ofList]

end Text

namespace Resolver

variable {r : Resolver} {tree : FileTree} {binaryPaths : List Path} {current : Path}
  {path : String}

/-- What is looked for in a directory: what follows a tilde and one slash, or the whole path. -/
def sought (path : String) : Path :=
  match Text.dropStart? "~" path with
  | some rest => ⟨(Text.dropStart? "/" rest).getD rest⟩
  | none => ⟨path⟩

/-- The directory that a path with a dot in front starts from. -/
def base (tree : FileTree) (current : Path) : Path :=
  if tree.isDirectory current then current else current.parent?.getD current

/-- An asset below a binary path on one side. -/
def stored (side binary : Path) (bucket : AssetBucket) (path : String) : Path :=
  ((side.join ⟨".."⟩).join binary).join (bucketed bucket path)

/-- The places of an asset below the binary paths, as they are put together. -/
def storedBelow (r : Resolver) (binaryPaths : List Path) (bucket : AssetBucket) (path : String) :
    List Path :=
  binaryPaths.flatMap fun binary =>
    [r.userDataDir, r.dataDir].map fun side => stored side binary bucket path

/-- The paths that a path in the markup may stand for, as they are put together. -/
def spellings (r : Resolver) (tree : FileTree) (binaryPaths : List Path) (current : Path)
    (path : String) : List Path :=
  if Text.startsWith "." path then [(base tree current).join ⟨path⟩]
  else if Text.startsWith "~" path then [r.userDataDir.join (sought path)]
  else
    match AssetBucket.ofPath? ⟨path⟩ with
    | none => [r.dataDir.join (sought path)]
    | some bucket =>
      r.storedBelow binaryPaths bucket path ++
        [(r.dataDir.join ⟨"core"⟩).join (bucketed bucket path)]

/-- All the spellings of an asset end with the asset in its bucket. -/
theorem exists_join_bucketed {bucket : AssetBucket} {q : Path}
    (h : q ∈ r.storedBelow binaryPaths bucket path ++
      [(r.dataDir.join ⟨"core"⟩).join (bucketed bucket path)]) :
    ∃ p : Path, q = p.join (bucketed bucket path) := by
  rcases List.mem_append.mp h with h | h
  · obtain ⟨binary, -, h⟩ := List.mem_flatMap.mp h
    obtain ⟨side, -, rfl⟩ := List.mem_map.mp h
    exact ⟨_, rfl⟩
  · exact ⟨_, List.mem_singleton.mp h⟩

theorem map_normalize_storedBelow (bucket : AssetBucket) :
    (r.storedBelow binaryPaths bucket path).map Path.normalize =
      r.candidates binaryPaths (bucketed bucket path) := by
  simp only [storedBelow, stored, candidates, List.map_flatMap, List.map_map, Function.comp_def]

/-- The first path whose normal form is there, or else the last one. -/
theorem exists_first (tree : FileTree) (qs : List Path) (last : Path) :
    ∃ q ∈ qs ++ [last],
      ((qs.map Path.normalize).find? tree.has).getD last.normalize = q.normalize ∧
      (tree.has q.normalize ∨ ∀ q' ∈ qs ++ [last], ¬ tree.has q'.normalize) := by
  rw [List.find?_map]
  cases hfind : qs.find? (tree.has ∘ Path.normalize) with
  | some q =>
    have hhas : tree.has q.normalize := List.find?_some (p := tree.has ∘ Path.normalize) hfind
    exact ⟨q, List.mem_append_left _ (List.mem_of_find?_eq_some hfind), rfl, .inl hhas⟩
  | none =>
    refine ⟨last, by simp, rfl, ?_⟩
    by_cases hlast : tree.has last.normalize
    · exact .inl hlast
    · rw [List.find?_eq_none] at hfind
      exact .inr (List.forall_mem_append.mpr ⟨hfind, List.forall_mem_singleton.mpr hlast⟩)

/-- A path is resolved to the first spelling whose normal form is there, or to the last one. -/
theorem resolve_eq_first (r : Resolver) (tree : FileTree) (binaryPaths : List Path)
    (current : Path) (path : String) :
    ∃ q ∈ r.spellings tree binaryPaths current path,
      r.resolve tree binaryPaths current path = q.normalize ∧
      (tree.has q.normalize ∨
        ∀ q' ∈ r.spellings tree binaryPaths current path, ¬ tree.has q'.normalize) := by
  have honly : ∀ q : Path, ∃ q' ∈ [q], q.normalize = q'.normalize ∧
      (tree.has q'.normalize ∨ ∀ q'' ∈ [q], ¬ tree.has q''.normalize) :=
    fun q => exists_first tree [] q
  unfold spellings
  by_cases hdot : Text.startsWith "." path
  · rw [if_pos hdot, resolve, if_pos hdot]
    exact honly _
  rw [if_neg hdot]
  by_cases htilde : Text.startsWith "~" path
  · obtain ⟨rest, hrest⟩ := Option.isSome_iff_exists.mp (Text.startsWith_eq _ _ ▸ htilde)
    rw [if_pos htilde, resolve, if_neg hdot, hrest, sought, hrest]
    exact honly _
  rw [if_neg htilde]
  have hnone : Text.dropStart? "~" path = none := by
    rw [Text.startsWith_eq, Option.not_isSome_iff_eq_none] at htilde
    exact htilde
  cases hbucket : AssetBucket.ofPath? ⟨path⟩ with
  | none =>
    rw [resolve, if_neg hdot, hnone, hbucket, sought, hnone]
    exact honly _
  | some bucket =>
    have hasset : AssetIn path bucket :=
      ⟨Bool.eq_false_iff.mpr hdot, Bool.eq_false_iff.mpr htilde, hbucket⟩
    rw [resolve_asset hasset, ← map_normalize_storedBelow]
    exact exists_first tree _ _

/-- What a path is resolved to is there exactly if the normal form of some spelling is. -/
theorem has_resolve_iff : tree.has (r.resolve tree binaryPaths current path) ↔
    ∃ q ∈ r.spellings tree binaryPaths current path, tree.has q.normalize := by
  obtain ⟨q, hq, hresolve, hfirst⟩ := r.resolve_eq_first tree binaryPaths current path
  rw [hresolve]
  constructor
  · exact fun h => ⟨q, hq, h⟩
  · rintro ⟨q', hq', h⟩
    exact hfirst.resolve_right fun hnone => hnone q' hq' h

end Resolver

end CampaignMarkup
