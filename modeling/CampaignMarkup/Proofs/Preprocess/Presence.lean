import CampaignMarkup.Proofs.Path.Places
import CampaignMarkup.Proofs.Path.Resolution

/-! # What is there is found

A question and a call look at the normal form of a path. So they find what a path in the markup
points at, unless nothing is left of the path: then it points at the working directory, and that is
not found. -/
namespace CampaignMarkup

open CampaignMarkup.Path

namespace Resolver

variable {r : Resolver} {tree : FileTree} {binaryPaths : List Path} {current p : Path}
  {path : String}

theorem getLast?_named_of_asset {bucket : AssetBucket}
    (h : AssetBucket.ofPath? ⟨path⟩ = some bucket) :
    ∃ n, (bucketed bucket path).named.getLast? = some (.name n) := by
  obtain ⟨ending, hending, -⟩ := Option.bind_eq_some_iff.mp h
  obtain ⟨n, hn, -⟩ := Option.bind_eq_some_iff.mp hending
  exact ⟨n, getLast?_named_join _ (getLast?_named_of_fileName? hn)⟩

/-- Only a path that may stand for nothing else folds away. -/
theorem spellings_of_foldsAway (hp : p ∈ r.spellings tree binaryPaths current path)
    (haway : p.FoldsAway) : r.spellings tree binaryPaths current path = [p] := by
  unfold spellings at hp ⊢
  split at hp
  · next hdot =>
    rw [if_pos hdot, List.mem_singleton.mp hp]
  · next hdot =>
    rw [if_neg hdot]
    split at hp
    · next htilde =>
      rw [if_pos htilde, List.mem_singleton.mp hp]
    · next htilde =>
      rw [if_neg htilde]
      cases hbucket : AssetBucket.ofPath? ⟨path⟩ with
      | none =>
        rw [hbucket] at hp
        rw [List.mem_singleton.mp hp]
      | some bucket =>
        rw [hbucket] at hp
        obtain ⟨n, hn⟩ := getLast?_named_of_asset hbucket
        obtain ⟨q, rfl⟩ := exists_join_bucketed hp
        exact absurd haway (not_foldsAway_of_getLast? (getLast?_named_join q hn))

end Resolver

namespace Evaluation

variable {env : Environment} {e : Evaluation} {origin : Origin} {path : String} {p : Path}

/-- Where a path points from a text of the origin. -/
def target (env : Environment) (e : Evaluation) (origin : Origin) (path : String) : Path :=
  env.resolver.resolve env.tree e.session.binaryPaths origin.current path

/-- What a path may stand for in a text of the origin. -/
def spellings (env : Environment) (e : Evaluation) (origin : Origin) (path : String) : List Path :=
  env.resolver.spellings env.tree e.session.binaryPaths origin.current path

/-- A call of the path that may be one for a file: it has no arguments, and no macro is meant. -/
structure Includes (e : Evaluation) (path : String) (call : MacroCall) : Prop where
  name : call.name = path
  nonempty : path ≠ ""
  args : call.args = []
  undefined : e.session.macros.lookup path = none

/-- A question about the path is answered with yes, and a call reads what it points at. -/
structure Finds (env : Environment) (e : Evaluation) (origin : Origin) (path : String) :
    Prop where
  present : ∀ d site, d.args.head? = some path → e.test env origin .present d site = .ok true
  included : ∀ run call raw site, Includes e path call →
    e.expand env (some run) origin call raw site =
      e.includePath env run site (e.target env origin path)

/-- A question about the path is answered with no, and a call reads nothing. -/
structure Misses (env : Environment) (e : Evaluation) (origin : Origin) (path : String) :
    Prop where
  absent : ∀ d site, d.args.head? = some path → e.test env origin .present d site = .ok false
  undefined : ∀ run call raw site, Includes e path call →
    e.expand env (some run) origin call raw site = e.leaveUndefined env call raw site

theorem test_present {d : Directive} (h : d.args.head? = some path) (site : Site) :
    e.test env origin .present d site = .ok (env.tree.has (e.target env origin path)) := by
  obtain ⟨rest, hargs⟩ := List.head?_eq_some_iff.mp h
  have hargument : argument d .path site = .ok path := by
    rw [argument, hargs]
  rw [test, hargument]
  rfl

theorem Includes.expand {call : MacroCall} (h : Includes e path call) (run : Runner)
    (raw : String) (site : Site) :
    e.expand env (some run) origin call raw site =
      if env.tree.has (e.target env origin path) then
        e.includePath env run site (e.target env origin path)
      else e.leaveUndefined env call raw site := by
  obtain ⟨rfl, hname, hargs, hlookup⟩ := h
  rw [Evaluation.expand, if_neg hname, hlookup, hargs]
  rfl

theorem finds_of_has (h : env.tree.has (e.target env origin path)) : e.Finds env origin path := by
  constructor
  · intro d site hd
    rw [test_present hd, h]
  · intro run call raw site hcall
    rw [hcall.expand, if_pos h]

theorem misses_of_not_has (h : ¬ env.tree.has (e.target env origin path)) :
    e.Misses env origin path := by
  constructor
  · intro d site hd
    rw [test_present hd, Bool.eq_false_iff.mpr h]
  · intro run call raw site hcall
    rw [hcall.expand, if_neg h]

/-- What a path points at is the same place for its normal form and is found, unless the path folds
away; then it is the working directory, the normal form is nowhere, and nothing is found. -/
theorem existing_place_found_unless_folded_away (h : env.tree.has p) :
    (¬ p.FoldsAway → env.tree.SamePlace p p.normalize) ∧
      (p.FoldsAway →
        env.tree.locate p = .ok env.tree.workdir ∧ env.tree.has p.normalize = false) ∧
      ∀ (e : Evaluation) (origin : Origin) (path : String), p ∈ e.spellings env origin path →
        (¬ p.FoldsAway → e.Finds env origin path ∧
          ∃ q ∈ e.spellings env origin path, e.target env origin path = q.normalize ∧
            env.tree.has q.normalize) ∧
        (p.FoldsAway → e.Misses env origin path) := by
  refine ⟨FileTree.samePlace_normalize h, fun haway => ⟨?_, ?_⟩, ?_⟩
  · obtain ⟨l, hl⟩ := FileTree.exists_locate h
    rw [hl, FileTree.workdir_of_foldsAway hl haway]
  · exact Bool.eq_false_iff.mpr (FileTree.not_has_of_foldsAway haway)
  · intro e origin path hp
    constructor
    · intro hleft
      have hnormal : env.tree.has p.normalize := by
        rw [FileTree.has, FileTree.find_normalize h hleft]
        exact h
      have hthere : env.tree.has (e.target env origin path) :=
        Resolver.has_resolve_iff.mpr ⟨p, hp, hnormal⟩
      obtain ⟨q, hq, htarget, -⟩ :=
        env.resolver.resolve_eq_first env.tree e.session.binaryPaths origin.current path
      have htarget : e.target env origin path = q.normalize := htarget
      exact ⟨finds_of_has hthere, q, hq, htarget, htarget ▸ hthere⟩
    · intro haway
      apply misses_of_not_has
      intro hthere
      obtain ⟨q, hq, hnormal⟩ := Resolver.has_resolve_iff.mp hthere
      rw [Resolver.spellings_of_foldsAway hp haway, List.mem_singleton] at hq
      exact FileTree.not_has_of_foldsAway haway (hq ▸ hnormal)

theorem file_in_data_found :
    Finds ⟨(FileTree.empty ["w"]).place ⟨"a.cfg"⟩ (.text "x"), {}, {}⟩ {} {} "a.cfg" := by
  have hhas : ((FileTree.empty ["w"]).place ⟨"a.cfg"⟩ (.text "x")).has ⟨"./a.cfg"⟩ := by
    decide +kernel
  have hfound := @existing_place_found_unless_folded_away
    ⟨(FileTree.empty ["w"]).place ⟨"a.cfg"⟩ (.text "x"), {}, {}⟩ ⟨"./a.cfg"⟩ hhas
  exact ((hfound.2.2 {} {} "a.cfg" (by decide +kernel)).1 (by decide +kernel)).1

theorem working_directory_lost :
    (FileTree.empty ["w"]).has ⟨"."⟩ = true ∧
      (FileTree.empty ["w"]).has (Path.normalize ⟨"."⟩) = false ∧
      test ⟨FileTree.empty ["w"], {}, {}⟩ {} {} .present ⟨.ifhave, ["."], "."⟩ ⟨none, 0⟩ =
        .ok false :=
  ⟨by decide +kernel, by decide +kernel, rfl⟩

end Evaluation

end CampaignMarkup
