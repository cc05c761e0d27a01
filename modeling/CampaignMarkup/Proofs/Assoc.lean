import CampaignMarkup.Assoc
import Mathlib.Data.List.Basic
import Mathlib.Data.List.Induction

/-! # What an ordered map remembers

A map that was built entry by entry has its keys in the order in which they first came and, for each
key, the value that came last. -/
namespace CampaignMarkup

namespace Assoc

variable {α β : Type} [DecidableEq α]

/-- Keys in the order in which they are first given, each with the value it is given last. -/
def lastWins (entries : List (α × β)) : List (α × β) :=
  (entries.map Prod.fst).eraseDups.filterMap fun key => entries.findRev? (·.1 = key)

theorem insert_of_not_mem {key : α} {map : List (α × β)} (h : key ∉ map.map Prod.fst)
    (value : β) : insert key value map = map ++ [(key, value)] := by
  induction map with
  | nil => rfl
  | cons entry rest ih =>
    obtain ⟨hne, hrest⟩ : key ≠ entry.1 ∧ key ∉ rest.map Prod.fst := by simpa using h
    rw [insert, if_neg (Ne.symm hne), ih hrest]
    rfl

theorem insert_filterMap_of_mem {key : α} {keys : List α} (hkey : key ∈ keys)
    (hnodup : keys.Nodup) {f : α → Option (α × β)} (hf : ∀ k ∈ keys, ∃ v, f k = some (k, v))
    (value : β) : insert key value (keys.filterMap f) =
      keys.filterMap fun k => if k = key then some (key, value) else f k := by
  induction keys with
  | nil => cases hkey
  | cons k keys ih =>
    obtain ⟨hk, hnodup⟩ := List.nodup_cons.mp hnodup
    obtain ⟨v, hv⟩ := hf k List.mem_cons_self
    by_cases hkk : k = key
    · subst hkk
      have hrest : ∀ j ∈ keys, (if j = k then some (k, value) else f j) = f j := by
        intro j hj
        rw [if_neg]
        rintro rfl
        exact hk hj
      simp [hv, insert, List.filterMap_congr hrest]
    · have hmem : key ∈ keys := (List.mem_cons.mp hkey).resolve_left (Ne.symm hkk)
      have hrest := ih hmem hnodup fun j hj => hf j (List.mem_cons_of_mem _ hj)
      simp [hv, insert, hkk, hrest]

theorem exists_findRev? {entries : List (α × β)} {key : α} (h : key ∈ entries.map Prod.fst) :
    ∃ v, entries.findRev? (·.1 = key) = some (key, v) := by
  rw [List.findRev?_eq_find?_reverse]
  obtain ⟨⟨k, v⟩, hmem, rfl⟩ := List.mem_map.mp h
  have hsome : (entries.reverse.find? (·.1 = k)).isSome :=
    List.find?_isSome.mpr ⟨(k, v), List.mem_reverse.mpr hmem, by simp⟩
  obtain ⟨⟨k', v'⟩, hfound⟩ := Option.isSome_iff_exists.mp hsome
  have hk : k' = k := by simpa using List.find?_some hfound
  exact ⟨v', hk ▸ hfound⟩

theorem findRev?_concat (entries : List (α × β)) (key : α) (value : β) (k : α) :
    (entries ++ [(key, value)]).findRev? (·.1 = k) =
      if k = key then some (key, value) else entries.findRev? (·.1 = k) := by
  rw [List.findRev?_eq_find?_reverse, List.findRev?_eq_find?_reverse, List.reverse_concat,
    List.find?_cons]
  by_cases hk : k = key
  · simp [hk]
  · simp [hk, Ne.symm hk]

theorem nodup_eraseDups (keys : List α) : keys.eraseDups.Nodup := by
  match keys with
  | [] => simp
  | key :: keys =>
    rw [List.eraseDups_cons, List.nodup_cons, List.mem_eraseDups]
    exact ⟨by simp, nodup_eraseDups _⟩
termination_by keys.length
decreasing_by
  exact Nat.lt_succ_of_le (List.length_filter_le _ _)

theorem keys_lastWins (entries : List (α × β)) :
    (lastWins entries).map Prod.fst = (entries.map Prod.fst).eraseDups := by
  have hfind : ∀ k ∈ (entries.map Prod.fst).eraseDups,
      (entries.findRev? (·.1 = k)).map Prod.fst = some k := by
    intro k hk
    obtain ⟨v, hv⟩ := exists_findRev? (List.mem_eraseDups.mp hk)
    rw [hv, Option.map_some]
  rw [lastWins, List.map_filterMap, List.filterMap_congr hfind, List.filterMap_some]

/-- One more entry is put where its key stands, or behind all others. -/
theorem lastWins_concat (entries : List (α × β)) (key : α) (value : β) :
    lastWins (entries ++ [(key, value)]) = insert key value (lastWins entries) := by
  have hfind : ∀ k ∈ (entries.map Prod.fst).eraseDups,
      ∃ v, entries.findRev? (·.1 = k) = some (k, v) :=
    fun k hk => exists_findRev? (List.mem_eraseDups.mp hk)
  have hkeys : (entries ++ [(key, value)]).map Prod.fst = entries.map Prod.fst ++ [key] := by simp
  rw [lastWins, hkeys, List.eraseDups_append, funext (findRev?_concat entries key value)]
  by_cases hmem : key ∈ entries.map Prod.fst
  · have hnew : [key].removeAll (entries.map Prod.fst) = [] := by
      simp [List.removeAll, List.mem_map.mp hmem]
    rw [hnew, lastWins,
      insert_filterMap_of_mem (List.mem_eraseDups.mpr hmem) (nodup_eraseDups _) hfind]
    simp
  · have hnew : [key].removeAll (entries.map Prod.fst) = [key] := by
      simpa [List.removeAll] using hmem
    have hold : ∀ k ∈ (entries.map Prod.fst).eraseDups,
        (if k = key then some (key, value) else entries.findRev? (·.1 = k)) =
          entries.findRev? (·.1 = k) := by
      intro k hk
      rw [if_neg]
      rintro rfl
      exact hmem (List.mem_eraseDups.mp hk)
    have habsent : key ∉ (lastWins entries).map Prod.fst := by
      rwa [keys_lastWins, List.mem_eraseDups]
    rw [hnew, insert_of_not_mem habsent, List.filterMap_append, List.filterMap_congr hold]
    simp [lastWins, List.eraseDups_cons]

/-- A map that was built from nothing. -/
theorem insertAll_eq_lastWins (entries : List (α × β)) :
    insertAll entries [] = lastWins entries := by
  induction entries using List.reverseRecOn with
  | nil => rfl
  | append_singleton entries entry ih =>
    have hlast : insertAll (entries ++ [entry]) [] =
        insert entry.1 entry.2 (insertAll entries []) :=
      List.foldl_append
    rw [hlast, ih, ← lastWins_concat]

theorem nodup_keys_insertAll (entries : List (α × β)) :
    ((insertAll entries []).map Prod.fst).Nodup := by
  rw [insertAll_eq_lastWins, keys_lastWins]
  exact nodup_eraseDups _

theorem mem_of_mem_insert {key : α} {value : β} {map : List (α × β)} {entry : α × β}
    (h : entry ∈ insert key value map) : entry = (key, value) ∨ entry ∈ map := by
  induction map with
  | nil => exact .inl (List.mem_singleton.mp h)
  | cons first rest ih =>
    obtain ⟨k, v⟩ := first
    rw [insert] at h
    by_cases hk : k = key
    · rw [if_pos hk] at h
      rcases List.mem_cons.mp h with rfl | h
      · exact .inl (by rw [hk])
      · exact .inr (List.mem_cons_of_mem _ h)
    · rw [if_neg hk] at h
      rcases List.mem_cons.mp h with rfl | h
      · exact .inr List.mem_cons_self
      · exact (ih h).imp_right (List.mem_cons_of_mem _)

/-- Every entry was given. -/
theorem mem_of_mem_insertAll {entries map : List (α × β)} {entry : α × β}
    (h : entry ∈ insertAll entries map) : entry ∈ entries ∨ entry ∈ map := by
  induction entries generalizing map with
  | nil => exact .inr h
  | cons first entries ih =>
    rcases ih h with hlater | hfirst
    · exact .inl (List.mem_cons_of_mem _ hlater)
    · rcases mem_of_mem_insert hfirst with rfl | hmap
      · exact .inl List.mem_cons_self
      · exact .inr hmap

/-- Entries with keys of their own stay as they are given. -/
theorem insertAll_of_nodup {entries map : List (α × β)}
    (h : ((map ++ entries).map Prod.fst).Nodup) : insertAll entries map = map ++ entries := by
  induction entries generalizing map with
  | nil => exact (List.append_nil map).symm
  | cons entry entries ih =>
    rw [List.append_cons] at h ⊢
    have hnew : entry.1 ∉ map.map Prod.fst := by
      rw [List.map_append, List.map_append, List.nodup_append, List.nodup_append] at h
      intro hmem
      exact h.1.2.2 entry.1 hmem entry.1 (by simp) rfl
    rw [← ih h, ← insert_of_not_mem hnew]
    rfl

theorem get?_eq_none_iff {key : α} {map : List (α × β)} :
    get? key map = none ↔ key ∉ map.map Prod.fst := by
  rw [get?, Option.map_eq_none_iff, List.find?_eq_none, List.mem_map]
  constructor
  · rintro h ⟨entry, hmem, rfl⟩
    exact h entry hmem (by simp)
  · intro h entry hmem heq
    exact h ⟨entry, hmem, by simpa using heq⟩

theorem get?_insert (key : α) (value : β) (map : List (α × β)) (k : α) :
    get? k (insert key value map) = if k = key then some value else get? k map := by
  induction map with
  | nil =>
    by_cases hk : k = key
    · simp [get?, insert, hk]
    · simp [get?, insert, hk, Ne.symm hk]
  | cons entry rest ih =>
    obtain ⟨k', v⟩ := entry
    rw [insert]
    by_cases hkey : k' = key
    · subst hkey
      by_cases hk : k = k'
      · simp [get?, hk]
      · simp [get?, hk, Ne.symm hk]
    · rw [if_neg hkey]
      by_cases hk : k' = k
      · simp [get?, hk, hk ▸ hkey]
      · simpa [get?, hk] using ih

theorem contains_iff {key : α} {map : List (α × β)} :
    contains key map ↔ ∃ value, get? key map = some value := by
  rw [← Option.isSome_iff_exists, get?, Option.isSome_map, List.find?_isSome, contains,
    List.any_eq_true]

end Assoc

end CampaignMarkup
