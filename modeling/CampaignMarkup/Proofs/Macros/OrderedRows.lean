import CampaignMarkup.Macros.Table
import Mathlib.Data.List.Basic

/-! # The macro table as an ordered list

Whatever is defined, undefined and cleared, the table answers as the plain list of its definitions
would, in which a definition is put behind all others and undefining a name drops every entry of
it. Holes, positions and packing do not show. -/
namespace CampaignMarkup

namespace MacroTable

/-- A slot that holds a definition of the name. -/
def holds (name : String) (slot : Option Definition) : Bool :=
  slot.any (·.name == name)

@[simp] theorem holds_none (name : String) : holds name none = false := rfl

@[simp] theorem holds_some (name : String) (d : Definition) :
    holds name (some d) = (d.name == name) := rfl

/-- Where the definitions of a name stand. -/
def positions (t : MacroTable) (name : String) : List Nat :=
  t.slots.toList.findIdxs (holds name)

/-- The index has every name that stands in a slot, with all the positions it stands at, and the
rows are counted. -/
structure Consistent (t : MacroTable) : Prop where
  index : ∀ name, t.index.getD name #[] = (t.positions name).toArray
  indexed : ∀ name, t.index.contains name = !(t.positions name).isEmpty
  live : t.live = t.rows.length

section

variable (name : String) (slots : List (Option Definition))

theorem countP_holds :
    slots.countP (holds name) = (slots.filterMap id).countP (·.name == name) := by
  induction slots with
  | nil => rfl
  | cons slot slots ih => cases slot <;> simp [List.countP_cons, ih]

/-- Going through the positions of a name meets its rows, in the order of the slots. -/
theorem filterMap_findIdxs_holds :
    (slots.findIdxs (holds name)).filterMap (fun i => slots[i]?.join) =
      (slots.filterMap id).filter (·.name == name) := by
  induction slots with
  | nil => rfl
  | cons slot slots ih =>
    have later : (slots.findIdxs (holds name) 1).filterMap (fun i => (slot :: slots)[i]?.join) =
        (slots.filterMap id).filter (·.name == name) := by
      rw [List.findIdxs_start, List.filterMap_map]
      simpa [Function.comp_def] using ih
    cases slot with
    | none => simpa using later
    | some d =>
      by_cases hd : d.name = name
      · simp [hd, later]
      · simp [hd, later]

end

theorem rowAt?_eq (t : MacroTable) (position : Nat) :
    t.rowAt? position = t.slots.toList[position]?.join := by
  rw [rowAt?, Array.getD_eq_getD_getElem?, Array.getElem?_toList]
  cases t.slots[position]? <;> rfl

theorem length_positions (t : MacroTable) (name : String) :
    (t.positions name).length = t.rows.countP (·.name == name) := by
  rw [positions, List.length_findIdxs, countP_holds, rows]

theorem positions_eq_nil (t : MacroTable) (name : String) :
    t.positions name = [] ↔ ∀ d ∈ t.rows, d.name ≠ name := by
  rw [← List.length_eq_zero_iff, length_positions, List.countP_eq_zero]
  simp

theorem rows_of_positions (t : MacroTable) (name : String) :
    (t.positions name).filterMap t.rowAt? = t.rows.filter (·.name == name) := by
  have h : t.rowAt? = fun i => t.slots.toList[i]?.join := funext t.rowAt?_eq
  rw [h, positions, filterMap_findIdxs_holds, rows]

theorem rowAt?_isSome_of_mem {t : MacroTable} {name : String} {position : Nat}
    (h : position ∈ t.positions name) : (t.rowAt? position).isSome := by
  obtain ⟨hlt, hp⟩ := List.mem_findIdxs_iff_exists_getElem_pos.1 h
  rw [rowAt?_eq, List.getElem?_eq_getElem hlt]
  cases hs : t.slots.toList[position] with
  | none => simp [hs] at hp
  | some d => rfl

theorem empty_consistent : empty.Consistent := by
  constructor
  · intro name
    simp [empty, positions]
  · intro name
    simp [empty, positions]
  · rfl

section define

variable (t : MacroTable) (d : Definition)

@[simp] theorem rows_define : (t.define d).rows = t.rows ++ [d] := by
  simp [rows, define]

theorem positions_define (name : String) :
    (t.define d).positions name =
      if d.name = name then t.positions name ++ [t.slots.size] else t.positions name := by
  by_cases h : d.name = name <;> simp [positions, define, h]

variable {t}

theorem define_consistent (h : t.Consistent) : (t.define d).Consistent := by
  constructor
  · intro name
    rw [positions_define, MacroTable.define, Std.HashMap.getD_insert, h.index]
    by_cases hn : d.name = name
    · simp [hn]
    · simp [hn, h.index]
  · intro name
    rw [positions_define, MacroTable.define, Std.HashMap.contains_insert, h.indexed]
    by_cases hn : d.name = name <;> simp [hn]
  · rw [rows_define, List.length_append, ← h.live]
    rfl

end define

section ofList

variable (ds : List Definition)

theorem foldl_define {t : MacroTable} (h : t.Consistent) :
    (ds.foldl define t).Consistent ∧ (ds.foldl define t).rows = t.rows ++ ds := by
  induction ds generalizing t with
  | nil => exact ⟨h, by simp⟩
  | cons d ds ih =>
    obtain ⟨hc, hr⟩ := ih (define_consistent d h)
    exact ⟨hc, by simpa using hr⟩

theorem ofList_consistent : (ofList ds).Consistent :=
  (foldl_define ds empty_consistent).1

@[simp] theorem rows_ofList : (ofList ds).rows = ds :=
  (foldl_define ds empty_consistent).2

end ofList

section vacate

/-- Slots given up are holes and the others stay. -/
theorem getElem?_foldl_vacate (ps : List Nat) (slots : Array (Option Definition)) (i : Nat) :
    (ps.foldl (fun slots p => slots.setIfInBounds p none) slots)[i]? =
      if i ∈ ps then slots[i]?.map (fun _ => none) else slots[i]? := by
  induction ps generalizing slots with
  | nil => simp
  | cons p ps ih =>
    rw [List.foldl_cons, ih, Array.getElem?_setIfInBounds]
    by_cases hp : p = i
    · subst hp
      by_cases hlt : p < slots.size <;> simp [hlt]
    · simp [hp, Ne.symm hp]

variable {t : MacroTable} (h : t.Consistent) (name : String)

include h

theorem slots_vacate :
    (t.vacate name).slots.toList =
      t.slots.toList.map fun slot => if holds name slot then none else slot := by
  have hs : (t.vacate name).slots =
      (t.positions name).foldl (fun slots p => slots.setIfInBounds p none) t.slots := by
    simp [vacate, h.index]
  apply List.ext_getElem?
  intro i
  rw [Array.getElem?_toList, hs, getElem?_foldl_vacate, List.getElem?_map, Array.getElem?_toList]
  by_cases hi : i < t.slots.size
  · have hm : i ∈ t.positions name ↔ holds name t.slots[i] := by simp [positions, hi]
    simp only [Array.getElem?_eq_getElem hi, hm, Option.map_some]
    split <;> rfl
  · simp [hi]

theorem rows_vacate : (t.vacate name).rows = t.rows.filter (·.name != name) := by
  rw [rows, slots_vacate h, rows]
  induction t.slots.toList with
  | nil => rfl
  | cons slot slots ih =>
    cases slot with
    | none => simpa using ih
    | some d => by_cases hd : d.name = name <;> simpa [hd] using ih

theorem positions_vacate (other : String) :
    (t.vacate name).positions other = if other = name then [] else t.positions other := by
  rw [positions, slots_vacate h, List.findIdxs_map]
  split
  · next ho =>
    subst ho
    rw [List.findIdxs_eq_nil_iff]
    intro slot _
    by_cases hs : holds other slot <;> simp [hs]
  · next ho =>
    congr 1
    funext slot
    cases slot with
    | none => rfl
    | some d => by_cases hd : d.name = name <;> grind [holds]

theorem count_eq : t.count name = t.rows.countP (·.name == name) := by
  rw [count, h.index, List.size_toArray, length_positions]

theorem count_add_rows_vacate : t.count name + (t.vacate name).rows.length = t.live := by
  rw [h.live, rows_vacate h, count_eq h, ← List.countP_eq_length_filter,
    List.length_eq_countP_add_countP (fun d : Definition => d.name == name)]
  simp [bne, beq_eq_decide]

theorem vacate_consistent : (t.vacate name).Consistent := by
  constructor
  · intro other
    rw [positions_vacate h, vacate, Std.HashMap.getD_erase]
    by_cases ho : name = other
    · simp [ho]
    · simp [ho, Ne.symm ho, h.index]
  · intro other
    rw [positions_vacate h, vacate, Std.HashMap.contains_erase, h.indexed]
    by_cases ho : name = other
    · simp [ho]
    · simp [ho, Ne.symm ho]
  · have hc := count_add_rows_vacate h name
    rw [count] at hc
    simp only [vacate] at hc ⊢
    omega

end vacate

/-- No table has more rows than slots. -/
theorem Consistent.live_le {t : MacroTable} (h : t.Consistent) : t.live ≤ t.slots.size := by
  rw [h.live, rows]
  exact List.length_filterMap_le id _

theorem rows_pack (t : MacroTable) : t.pack.rows = t.rows := by
  unfold pack
  dsimp only
  split
  · rfl
  · exact rows_ofList _

theorem filterMap_set_none_sublist (slots : List (Option Definition)) (position : Nat) :
    ((slots.set position none).filterMap id).Sublist (slots.filterMap id) := by
  induction slots generalizing position with
  | nil => exact .slnil
  | cons slot slots ih =>
    cases position with
    | zero => exact (List.sublist_cons_self slot slots).filterMap id
    | succ position =>
      cases slot with
      | none => exact ih position
      | some d => exact (ih position).cons_cons d

/-- Giving up slots never adds a row, whatever the index says. -/
theorem rows_foldl_vacate_sublist (ps : List Nat) (slots : Array (Option Definition)) :
    ((ps.foldl (fun slots p => slots.setIfInBounds p none) slots).toList.filterMap id).Sublist
      (slots.toList.filterMap id) := by
  induction ps generalizing slots with
  | nil => exact .refl _
  | cons p ps ih =>
    refine (ih (slots.setIfInBounds p none)).trans ?_
    rw [Array.toList_setIfInBounds]
    exact filterMap_set_none_sublist slots.toList p

theorem rows_undef_sublist (t : MacroTable) (name : String) :
    (t.undef name).rows.Sublist t.rows := by
  unfold undef
  split
  · exact .refl _
  · rw [rows_pack, rows, vacate, ← Array.foldl_toList]
    exact rows_foldl_vacate_sublist _ t.slots

section undef

variable {t : MacroTable} (h : t.Consistent)

include h

theorem pack_consistent : t.pack.Consistent := by
  unfold pack
  dsimp only
  split
  · exact h
  · exact ofList_consistent _

theorem undef_consistent (name : String) : (t.undef name).Consistent := by
  unfold undef
  split
  · exact h
  · exact pack_consistent (vacate_consistent h name)

theorem rows_undef (name : String) :
    (t.undef name).rows = t.rows.filter (·.name != name) := by
  unfold undef
  split
  · next he =>
    have absent : ∀ d ∈ t.rows, d.name ≠ name :=
      (t.positions_eq_nil name).1 (by simpa [h.index] using he)
    exact (List.filter_eq_self.2 (by simpa using absent)).symm
  · rw [rows_pack, rows_vacate h]

end undef

section readers

variable {t : MacroTable} (h : t.Consistent) (name : String)

include h

theorem lookupAll_eq : t.lookupAll name = t.rows.filter (·.name == name) := by
  rw [lookupAll, h.index, List.toList_toArray, rows_of_positions]

theorem lookup_eq_back : t.lookup name = (t.positions name).getLast?.bind t.rowAt? := by
  have hi := h.index name
  rw [Std.HashMap.getD_eq_getD_getElem?] at hi
  rw [lookup, ← List.back?_toArray, ← hi]
  cases t.index[name]? <;> rfl

theorem lookup_eq : t.lookup name = (t.rows.filter (·.name == name)).getLast? := by
  rw [lookup_eq_back h, ← rows_of_positions]
  -- the last position of a name is never a hole, so its row is the last of the rows
  obtain hnil | ⟨before, last, hlast⟩ := (t.positions name).eq_nil_or_concat
  · simp [hnil]
  · have hm : last ∈ t.positions name := by simp [hlast]
    obtain ⟨d, hd⟩ := Option.isSome_iff_exists.1 (rowAt?_isSome_of_mem hm)
    simp [hlast, hd]

theorem contains_iff : t.contains name ↔ ∃ d ∈ t.rows, d.name = name := by
  rw [contains, h.indexed]
  simpa using not_congr (t.positions_eq_nil name)

end readers

section names

theorem idxOf_lt_of_filter {p : String → Bool} {a b : String} (ha : p a) (hb : p b)
    {xs : List String} (h : (xs.filter p).idxOf a < (xs.filter p).idxOf b) :
    xs.idxOf a < xs.idxOf b := by
  induction xs with
  | nil => simp at h
  | cons x xs ih => grind

/-- Without repetitions a list is ordered by where its members first stood. -/
theorem eraseDups_ordered (xs : List String) :
    xs.eraseDups.Pairwise fun a b => xs.idxOf a < xs.idxOf b := by
  match xs with
  | [] => simp
  | x :: xs =>
    have rest := eraseDups_ordered (xs.filter fun a => !a == x)
    have other {a : String} (ha : a ∈ (xs.filter fun a => !a == x).eraseDups) : a ≠ x := by
      simpa using (List.mem_filter.1 (List.mem_eraseDups.1 ha)).2
    rw [List.eraseDups_cons, List.pairwise_cons]
    constructor
    · intro a ha
      rw [List.idxOf_cons_self, List.idxOf_cons_ne _ (other ha).symm]
      exact Nat.succ_pos _
    · apply rest.imp_of_mem
      intro a b ha hb hab
      rw [List.idxOf_cons_ne _ (other ha).symm, List.idxOf_cons_ne _ (other hb).symm]
      exact Nat.succ_lt_succ (idxOf_lt_of_filter (by simp [other ha]) (by simp [other hb]) hab)
termination_by xs.length
decreasing_by
  exact Nat.lt_succ_of_le (List.length_filter_le _ _)

theorem mem_names (t : MacroTable) (name : String) :
    name ∈ t.names ↔ ∃ d ∈ t.rows, d.name = name := by
  rw [names, List.mem_eraseDups, List.mem_map]

theorem names_nodup (t : MacroTable) : t.names.Nodup := by
  apply (eraseDups_ordered _).imp
  rintro a b hab rfl
  exact Nat.lt_irrefl _ hab

end names

/-- What the table answers where these definitions are the ones in force, and that neither of the
differences taken while a name is undefined goes below zero. -/
structure Answers (t : MacroTable) (ds : List Definition) : Prop where
  rows : t.rows = ds
  lookup : ∀ name, t.lookup name = (ds.filter (·.name == name)).getLast?
  lookupAll : ∀ name, t.lookupAll name = ds.filter (·.name == name)
  contains : ∀ name, t.contains name ↔ ∃ d ∈ ds, d.name = name
  mem_names : ∀ name, name ∈ t.names ↔ ∃ d ∈ ds, d.name = name
  names_nodup : t.names.Nodup
  names_ordered : t.names.Pairwise fun a b =>
    (ds.map (·.name)).idxOf a < (ds.map (·.name)).idxOf b
  size : t.size = ds.length
  isEmpty : t.isEmpty = ds.isEmpty
  count : ∀ name, t.count name + (t.undef name).rows.length = ds.length
  count_le : ∀ name, t.count name ≤ t.live
  live_le : ∀ name, (t.vacate name).live ≤ (t.vacate name).slots.size

theorem Consistent.answers {t : MacroTable} (h : t.Consistent) : t.Answers t.rows where
  rows := rfl
  lookup := lookup_eq h
  lookupAll := lookupAll_eq h
  contains := contains_iff h
  mem_names := t.mem_names
  names_nodup := t.names_nodup
  names_ordered := eraseDups_ordered _
  size := h.live
  isEmpty := by
    rw [isEmpty, h.live]
    cases t.rows <;> rfl
  count name := by
    rw [rows_undef h, ← rows_vacate h, count_add_rows_vacate h, h.live]
  count_le name := by
    have hc := count_add_rows_vacate h name
    omega
  live_le name := (vacate_consistent h name).live_le

/-- A change of the definitions in force. -/
inductive Change where
  | define (d : Definition)
  | undef (name : String)
  | clear
deriving DecidableEq, Repr, Inhabited

namespace Change

def onTable (t : MacroTable) : Change → MacroTable
  | .define d => t.define d
  | .undef name => t.undef name
  | .clear => MacroTable.empty

def onList (ds : List Definition) : Change → List Definition
  | .define d => ds ++ [d]
  | .undef name => ds.filter (·.name != name)
  | .clear => []

theorem onTable_consistent {t : MacroTable} (h : t.Consistent) (c : Change) :
    (c.onTable t).Consistent ∧ (c.onTable t).rows = c.onList t.rows := by
  cases c with
  | define d => exact ⟨define_consistent d h, rows_define t d⟩
  | undef name => exact ⟨undef_consistent h name, rows_undef h name⟩
  | clear => exact ⟨empty_consistent, rfl⟩

theorem foldl_consistent {t : MacroTable} (h : t.Consistent) (changes : List Change) :
    (changes.foldl onTable t).Consistent ∧
      (changes.foldl onTable t).rows = changes.foldl onList t.rows := by
  induction changes generalizing t with
  | nil => exact ⟨h, rfl⟩
  | cons c changes ih =>
    obtain ⟨hc, hr⟩ := onTable_consistent h c
    rw [List.foldl_cons, List.foldl_cons, ← hr]
    exact ih hc

end Change

end MacroTable

/-- After any changes to a table, made of any definitions or empty, it answers as the list of the
definitions does after the same changes. -/
theorem table_answers_as_ordered_list (ds : List Definition) (changes : List MacroTable.Change) :
    (changes.foldl MacroTable.Change.onTable (.ofList ds)).Answers
      (changes.foldl MacroTable.Change.onList ds) := by
  obtain ⟨hc, hr⟩ := MacroTable.Change.foldl_consistent (MacroTable.ofList_consistent ds) changes
  rw [MacroTable.rows_ofList] at hr
  rw [← hr]
  exact hc.answers

end CampaignMarkup
