import CampaignMarkup.Directive.Version
import Mathlib.Data.List.DropRight
import Mathlib.Data.List.GetD
import Mathlib.Order.Compare
import Mathlib.Order.PiLex

/-! # The order of versions

Zeros without end may be thought behind the components of a version. The first place where two
versions differ then decides between them, which is the lexicographic order, and they are the same
version exactly if they differ in zeros at the end and in nothing else. -/
namespace CampaignMarkup

namespace Version

variable {u v w : Version} {as bs : List Nat}

/-- The components at all places, with zeros behind those that are written. -/
def places (as : List Nat) : Lex (ℕ → ℕ) :=
  toLex fun i => as.getD i 0

/-- The components up to the last one that is not zero. -/
def significant (v : Version) : List Nat :=
  v.components.rdropWhile (· == 0)

/-- The version with so many zeros written behind it. -/
def lengthened (v : Version) (n : Nat) : Version :=
  ⟨v.components ++ List.replicate n 0⟩

theorem places_lt_iff :
    places as < places bs ↔ ∃ i, (∀ j < i, as.getD j 0 = bs.getD j 0) ∧ as.getD i 0 < bs.getD i 0 :=
  Iff.rfl

theorem places_eq_iff : places as = places bs ↔ ∀ i, as.getD i 0 = bs.getD i 0 :=
  funext_iff

theorem getD_tail (as : List Nat) (i : Nat) : as.tail.getD i 0 = as.getD (i + 1) 0 := by
  cases as <;> simp

theorem places_lt_of_head (h : as.getD 0 0 < bs.getD 0 0) : places as < places bs :=
  places_lt_iff.mpr ⟨0, fun j hj => absurd hj (Nat.not_lt_zero j), h⟩

theorem places_lt_of_tail (hhead : as.getD 0 0 = bs.getD 0 0)
    (htail : places as.tail < places bs.tail) : places as < places bs := by
  obtain ⟨i, hequal, hless⟩ := places_lt_iff.mp htail
  simp only [getD_tail] at hequal hless
  refine places_lt_iff.mpr ⟨i + 1, ?_, hless⟩
  intro j hj
  cases j with
  | zero => exact hhead
  | succ j => exact hequal j (Nat.lt_of_succ_lt_succ hj)

theorem places_eq_of_tail (hhead : as.getD 0 0 = bs.getD 0 0)
    (htail : places as.tail = places bs.tail) : places as = places bs := by
  have hequal := places_eq_iff.mp htail
  simp only [getD_tail] at hequal
  apply places_eq_iff.mpr
  intro i
  cases i with
  | zero => exact hhead
  | succ i => exact hequal i

/-- One step of a comparison: the first places decide if they differ, else what is behind them. -/
theorem compares_then (as bs : List Nat) {o : Ordering} (h : o.Compares (places as.tail) (places bs.tail)) :
    ((Ord.compare (as.getD 0 0) (bs.getD 0 0)).then o).Compares (places as) (places bs) := by
  rcases lt_trichotomy (as.getD 0 0) (bs.getD 0 0) with hhead | hhead | hhead
  · rw [Nat.compare_eq_lt.mpr hhead]
    exact places_lt_of_head hhead
  · rw [Nat.compare_eq_eq.mpr hhead]
    cases o with
    | lt => exact places_lt_of_tail hhead h
    | eq => exact places_eq_of_tail hhead h
    | gt => exact places_lt_of_tail hhead.symm h
  · rw [Nat.compare_eq_gt.mpr hhead]
    exact places_lt_of_head hhead

theorem compareComponents_compares (as bs : List Nat) :
    (compareComponents as bs).Compares (places as) (places bs) := by
  fun_induction compareComponents as bs with
  | case1 => exact rfl
  | case2 a as ih => exact compares_then (a :: as) [] ih
  | case3 b bs ih => exact compares_then [] (b :: bs) ih
  | case4 a as b bs ih => exact compares_then (a :: as) (b :: bs) ih

theorem compare_compares (v w : Version) :
    (v.compare w).Compares (places v.components) (places w.components) :=
  compareComponents_compares v.components w.components

/-- Zeros at the end make no place different. -/
theorem places_append_zeros {zs : List Nat} (h : ∀ z ∈ zs, z = 0) (as : List Nat) :
    places (as ++ zs) = places as := by
  apply places_eq_iff.mpr
  intro i
  rcases Nat.lt_or_ge i as.length with hi | hi
  · rw [List.getD_append _ _ _ _ hi]
  · rw [List.getD_append_right _ _ _ _ hi, List.getD_eq_default as 0 hi]
    rcases Nat.lt_or_ge (i - as.length) zs.length with hz | hz
    · rw [List.getD_eq_getElem zs 0 hz]
      exact h _ (List.getElem_mem hz)
    · exact List.getD_eq_default zs 0 hz

theorem places_lengthened (v : Version) (n : Nat) :
    places (v.lengthened n).components = places v.components :=
  places_append_zeros (fun _ hz => List.eq_of_mem_replicate hz) v.components

theorem places_significant (v : Version) : places v.significant = places v.components := by
  have hzeros : ∀ z ∈ v.components.rtakeWhile (· == 0), z = 0 := by
    intro z hz
    simpa using List.mem_rtakeWhile_imp hz
  have hsplit : v.significant ++ v.components.rtakeWhile (· == 0) = v.components :=
    List.rdropWhile_append_rtakeWhile
  rw [← places_append_zeros hzeros v.significant, hsplit]

/-- No zero is written at the end. -/
def Settled (as : List Nat) : Prop :=
  ∀ h : as ≠ [], as.getLast h ≠ 0

theorem settled_significant (v : Version) : Settled v.significant := by
  intro hne hzero
  exact List.rdropWhile_last_not _ _ hne (beq_iff_eq.mpr hzero)

/-- A list with no zero at its end is no longer than another that is the same at all places. -/
theorem Settled.length_le (has : Settled as) (h : places as = places bs) :
    as.length ≤ bs.length := by
  by_contra hlong
  have hne : as ≠ [] := List.ne_nil_of_length_pos (by omega)
  have hlast : as.length - 1 < as.length := by omega
  apply has hne
  calc as.getLast hne
      = as.getD (as.length - 1) 0 := by
        rw [List.getLast_eq_getElem, List.getD_eq_getElem as 0 hlast]
    _ = bs.getD (as.length - 1) 0 := places_eq_iff.mp h _
    _ = 0 := List.getD_eq_default bs 0 (by omega)

theorem Settled.eq_of_places (has : Settled as) (hbs : Settled bs) (h : places as = places bs) :
    as = bs := by
  have hlength : as.length = bs.length :=
    Nat.le_antisymm (has.length_le h) (hbs.length_le h.symm)
  apply List.ext_getElem hlength
  intro i hi hi'
  have hsame := places_eq_iff.mp h i
  rwa [List.getD_eq_getElem as 0 hi, List.getD_eq_getElem bs 0 hi'] at hsame

theorem significant_eq_iff :
    v.significant = w.significant ↔ places v.components = places w.components := by
  rw [← places_significant v, ← places_significant w]
  constructor
  · intro h
    rw [h]
  · intro h
    exact (settled_significant v).eq_of_places (settled_significant w) h

/-- The first place where two versions differ is smaller in the one that comes first. -/
theorem compare_eq_lt_iff : v.compare w = .lt ↔
    ∃ i, (∀ j < i, v.components.getD j 0 = w.components.getD j 0) ∧
      v.components.getD i 0 < w.components.getD i 0 :=
  (compare_compares v w).eq_lt

theorem compare_eq_eq_iff : v.compare w = .eq ↔ v.significant = w.significant :=
  (compare_compares v w).eq_eq.trans significant_eq_iff.symm

theorem same_iff : v.same w ↔ v.compare w = .eq :=
  Ordering.isEq_iff_eq_eq

theorem swap_compare (v w : Version) : (v.compare w).swap = w.compare v :=
  (Ordering.compares_swap.mpr (compare_compares v w)).inj (compare_compares w v)

theorem isLE_compare_iff :
    (v.compare w).isLE ↔ places v.components ≤ places w.components := by
  rw [← (compare_compares v w).ne_gt]
  cases v.compare w <;> decide

theorem isLE_compare_trans (h : (u.compare v).isLE) (h' : (v.compare w).isLE) :
    (u.compare w).isLE :=
  isLE_compare_iff.mpr (le_trans (isLE_compare_iff.mp h) (isLE_compare_iff.mp h'))

theorem compare_lengthened (v w : Version) (m n : Nat) :
    (v.lengthened m).compare (w.lengthened n) = v.compare w := by
  have hlong := compare_compares (v.lengthened m) (w.lengthened n)
  rw [places_lengthened, places_lengthened] at hlong
  exact hlong.inj (compare_compares v w)

end Version

namespace Comparison

theorem holds_lengthened (op : Comparison) (v w : Version) (m n : Nat) :
    op.holds (v.lengthened m) (w.lengthened n) = op.holds v w := by
  cases op <;> simp only [holds, Version.compare_lengthened]

/-- The comparison that holds for versions in that order and for no others. -/
def ofOrdering : Ordering → Comparison
  | .lt => .lt
  | .eq => .eq
  | .gt => .gt

theorem holds_ofOrdering_iff {v w : Version} {o : Ordering} :
    (ofOrdering o).holds v w ↔ v.compare w = o := by
  cases o <;> cases h : v.compare w <;> simp [ofOrdering, holds, h]

theorem mem_strict_iff {op : Comparison} :
    op ∈ [Comparison.lt, .eq, .gt] ↔ ∃ o, op = ofOrdering o := by
  constructor
  · intro hop
    cases op with
    | lt => exact ⟨.lt, rfl⟩
    | eq => exact ⟨.eq, rfl⟩
    | gt => exact ⟨.gt, rfl⟩
    | ne | le | ge => simp at hop
  · rintro ⟨o, rfl⟩
    cases o <;> decide

theorem existsUnique_holds (v w : Version) :
    ∃! op, op ∈ [Comparison.lt, .eq, .gt] ∧ op.holds v w := by
  refine ⟨ofOrdering (v.compare w), ⟨mem_strict_iff.mpr ⟨_, rfl⟩, ?_⟩, ?_⟩
  · exact holds_ofOrdering_iff.mpr rfl
  · rintro op ⟨hop, hholds⟩
    obtain ⟨o, rfl⟩ := mem_strict_iff.mp hop
    rw [holds_ofOrdering_iff.mp hholds]

theorem holds_opposite (v w : Version) :
    Comparison.le.holds v w = !Comparison.gt.holds v w ∧
      Comparison.ge.holds v w = !Comparison.lt.holds v w ∧
      Comparison.ne.holds v w = !Comparison.eq.holds v w := by
  cases h : v.compare w <;> simp [holds, h]

end Comparison

end CampaignMarkup
