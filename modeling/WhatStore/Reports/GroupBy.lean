import Mathlib.Algebra.BigOperators.Group.List.Basic
import Mathlib.Data.List.Dedup

/-!
# Grouped rows

`groupBy key rows` has one group for each key that occurs, with the rows of that
key. A database may list the groups in any order; what is said of them here does
not depend on it.
-/

namespace Table

variable {α κ : Type} [DecidableEq κ] {key : α → κ} {rows : List α} {k : κ} {g : List α}

/-- `SELECT … GROUP BY key`. -/
def groupBy (key : α → κ) (rows : List α) : List (κ × List α) :=
  (rows.map key).dedup.map fun k => (k, rows.filter fun row => key row = k)

theorem sum_map_single {M : Type} [AddCommMonoid M] {keys : List κ} (hnodup : keys.Nodup) (k : κ)
    (x : M) : (keys.map fun k' => if k = k' then x else 0).sum = if k ∈ keys then x else 0 := by
  induction keys with
  | nil => simp
  | cons k' keys ih =>
      rw [List.nodup_cons] at hnodup
      rw [List.map_cons, List.sum_cons, ih hnodup.2]
      by_cases hk : k = k'
      · subst hk
        simp [hnodup.1]
      · simp [hk]

/-- Sums by key, over distinct keys, add up to the sum over the rows of these keys. -/
theorem sum_by_key {M : Type} [AddCommMonoid M] {keys : List κ} (hnodup : keys.Nodup) (f : α → M)
    (key : α → κ) (rows : List α) :
    (keys.map fun k => ((rows.filter fun row => key row = k).map f).sum).sum =
      ((rows.filter fun row => key row ∈ keys).map f).sum := by
  induction rows with
  | nil => simp
  | cons row rows ih =>
      have hrow : ∀ k, (((row :: rows).filter fun row => key row = k).map f).sum =
          (if key row = k then f row else 0) +
            ((rows.filter fun row => key row = k).map f).sum := by
        intro k
        by_cases hk : key row = k <;> simp [hk]
      simp only [hrow, List.sum_map_add, sum_map_single hnodup, ih]
      by_cases hk : key row ∈ keys <;> simp [hk]

theorem sum_by_key_of_mem {M : Type} [AddCommMonoid M] {keys : List κ} (hnodup : keys.Nodup)
    (f : α → M) {key : α → κ} {rows : List α} (hmem : ∀ row ∈ rows, key row ∈ keys) :
    (keys.map fun k => ((rows.filter fun row => key row = k).map f).sum).sum =
      (rows.map f).sum := by
  rw [sum_by_key hnodup, List.filter_eq_self.2 fun row hrow => decide_eq_true (hmem row hrow)]

theorem sum_groupBy {M : Type} [AddCommMonoid M] (f : α → M) (key : α → κ) (rows : List α) :
    ((groupBy key rows).map fun group => (group.2.map f).sum).sum = (rows.map f).sum := by
  rw [groupBy, List.map_map]
  apply sum_by_key_of_mem (List.nodup_dedup _) f
  intro row hrow
  exact List.mem_dedup.2 (List.mem_map_of_mem hrow)

theorem sum_groupBy_filter {M : Type} [AddCommMonoid M] (f : α → M) (key : α → κ) (rows : List α)
    (k : κ) :
    (((groupBy key rows).filter fun group => group.1 = k).map
      fun group => (group.2.map f).sum).sum = ((rows.filter fun row => key row = k).map f).sum := by
  by_cases hk : k ∈ rows.map key
  · have hone : (rows.map key).dedup.filter (fun k' => k' = k) = [k] := by
      rw [List.filter_eq, List.count_eq_one_of_mem (List.nodup_dedup _) (List.mem_dedup.2 hk)]
      rfl
    simp only [groupBy, List.filter_map, Function.comp_def, hone, List.map_cons, List.map_nil,
      List.sum_cons, List.sum_nil, add_zero]
  · have hnone : (rows.map key).dedup.filter (fun k' => k' = k) = [] := by
      apply List.filter_eq_nil_iff.2
      rintro k' hk' heq
      exact hk (of_decide_eq_true heq ▸ List.mem_dedup.1 hk')
    have hempty : (rows.filter fun row => key row = k) = [] := by
      apply List.filter_eq_nil_iff.2
      intro row hrow heq
      exact hk (List.mem_map.2 ⟨row, hrow, of_decide_eq_true heq⟩)
    simp only [groupBy, List.filter_map, Function.comp_def, hnone, hempty, List.map_nil,
      List.sum_nil]

end Table
