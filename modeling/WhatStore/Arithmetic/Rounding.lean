import Mathlib.Algebra.Order.Round
import Mathlib.Data.Rat.Floor
import Mathlib.Tactic.Linarith
import Mathlib.Tactic.FieldSimp

/-!
# Rounding half up

The whole number nearest to a rational one, halves away from zero, and the same for
a number of decimals.
-/

namespace Rounding

/-- The nearest whole number, halves away from zero. -/
def halfUp (x : ℚ) : ℤ := if 0 ≤ x then ⌊x + 1 / 2⌋ else -⌊-x + 1 / 2⌋

theorem halfUp_of_nonneg {x : ℚ} (h : 0 ≤ x) : halfUp x = ⌊x + 1 / 2⌋ := if_pos h

@[simp] theorem halfUp_intCast (n : ℤ) : halfUp n = n := by
  have hround : ∀ m : ℤ, ⌊(m : ℚ) + 1 / 2⌋ = m := by
    intro m
    rw [← round_eq, round_intCast]
  rw [halfUp, hround, ← Int.cast_neg, hround, neg_neg, ite_self]

theorem halfUp_nonneg {x : ℚ} (h : 0 ≤ x) : 0 ≤ halfUp x := by
  rw [halfUp_of_nonneg h]
  exact Int.floor_nonneg.2 (by linarith)

theorem halfUp_le_iff {x : ℚ} (h : 0 ≤ x) {n : ℤ} : halfUp x ≤ n ↔ x < n + 1 / 2 := by
  rw [halfUp_of_nonneg h, ← Int.lt_add_one_iff, Int.floor_lt]
  push_cast
  constructor <;> intro hlt <;> linarith

theorem halfUp_mono {x y : ℚ} (hx : 0 ≤ x) (h : x ≤ y) : halfUp x ≤ halfUp y := by
  rw [halfUp_of_nonneg hx, halfUp_of_nonneg (hx.trans h)]
  exact Int.floor_mono (by linarith)

/-- Rounding is the same on both sides of zero. -/
theorem halfUp_neg (x : ℚ) : halfUp (-x) = -halfUp x := by
  rcases lt_trichotomy x 0 with h | rfl | h
  · rw [halfUp, halfUp, if_pos (by linarith), if_neg (by linarith), neg_neg]
  · have hzero := halfUp_intCast 0
    rw [Int.cast_zero] at hzero
    rw [neg_zero, hzero, neg_zero]
  · rw [halfUp, halfUp, if_neg (by linarith), if_pos h.le, neg_neg]

/-- For fractions the rounding is one of whole numbers. -/
theorem halfUp_div {num : ℤ} {den : ℕ} (hnum : 0 ≤ num) (hden : 0 < den) :
    halfUp (num / den) = (2 * num + den) / (2 * den) := by
  have hpos : (0 : ℚ) < den := by exact_mod_cast hden
  have hnonneg : (0 : ℚ) ≤ num := by exact_mod_cast hnum
  rw [halfUp_of_nonneg (div_nonneg hnonneg hpos.le)]
  have heq : (num / den : ℚ) + 1 / 2 = ((2 * num + den : ℤ) : ℚ) / ((2 * den : ℕ) : ℚ) := by
    push_cast
    field_simp
  rw [heq, Rat.floor_intCast_div_natCast]
  push_cast
  rfl

end Rounding
