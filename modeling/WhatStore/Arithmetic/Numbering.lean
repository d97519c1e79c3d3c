import Mathlib.Data.Finset.Card
import Mathlib.Data.Finset.Range

/-!
# Numbering a name until it is free

A loop that tries a name, and then the name with a number behind it, from 2 on. When no
two of these are the same it comes to one that is free.
-/

namespace Numbering

variable {α : Type} {base : α} {next : ℕ → α}

/-- What a loop tries: a name, and then what it is with each number from 2 on. -/
def numbered (base : α) (next : ℕ → α) : ℕ → α
  | 0 => base
  | k + 1 => next (k + 2)

theorem numbered_injective (hnext : Function.Injective next) (hbase : ∀ n, next n ≠ base) :
    Function.Injective (numbered base next) := by
  intro j k h
  cases j with
  | zero =>
      cases k with
      | zero => rfl
      | succ k => exact (hbase _ h.symm).elim
  | succ j =>
      cases k with
      | zero => exact (hbase _ h).elim
      | succ k =>
          have heq := hnext h
          omega

section Free

variable {tried : ℕ → α} (htried : Function.Injective tried) {taken : Finset α}
include htried

/-- When as many are taken as there are names, the one that follows is free. -/
theorem free_of_taken {k : ℕ} (hcard : taken.card ≤ k) (htaken : ∀ j < k, tried j ∈ taken) :
    tried k ∉ taken := by
  classical
  intro hlast
  have hsub : (Finset.range (k + 1)).image tried ⊆ taken := by
    intro name hname
    obtain ⟨j, hj, rfl⟩ := Finset.mem_image.1 hname
    rcases Nat.lt_succ_iff_lt_or_eq.1 (Finset.mem_range.1 hj) with hlt | rfl
    · exact htaken j hlt
    · exact hlast
  have hle := Finset.card_le_card hsub
  rw [Finset.card_image_of_injective _ htried, Finset.card_range] at hle
  omega

/-- Of more names than are taken, one is free. -/
theorem exists_free (taken : Finset α) : ∃ k ≤ taken.card, tried k ∉ taken := by
  by_contra hnone
  have htaken : ∀ k ≤ taken.card, tried k ∈ taken := by
    intro k hk
    by_contra hfree
    exact hnone ⟨k, hk, hfree⟩
  exact free_of_taken htried le_rfl (fun j hj => htaken j hj.le) (htaken _ le_rfl)

end Free

end Numbering
