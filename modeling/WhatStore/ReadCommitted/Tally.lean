import WhatStore.ReadCommitted.Protocol
import Mathlib.Algebra.BigOperators.Group.Finset.Basic
import Mathlib.Algebra.BigOperators.Group.Finset.Piecewise
import Mathlib.Algebra.Order.BigOperators.Group.Finset

/-!
# How many processes are at a stage

A stage of a process is read off its history. The number of processes at a stage
moves by one process at a time: the one that makes the step.
-/

namespace ReadCommitted.World

variable {S : Schema} {R : Type} {w w' : World S R} {i : ℕ} {r : R} {e : Event S}
  {f g : List (Event S) → Bool}

def pids (w : World S R) : Finset ℕ := (w.log.map Entry.pid).toFinset

/-- The number of processes whose history satisfies `f`. -/
def tally (f : List (Event S) → Bool) (w : World S R) : ℕ := ∑ i ∈ w.pids, (f (w.own i)).toNat

theorem own_of_notMem (h : i ∉ w.pids) : w.own i = [] := by
  rw [own, List.map_eq_nil_iff, List.filter_eq_nil_iff]
  intro entry hmem hpid
  exact h (List.mem_toFinset.2 (List.mem_map.2 ⟨entry, hmem, beq_iff_eq.1 hpid⟩))

theorem Act.pids_eq (h : w.Act i r e w') : w'.pids = insert i w.pids := by
  rw [pids, h.log_eq]
  simp [pids]

theorem tally_insert (hf : f [] = false) :
    ∑ j ∈ insert i w.pids, (f (w.own j)).toNat = w.tally f := by
  by_cases hi : i ∈ w.pids
  · rw [Finset.insert_eq_of_mem hi, tally]
  · rw [Finset.sum_insert hi, own_of_notMem hi, hf, tally]
    simp

/-- One step moves a tally by the process that makes it. -/
theorem Act.tally_add (h : w.Act i r e w') (hf : f [] = false) :
    w'.tally f + (f (w.own i)).toNat = w.tally f + (f (e :: w.own i)).toNat := by
  have hi : i ∈ insert i w.pids := Finset.mem_insert_self i _
  have hrest : ∑ j ∈ (insert i w.pids).erase i, (f (w'.own j)).toNat =
      ∑ j ∈ (insert i w.pids).erase i, (f (w.own j)).toNat :=
    Finset.sum_congr rfl fun j hj => by rw [h.own_of_ne (Finset.ne_of_mem_erase hj)]
  have hnew := Finset.add_sum_erase _ (fun j => (f (w'.own j)).toNat) hi
  have hold := Finset.add_sum_erase _ (fun j => (f (w.own j)).toNat) hi
  rw [tally_insert hf] at hold
  rw [tally, h.pids_eq, ← hnew, ← hold, h.own_self, hrest]
  ring

theorem Act.tally_same (h : w.Act i r e w') (hf : f [] = false)
    (hsame : f (e :: w.own i) = f (w.own i)) : w'.tally f = w.tally f := by
  have := h.tally_add hf
  rw [hsame] at this
  omega

theorem one_le_tally (h : f (w.own i) = true) (hf : f [] = false) : 1 ≤ w.tally f := by
  have hi : i ∈ w.pids := by
    by_contra hnot
    rw [own_of_notMem hnot, hf] at h
    cases h
  calc 1 = (f (w.own i)).toNat := by simp [h]
    _ ≤ w.tally f := Finset.single_le_sum (f := fun j => (f (w.own j)).toNat)
        (fun _ _ => Nat.zero_le _) hi

theorem tally_le (hfg : ∀ h, f h = true → g h = true) : w.tally f ≤ w.tally g := by
  refine Finset.sum_le_sum fun j _ => ?_
  cases hf : f (w.own j) with
  | false => simp
  | true => simp [hfg _ hf]

/-! ### Sums over the log -/

private theorem sum_by_pid (g : Entry S R → ℕ) {log : List (Entry S R)} {T : Finset ℕ}
    (h : ∀ entry ∈ log, entry.pid ∈ T) :
    (log.map g).sum = ∑ i ∈ T, ((log.filter fun entry => entry.pid == i).map g).sum := by
  induction log with
  | nil => simp
  | cons entry log ih =>
      have hone : ∑ i ∈ T, (if entry.pid = i then g entry else 0) = g entry := by
        rw [Finset.sum_ite_eq, if_pos (h entry List.mem_cons_self)]
      rw [List.map_cons, List.sum_cons, ih fun e he => h e (List.mem_cons_of_mem _ he), ← hone,
        ← Finset.sum_add_distrib]
      refine Finset.sum_congr rfl fun i _ => ?_
      by_cases hi : entry.pid = i <;> simp [hi]

theorem sum_own (f : Event S → ℕ) : (w.log.map fun entry => f entry.event).sum =
    ∑ i ∈ w.pids, ((w.own i).map f).sum := by
  have hmem : ∀ entry ∈ w.log, entry.pid ∈ w.pids := fun entry hentry =>
    List.mem_toFinset.2 (List.mem_map_of_mem hentry)
  rw [sum_by_pid _ hmem]
  simp [own, Function.comp_def]

theorem sum_le_of_own {f g : Event S → ℕ}
    (h : ∀ i, ((w.own i).map f).sum ≤ ((w.own i).map g).sum) :
    (w.log.map fun entry => f entry.event).sum ≤ (w.log.map fun entry => g entry.event).sum := by
  rw [sum_own, sum_own]
  exact Finset.sum_le_sum fun i _ => h i

@[simp] theorem tally_initial (db : Store S.Key S.Row) : (initial db : World S R).tally f = 0 := rfl

end ReadCommitted.World
