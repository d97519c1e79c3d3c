import Mathlib.Algebra.BigOperators.Group.List.Basic
import Mathlib.Data.List.Nodup
import Mathlib.Data.Finset.Basic
import Mathlib.Logic.Function.Basic
import Mathlib.Tactic.Ring

/-!
# Stores of rows

A `Store K V` is a database seen as one partial function: the key `k` holds a
row of type `V k` or nothing. The keys that were ever written are listed, so a
query can scan the store; a key outside the list holds nothing, and the
structure carries both facts. `Store.total f` adds a measure `f` over all rows,
and `total_set` says how writing one row moves it.
-/

namespace ReadCommitted

/-- A database: the row of each key, if it has one, and the keys written so
far in the order of their first write. -/
structure Store (K : Type) (V : K → Type) where
  keys : List K
  row : (k : K) → Option (V k)
  keys_nodup : keys.Nodup
  row_eq_none : ∀ k, k ∉ keys → row k = none

namespace Store

def empty {K : Type} {V : K → Type} : Store K V where
  keys := []
  row _ := none
  keys_nodup := List.nodup_nil
  row_eq_none _ _ := rfl

/-- Writes (or, with `none`, deletes) the row of `k`. -/
def set {K : Type} [DecidableEq K] {V : K → Type} (s : Store K V) (k : K)
    (v : Option (V k)) : Store K V where
  keys := if k ∈ s.keys then s.keys else s.keys ++ [k]
  row := Function.update s.row k v
  keys_nodup := by
    split
    · exact s.keys_nodup
    · next hk =>
        exact List.nodup_append.2 ⟨s.keys_nodup, List.nodup_singleton k,
          fun a ha b hb => by rintro rfl; exact hk (List.mem_singleton.1 hb ▸ ha)⟩
  row_eq_none j hj := by
    have hjk : j ≠ k := by
      rintro rfl
      split at hj <;> simp_all
    rw [Function.update_of_ne hjk]
    refine s.row_eq_none j fun hmem => hj ?_
    split
    · exact hmem
    · exact List.mem_append_left _ hmem

@[simp] theorem set_row_self {K : Type} [DecidableEq K] {V : K → Type} (s : Store K V)
    (k : K) (v : Option (V k)) : (s.set k v).row k = v := by
  simp [set]

theorem set_row_of_ne {K : Type} [DecidableEq K] {V : K → Type} (s : Store K V)
    {k j : K} (v : Option (V k)) (h : j ≠ k) : (s.set k v).row j = s.row j := by
  simp [set, h]

theorem forall_set {K : Type} [DecidableEq K] {V : K → Type} {s : Store K V}
    {P : (k : K) → Option (V k) → Prop} (h : ∀ j, P j (s.row j)) {k : K} {v : Option (V k)}
    (hv : P k v) (j : K) : P j ((s.set k v).row j) := by
  by_cases hj : j = k
  · subst hj
    rw [set_row_self]
    exact hv
  · rw [set_row_of_ne s v hj]
    exact h j

theorem mem_keys_of_row {K : Type} {V : K → Type} (s : Store K V) {k : K} {v : V k}
    (h : s.row k = some v) : k ∈ s.keys := by
  by_contra hk
  rw [s.row_eq_none k hk] at h
  cases h

theorem nodup_scan {K : Type} {V : K → Type} {β γ : Type} (s : Store K V) {f : K → Option β}
    {g : β → γ} (key : γ → K) (hkey : ∀ k b, f k = some b → key (g b) = k) :
    ((s.keys.filterMap f).map g).Nodup := by
  rw [List.map_filterMap]
  apply List.Nodup.filterMap _ s.keys_nodup
  intro k k' c h h'
  obtain ⟨b, hb, rfl⟩ := Option.map_eq_some_iff.1 h
  obtain ⟨b', hb', hsame⟩ := Option.map_eq_some_iff.1 h'
  rw [← hkey k b hb, ← hkey k' b' hb', hsame]

/-- The sum of the measure `f` over the rows of the store. -/
def total {K : Type} {V : K → Type} (f : (k : K) → Option (V k) → ℤ) (s : Store K V) : ℤ :=
  (s.keys.map fun k => f k (s.row k)).sum

private theorem sum_map_update {K : Type} [DecidableEq K] (g g' : K → ℤ) (k : K)
    (hne : ∀ j, j ≠ k → g' j = g j) (ks : List K) (hnd : ks.Nodup) (hk : k ∈ ks) :
    (ks.map g').sum = (ks.map g).sum + (g' k - g k) := by
  induction ks with
  | nil => cases hk
  | cons j js ih =>
      simp only [List.map_cons, List.sum_cons]
      rcases List.nodup_cons.1 hnd with ⟨hj, hjs⟩
      rcases List.mem_cons.1 hk with rfl | hmem
      · have hsame : js.map g' = js.map g :=
          List.map_congr_left fun i hi => hne i (by rintro rfl; exact hj hi)
        rw [hsame]
        ring
      · have hjk : j ≠ k := by rintro rfl; exact hj hmem
        rw [ih hjs hmem, hne j hjk]
        ring

/-- Writing the row of `k` moves a measure that counts no row as zero by the
measure of the new row less that of the old one. -/
theorem total_set {K : Type} [DecidableEq K] {V : K → Type}
    (f : (k : K) → Option (V k) → ℤ) (hf : ∀ k, f k none = 0) (s : Store K V) (k : K)
    (v : Option (V k)) :
    total f (s.set k v) = total f s + (f k v - f k (s.row k)) := by
  have hne : ∀ j, j ≠ k → f j ((s.set k v).row j) = f j (s.row j) :=
    fun j hj => by rw [set_row_of_ne s v hj]
  by_cases hk : k ∈ s.keys
  · have hkeys : (s.set k v).keys = s.keys := if_pos hk
    have h := sum_map_update (fun j => f j (s.row j)) (fun j => f j ((s.set k v).row j)) k
      hne s.keys s.keys_nodup hk
    simpa only [total, hkeys, set_row_self] using h
  · have hkeys : (s.set k v).keys = s.keys ++ [k] := if_neg hk
    have hsame : (s.keys.map fun j => f j ((s.set k v).row j)) =
        s.keys.map fun j => f j (s.row j) :=
      List.map_congr_left fun j hj => hne j (by rintro rfl; exact hk hj)
    simp only [total, hkeys, List.map_append, hsame, List.sum_append, List.map_cons,
      List.map_nil, List.sum_cons, List.sum_nil, set_row_self, s.row_eq_none k hk, hf]
    ring

theorem total_single {K : Type} [DecidableEq K] {V : K → Type}
    (f : (k : K) → Option (V k) → ℤ) (hf : ∀ k, f k none = 0) (s : Store K V) (k : K)
    (hne : ∀ j, j ≠ k → ∀ v, f j v = 0) : total f s = f k (s.row k) := by
  by_cases hk : k ∈ s.keys
  · have h := sum_map_update (fun _ => (0 : ℤ)) (fun j => f j (s.row j)) k
      (fun j hj => hne j hj _) s.keys s.keys_nodup hk
    simpa [total] using h
  · rw [s.row_eq_none k hk, hf]
    refine List.sum_eq_zero fun x hx => ?_
    obtain ⟨j, hj, rfl⟩ := List.mem_map.1 hx
    exact hne j (by rintro rfl; exact hk hj) _

theorem total_sub {K : Type} {V : K → Type} (f g : (k : K) → Option (V k) → ℤ)
    (s : Store K V) : total (fun k v => f k v - g k v) s = total f s - total g s := by
  simp only [total]
  induction s.keys with
  | nil => rfl
  | cons k ks ih =>
      simp only [List.map_cons, List.sum_cons, ih]
      ring

theorem total_count {K : Type} {V : K → Type} {β : Type} (f : (k : K) → Option (V k) → ℤ)
    (g : K → Option β) (s : Store K V)
    (h : ∀ k, f k (s.row k) = if (g k).isSome then 1 else 0) :
    total f s = (s.keys.filterMap g).length := by
  simp only [total]
  induction s.keys with
  | nil => rfl
  | cons k ks ih =>
      rw [List.map_cons, List.sum_cons, h k, ih]
      cases hg : g k with
      | none => simp [hg]
      | some b =>
          simp [hg]
          ring

/-- What a reader of single rows finds in the store. -/
def gather {K : Type} {V : K → Type} {β : Type} (g : (k : K) → Option (V k) → Option β)
    (s : Store K V) : List β := s.keys.filterMap fun k => g k (s.row k)

private theorem filterMap_update {K : Type} [DecidableEq K] {β : Type} (f f' : K → Option β)
    (k : K) (hne : ∀ j, j ≠ k → f' j = f j) (ks : List K) (hnd : ks.Nodup) (hk : k ∈ ks) :
    List.Perm ((f k).toList ++ ks.filterMap f') ((f' k).toList ++ ks.filterMap f) := by
  induction ks with
  | nil => cases hk
  | cons j js ih =>
      rcases List.nodup_cons.1 hnd with ⟨hj, hjs⟩
      rcases List.mem_cons.1 hk with rfl | hmem
      · have hsame : js.filterMap f' = js.filterMap f :=
          List.filterMap_congr fun i hi => hne i (by rintro rfl; exact hj hi)
        have hcons : ∀ (f : K → Option β) (js : List K),
            (k :: js).filterMap f = (f k).toList ++ js.filterMap f := fun f js => by
          cases hf : f k <;> simp [hf]
        rw [hcons, hcons, hsame, ← List.append_assoc, ← List.append_assoc]
        exact List.perm_append_comm.append_right _
      · have hjk : j ≠ k := by rintro rfl; exact hj hmem
        have hrest := ih hjs hmem
        cases hf : f j with
        | none => simpa [hf, hne j hjk] using hrest
        | some b =>
            simp only [List.filterMap_cons, hf, hne j hjk]
            refine List.perm_middle.trans (List.Perm.trans ?_ List.perm_middle.symm)
            exact hrest.cons b

/-- Writing a row takes what was found there before away and adds what is found
there now. -/
theorem gather_set {K : Type} [DecidableEq K] {V : K → Type} {β : Type}
    (g : (k : K) → Option (V k) → Option β) (hg : ∀ k, g k none = none) (s : Store K V) (k : K)
    (v : Option (V k)) :
    List.Perm ((g k (s.row k)).toList ++ (s.set k v).gather g) ((g k v).toList ++ s.gather g) := by
  have hne : ∀ j, j ≠ k → g j ((s.set k v).row j) = g j (s.row j) :=
    fun j hj => by rw [set_row_of_ne s v hj]
  by_cases hk : k ∈ s.keys
  · have hkeys : (s.set k v).keys = s.keys := if_pos hk
    have h := filterMap_update (fun j => g j (s.row j)) (fun j => g j ((s.set k v).row j)) k
      hne s.keys s.keys_nodup hk
    simpa only [gather, hkeys, set_row_self] using h
  · have hkeys : (s.set k v).keys = s.keys ++ [k] := if_neg hk
    have hsame : (s.keys.filterMap fun j => g j ((s.set k v).row j)) =
        s.keys.filterMap fun j => g j (s.row j) :=
      List.filterMap_congr fun j hj => hne j (by rintro rfl; exact hk hj)
    have hlast : [k].filterMap (fun j => g j ((s.set k v).row j)) = (g k v).toList := by
      cases hv : g k v <;> simp [hv]
    rw [s.row_eq_none k hk, hg, gather, hkeys, List.filterMap_append, hsame, hlast,
      Option.toList_none, List.nil_append]
    exact List.perm_append_comm

theorem gather_set_of_blind {K : Type} [DecidableEq K] {V : K → Type} {β : Type}
    (g : (k : K) → Option (V k) → Option β) (s : Store K V) {k : K}
    (hk : ∀ v, g k v = none) (v : Option (V k)) : (s.set k v).gather g = s.gather g := by
  have hsame : ∀ j, g j ((s.set k v).row j) = g j (s.row j) := fun j => by
    by_cases hj : j = k
    · subst hj
      rw [hk, hk]
    · rw [set_row_of_ne s v hj]
  have hkeys : (s.set k v).keys = s.keys ∨ (s.set k v).keys = s.keys ++ [k] := by
    by_cases hmem : k ∈ s.keys
    · exact .inl (if_pos hmem)
    · exact .inr (if_neg hmem)
  rcases hkeys with hkeys | hkeys
  · simp only [gather, hkeys, hsame]
  · simp only [gather, hkeys, hsame, List.filterMap_append]
    simp [hk]

end Store

end ReadCommitted
