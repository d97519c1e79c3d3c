import Mathlib.Data.List.Basic

/-!
# Changes of rows and the constraints of tables

A statement changes rows. After that the foreign keys act on the rows that refer to
rows it has deleted, and the statement fails if a row that was changed breaks a
constraint. Both look at every row there is: policies of row security are not asked.
-/

namespace RowSecurity

variable {T I R : Type}

/-! ## Changes -/

/-- The rows of all tables. -/
abbrev Rows (T I R : Type) := T → I → Option R

/-- A row that is written, or deleted where there is none. -/
structure Change (T I R : Type) where
  table : T
  id : I
  row : Option R

def Writes (xs : List (Change T I R)) (t : T) (i : I) : Prop :=
  ∃ x ∈ xs, x.table = t ∧ x.id = i

section Apply

variable [DecidableEq T] [DecidableEq I]

def Change.apply (rows : Rows T I R) (x : Change T I R) : Rows T I R := fun t i =>
  if t = x.table ∧ i = x.id then x.row else rows t i

def applyAll (rows : Rows T I R) (xs : List (Change T I R)) : Rows T I R :=
  xs.foldl Change.apply rows

theorem applyAll_append (rows : Rows T I R) (xs ys : List (Change T I R)) :
    applyAll rows (xs ++ ys) = applyAll (applyAll rows xs) ys := List.foldl_append

theorem applyAll_of_not_writes {xs : List (Change T I R)} {t : T} {i : I} :
    ∀ {rows : Rows T I R}, ¬ Writes xs t i → applyAll rows xs t i = rows t i := by
  induction xs with
  | nil => exact fun _ => rfl
  | cons x xs ih =>
      intro rows h
      have hx : ¬ (t = x.table ∧ i = x.id) :=
        fun heq => h ⟨x, List.mem_cons_self, heq.1.symm, heq.2.symm⟩
      have hxs : ¬ Writes xs t i := fun ⟨y, hy, heq⟩ => h ⟨y, List.mem_cons_of_mem x hy, heq⟩
      exact (ih hxs).trans (if_neg hx)

end Apply

/-! ## Foreign keys -/

/-- What is done when a row is deleted that others refer to. -/
inductive OnDelete where
  | cascade | setNull | restrict
  deriving DecidableEq

/-- A foreign key. A row keeps its id, so nothing is ever done on an update. -/
structure ForeignKey (T I R : Type) where
  child : T
  parent : T
  /-- What a row of the child refers to. -/
  target : R → Option I
  /-- The row with the reference set to `NULL`. -/
  unlink : R → R
  onDelete : OnDelete

/-- The constraints of a database: its foreign keys, and the pairs of rows that a
unique index does not let stand in one table. -/
structure Constraints (T I R : Type) where
  keys : List (ForeignKey T I R)
  clash : T → R → R → Bool

namespace Constraints

variable (K : Constraints T I R) (rows : Rows T I R) (xs : List (Change T I R))

/-- A row that `xs` have deleted, or that is deleted with one. `rows` is what `xs` have
left. -/
inductive Gone : T → I → Prop
  | deleted (x : Change T I R) (hx : x ∈ xs) (hnone : rows x.table x.id = none) :
      Gone x.table x.id
  | cascade (key : ForeignKey T I R) (hkey : key ∈ K.keys) (hcascade : key.onDelete = .cascade)
      (i : I) (row : R) (j : I) (hrow : rows key.child i = some row)
      (htarget : key.target row = some j) (hgone : Gone key.parent j) : Gone key.child i

/-- A row of `t` refers to a row that is gone, by a key that does something then. -/
def Follows (t : T) (row : R) : Prop :=
  ∃ key ∈ K.keys, key.child = t ∧ key.onDelete ≠ .restrict ∧
    ∃ j, key.target row = some j ∧ K.Gone rows xs key.parent j

theorem Gone.follows {t : T} {i : I} {row : R} (h : K.Gone rows xs t i)
    (hrow : rows t i = some row) : K.Follows rows xs t row := by
  cases h with
  | deleted x hx hnone =>
      rw [hnone] at hrow
      cases hrow
  | cascade key hkey hcascade i row' j hrow' htarget hgone =>
      rw [hrow', Option.some.injEq] at hrow
      subst hrow
      exact ⟨key, hkey, rfl, by simp [hcascade], j, htarget, hgone⟩

/-- The key sets its reference to `NULL`. -/
def unlinks [DecidableEq T] (gone : T → I → Bool) (t : T) (row : R) (key : ForeignKey T I R) :
    Bool :=
  key.child == t && key.onDelete == .setNull && (key.target row).any (gone key.parent)

/-- The row without its references to rows that are gone. -/
def unlinked [DecidableEq T] (gone : T → I → Bool) (t : T) (row : R) : R :=
  (K.keys.filter (unlinks gone t row)).foldl (fun row key => key.unlink row) row

/-- The rows after the foreign keys have acted. -/
def act [DecidableEq T] (gone : T → I → Bool) : Rows T I R := fun t i =>
  if gone t i then none else (rows t i).map (K.unlinked gone t)

/-- What the foreign keys change after `xs`. -/
structure Acts [DecidableEq T] [DecidableEq I] (gone : T → I → Bool) (ys : List (Change T I R)) :
    Prop where
  gone_iff : ∀ t i, gone t i = true ↔ K.Gone rows xs t i
  result : applyAll rows ys = K.act rows gone
  changed : ∀ y ∈ ys, y.row = K.act rows gone y.table y.id ∧ y.row ≠ rows y.table y.id

/-- A constraint does not hold for a row that `xs` have changed; `rows` is what they
have left. -/
def Breaks : Prop :=
  (∃ key ∈ K.keys, ∃ i row j, rows key.child i = some row ∧ key.target row = some j ∧
      rows key.parent j = none ∧ (Writes xs key.child i ∨ Writes xs key.parent j)) ∨
    ∃ t i j row row', Writes xs t i ∧ i ≠ j ∧ rows t i = some row ∧ rows t j = some row' ∧
      K.clash t row row' = true

variable {K rows xs} {ys : List (Change T I R)} {gone : T → I → Bool}

theorem unlinked_of_not [DecidableEq T] {t : T} {row : R}
    (h : ∀ key ∈ K.keys, unlinks gone t row key = false) : K.unlinked gone t row = row := by
  have hnil : K.keys.filter (unlinks gone t row) = [] :=
    List.filter_eq_nil_iff.2 fun key hkey => by simp [h key hkey]
  rw [unlinked, hnil]
  rfl

/-- **The foreign keys change only rows that follow one that is gone.** -/
theorem Acts.follows [DecidableEq T] [DecidableEq I] (h : K.Acts rows xs gone ys) {t : T} {i : I}
    (hy : Writes ys t i) : ∃ row, rows t i = some row ∧ K.Follows rows xs t row := by
  obtain ⟨y, hy, rfl, rfl⟩ := hy
  obtain ⟨hact, hne⟩ := h.changed y hy
  rw [hact] at hne
  cases hrow : rows y.table y.id with
  | none => simp [act, hrow] at hne
  | some row =>
      refine ⟨row, rfl, ?_⟩
      by_cases hgone : gone y.table y.id = true
      · exact Gone.follows K rows xs ((h.gone_iff _ _).1 hgone) hrow
      -- the row stays, so one of its references was set to `NULL`
      obtain ⟨key, hmem, hunlinks⟩ : ∃ key ∈ K.keys, unlinks gone y.table row key = true := by
        by_contra hno
        have hsame := unlinked_of_not fun key hkey =>
          Bool.eq_false_iff.2 fun htrue => hno ⟨key, hkey, htrue⟩
        exact hne (by rw [act, if_neg hgone, hrow, Option.map_some, hsame])
      simp only [unlinks, Bool.and_eq_true, beq_iff_eq, Option.any_eq_true] at hunlinks
      obtain ⟨⟨hchild, hnull⟩, j, htarget, hj⟩ := hunlinks
      exact ⟨key, hmem, hchild, by simp [hnull], j, htarget, (h.gone_iff _ _).1 hj⟩

end Constraints

end RowSecurity
