import WhatStore.Catalog.Services
import WhatStore.ReadCommitted.Outcomes

/-!
# Rules for the services of the catalogue

How the statements of a request end when it is served alone: an `updateMany` always goes
on, an `update` or a `create` goes on when it finds its row as it needs it, and a request
that throws leaves the database as it found it.
-/

namespace WhatStore.Catalog

open ReadCommitted ReadCommitted.Prog

abbrev EndsWith {α : Type} (answer : Answers catalog) (p : Prog catalog α) (n : ℕ)
    (σ : Session catalog) (R : Except Err α → ℕ → Session catalog → Prop) : Prop :=
  p.Ends (S := catalog) answer n σ R

def naming (id : Id) : Answers catalog
  | _, .now => 0
  | _, .uuid => id
  | _, .slugify name => name
  | _, .urlProtocol _ => none
  | _, .deleteUploadedFile _ _ => ()

variable {answer : Answers catalog} {α β : Type} {n : ℕ} {σ : Session catalog} {db : Database}

/-! ## Statements -/

/-- The database after an `updateMany` on one row. -/
def touch (u : Update) (db : Database) : Database :=
  if catalog.guard u (db.row (catalog.key u)) then applyUpdate (S := catalog) u db else db

/-- The rows `updateMany` finds, one after the other. -/
def touchAll (f : α → Update) (as : List α) (db : Database) : Database :=
  as.foldl (fun db a => touch (f a) db) db

theorem touch_hit {u : Update} (h : catalog.guard u (db.row (catalog.key u)) = true) :
    touch u db = applyUpdate (S := catalog) u db := if_pos h

theorem touch_miss {u : Update} (h : catalog.guard u (db.row (catalog.key u)) = false) :
    touch u db = db := if_neg (by simpa using h)

theorem exec_updateMany (u : Update) :
    (updateMany u).exec (S := catalog) answer n σ =
      ⟨.ok (), n, { σ with view := touch u σ.view }⟩ := by
  cases hguard : catalog.guard u (σ.view.row (catalog.key u)) with
  | true =>
      rw [updateMany, exec_update_hit hguard, touch_hit hguard]
      rfl
  | false =>
      rw [updateMany, exec_update_miss hguard, touch_miss hguard]
      rfl

theorem exec_each_updateMany (f : α → Update) (as : List α) :
    (each (fun a => updateMany (f a)) as).exec (S := catalog) answer n σ =
      ⟨.ok (), n, { σ with view := touchAll f as σ.view }⟩ := by
  induction as generalizing σ with
  | nil => rfl
  | cons a as ih =>
      rw [each, exec_bind, exec_updateMany]
      exact ih

theorem ends_each_updateMany {f : α → Update} {as : List α} {k : Unit → Prog catalog β}
    {R : Except Err β → ℕ → Session catalog → Prop}
    (hk : EndsWith answer (k ()) n { σ with view := touchAll f as σ.view } R) :
    EndsWith answer (each (fun a => updateMany (f a)) as >>= k) n σ R := by
  rw [EndsWith, Ends, bind_eq, exec_bind, exec_each_updateMany]
  exact hk

theorem ends_updateOne {u : Update} {R : Except Err Unit → ℕ → Session catalog → Prop}
    (hhit : catalog.guard u (σ.view.row (catalog.key u)) = true → R (.ok ()) n (σ.apply u))
    (hmiss : catalog.guard u (σ.view.row (catalog.key u)) = false →
      R (.error .recordNotFound) n σ.rollback) : EndsWith answer (updateOne u) n σ R :=
  ends_write hhit hmiss

theorem ends_insertOne {u : Update} {R : Except Err Unit → ℕ → Session catalog → Prop}
    (hhit : catalog.guard u (σ.view.row (catalog.key u)) = true → R (.ok ()) n (σ.apply u))
    (hmiss : catalog.guard u (σ.view.row (catalog.key u)) = false →
      R (.error (.failure "Unique constraint failed")) n σ.rollback) :
    EndsWith answer (insertOne u) n σ R :=
  ends_write hhit hmiss

/-- The rows of a list, each of which has to be found, while every update keeps `I`. -/
theorem ends_each_updateOne {f : α → Update} {as : List α} {I : Database → Prop}
    (hdb : σ.db = db) (hI : I σ.view)
    (hstep : ∀ a ∈ as, ∀ v, I v → I (applyUpdate (S := catalog) (f a) v)) :
    EndsWith answer (each (fun a => updateOne (f a)) as) n σ fun v _ σ' =>
      (v = .ok () → I σ'.view) ∧ (v ≠ .ok () → σ'.view = db) := by
  induction as generalizing n σ with
  | nil => exact ⟨fun _ => hI, fun hok => (hok rfl).elim⟩
  | cons a as ih =>
      apply Ends.seq (ends_updateOne (R := fun v n' σ' => (v = .ok () → σ'.db = db ∧ I σ'.view) ∧
        (v ≠ .ok () → σ'.view = db)) _ _)
      · intro _ n' σ' hfirst
        apply ih (hfirst.1 rfl).1 (hfirst.1 rfl).2
        exact fun b hb => hstep b (List.mem_cons_of_mem _ hb)
      · intro e n' σ' hfailed
        exact ⟨nofun, fun _ => hfailed.2 nofun⟩
      · intro _
        exact ⟨fun _ => ⟨hdb, hstep a List.mem_cons_self _ hI⟩, fun hok => (hok rfl).elim⟩
      · intro _
        exact ⟨nofun, fun _ => hdb⟩

theorem touch_row_of_ne {u : Update} {k : Key} (h : k ≠ catalog.key u) :
    (touch u db).row k = db.row k := by
  rw [touch]
  split
  · exact Store.set_row_of_ne db _ h
  · exact rfl

theorem touchAll_row_of_ne {f : α → Update} {as : List α} {k : Key}
    (h : ∀ a ∈ as, k ≠ catalog.key (f a)) : (touchAll f as db).row k = db.row k := by
  induction as generalizing db with
  | nil => rfl
  | cons a as ih =>
      have hrest := @ih (touch (f a) db) fun b hb => h b (List.mem_cons_of_mem _ hb)
      exact hrest.trans (touch_row_of_ne (h a List.mem_cons_self))

end WhatStore.Catalog
