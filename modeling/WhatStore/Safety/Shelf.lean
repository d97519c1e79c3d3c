import WhatStore.Protocol.Whole
import WhatStore.ReadCommitted.Schedule

/-!
# Units on the shelf

The units a stock row has are the units it had, less those that committed
requests took, plus those they gave back. Nothing takes more than a row has,
so no row goes below zero, however many baskets are filled at once.
-/

namespace WhatStore

open ReadCommitted

def units : (k : Key) → Option (Row k) → ℤ
  | .product _, v => (v.map fun p : Product => p.quantity).getD 0
  | .variant _, v => (v.map fun x : ProductVariant => x.quantity).getD 0
  | _, _ => 0

/-- The units on the shelf `x`. -/
def shelf (x : StockRow) (db : Database) : ℤ := units x.key (db.row x.key)

/-- The units the update takes from the shelf `x`. -/
def Update.taken (x : StockRow) : Update → ℤ
  | .take row n => if row = x then n else 0
  | _ => 0

/-- The units the update puts back on the shelf `x`. -/
def Update.given (x : StockRow) : Update → ℤ
  | .give row n => if row = x then n else 0
  | _ => 0

/-- The units a list of updates takes from the shelf `x`. -/
def unitsTaken (x : StockRow) (us : List Update) : ℤ := (us.map (Update.taken x)).sum

/-- The units a list of updates puts back on the shelf `x`. -/
def unitsGiven (x : StockRow) (us : List Update) : ℤ := (us.map (Update.given x)).sum

/-- Merchants may edit products and variants, with any stock, and remove them. -/
def Request.editsCatalog : Request → Bool
  | .updateProduct _ _ _ => true
  | .removeProduct _ _ => true
  | _ => false

theorem Request.editsCatalog_of_dropsVariants {r : Request} (hr : r.dropsVariants) :
    r.editsCatalog = true := by
  rcases hr with ⟨t, id, dto, rfl⟩ | ⟨t, id, rfl⟩ <;> rfl

/-- A row that is not oversold; a line of an order has at least one unit. -/
def Stocked : (k : Key) → Option (Row k) → Prop
  | .product _, v => ∀ p, v = some p → 0 ≤ p.quantity
  | .variant _, v => ∀ x, v = some x → 0 ≤ x.quantity
  | .item _, v => ∀ i, v = some i → 1 ≤ i.quantity
  | _, _ => True

/-- The units on the shelf `x`, as a measure of all rows. -/
def shelfMeasure (x : StockRow) (k : Key) (v : Option (Row k)) : ℤ :=
  if k = x.key then units k v else 0

/-- The discipline of stock: nothing is oversold, and units move by what is
taken and given. -/
def stockDiscipline : Discipline shop where
  ok := Stocked
  rel _ _ _ := True
  rel_refl _ _ := trivial
  rel_trans _ _ _ _ _ _ := trivial
  Index := StockRow
  measure := shelfMeasure
  measure_none x k := by
    rw [shelfMeasure]
    cases k <;> simp [units]
  flow x u _ := u.given x - u.taken x
  flow_rel _ _ _ _ _ _ := rfl

theorem total_shelf (x : StockRow) (db : Database) :
    Store.total (stockDiscipline.measure x) db = shelf x db := by
  rw [Store.total_single (stockDiscipline.measure x) (stockDiscipline.measure_none x) db x.key]
  · simp [stockDiscipline, shelfMeasure, shelf]
  · intro k hk v
    simp [stockDiscipline, shelfMeasure, hk]

theorem flows_shelf (x : StockRow) (us : List Update) (db : Database) :
    stockDiscipline.flows x us db = unitsGiven x us - unitsTaken x us := by
  induction us with
  | nil => rfl
  | cons u us ih =>
      have hcons : stockDiscipline.flows x (u :: us) db =
          (u.given x - u.taken x) + stockDiscipline.flows x us db := rfl
      rw [hcons, ih, unitsGiven, unitsGiven, unitsTaken, unitsTaken, List.map_cons, List.sum_cons,
        List.map_cons, List.sum_cons]
      ring

theorem positiveLines {w : StoreWorld} (hw : stockDiscipline.Inv w) (i : ℕ) :
    PositiveLines (w.own i) :=
  fun id x hsaw => (hw.saw i (.item id) _ hsaw).1 x rfl

theorem shelf_nonneg (x : StockRow) {db : Database} (h : Stocked x.key (db.row x.key)) :
    0 ≤ shelf x db := by
  cases x with
  | product id =>
      cases hp : db.row (.product id) with
      | none => simp [shelf, units, StockRow.key, hp]
      | some p => simpa [shelf, units, StockRow.key, hp] using h p hp
  | variant id =>
      cases hv : db.row (.variant id) with
      | none => simp [shelf, units, StockRow.key, hv]
      | some v => simpa [shelf, units, StockRow.key, hv] using h v hv

theorem StockRow.key_injective {x y : StockRow} (h : x.key = y.key) : x = y := by
  cases x <;> cases y <;> simp_all [StockRow.key]

theorem StockRow.key_eq_iff (x y : StockRow) : x.key = y.key ↔ x = y :=
  ⟨StockRow.key_injective, congrArg StockRow.key⟩

theorem shelfMeasure_add (x : StockRow) {k : Key} {v v' : Option (Row k)} {d : ℤ}
    (h : units k v' = units k v + d) :
    shelfMeasure x k v' = shelfMeasure x k v + if k = x.key then d else 0 := by
  unfold shelfMeasure
  split
  · exact h
  · rfl

theorem flow_take (x row : StockRow) (n : ℤ) :
    (Update.take row n).given x - (Update.take row n).taken x =
      if row.key = x.key then -n else 0 := by
  simp [Update.given, Update.taken, StockRow.key_eq_iff, neg_ite]

theorem flow_give (x row : StockRow) (n : ℤ) :
    (Update.give row n).given x - (Update.give row n).taken x =
      if row.key = x.key then n else 0 := by
  simp [Update.given, Update.taken, StockRow.key_eq_iff]

/-- A row gives no more units than it has. -/
theorem respects_take {s : Database} {row : StockRow} {n : ℤ}
    (hguard : shop.guard (.take row n) (s.row (shop.key (.take row n))) = true) :
    stockDiscipline.Respects (.take row n) s := by
  cases row with
  | product id =>
      obtain ⟨p, hp, hn⟩ := (Option.any_eq_true _ _).1 hguard
      have hrow : s.row (.product id) = some p := hp
      refine ⟨?_, trivial, fun x => ?_⟩
      · intro p' hp'
        obtain ⟨q, hq, rfl⟩ := Option.map_eq_some_iff.1 hp'
        cases hp.symm.trans hq
        exact Int.sub_nonneg_of_le (of_decide_eq_true hn)
      · refine (shelfMeasure_add x ?_).trans (congrArg _ (flow_take x (.product id) n).symm)
        simp [units, Update.change, hrow, sub_eq_add_neg]
  | variant id =>
      obtain ⟨p, hp, hn⟩ := (Option.any_eq_true _ _).1 hguard
      have hrow : s.row (.variant id) = some p := hp
      refine ⟨?_, trivial, fun x => ?_⟩
      · intro p' hp'
        obtain ⟨q, hq, rfl⟩ := Option.map_eq_some_iff.1 hp'
        cases hp.symm.trans hq
        exact Int.sub_nonneg_of_le (of_decide_eq_true hn)
      · refine (shelfMeasure_add x ?_).trans (congrArg _ (flow_take x (.variant id) n).symm)
        simp [units, Update.change, hrow, sub_eq_add_neg]

theorem respects_give {s : Database} {row : StockRow} {n : ℤ} (hn : 0 ≤ n)
    (hs : Stocked row.key (s.row row.key))
    (hguard : shop.guard (.give row n) (s.row (shop.key (.give row n))) = true) :
    stockDiscipline.Respects (.give row n) s := by
  cases row with
  | product id =>
      obtain ⟨p, hp⟩ := Option.isSome_iff_exists.1 hguard
      have hrow : s.row (.product id) = some p := hp
      refine ⟨?_, trivial, fun x => ?_⟩
      · intro p' hp'
        obtain ⟨q, hq, rfl⟩ := Option.map_eq_some_iff.1 hp'
        exact add_nonneg (hs q hq) hn
      · refine (shelfMeasure_add x ?_).trans (congrArg _ (flow_give x (.product id) n).symm)
        simp [units, Update.change, hrow]
  | variant id =>
      obtain ⟨p, hp⟩ := Option.isSome_iff_exists.1 hguard
      have hrow : s.row (.variant id) = some p := hp
      refine ⟨?_, trivial, fun x => ?_⟩
      · intro p' hp'
        obtain ⟨q, hq, rfl⟩ := Option.map_eq_some_iff.1 hp'
        exact add_nonneg (hs q hq) hn
      · refine (shelfMeasure_add x ?_).trans (congrArg _ (flow_give x (.variant id) n).symm)
        simp [units, Update.change, hrow]

theorem stockDiscipline_kept {starts : Request → Prop}
    (hstarts : ∀ r, starts r → r.editsCatalog = false) {allow : StepCondition} :
    stockDiscipline.Kept (Among starts) allow := by
  rintro w i r u - hw ⟨hr, hlaw⟩ - hguard
  have hcatalog := hstarts r hr
  cases u with
  | insertItem id item =>
      refine ⟨?_, trivial, fun x => by cases x <;> rfl⟩
      rintro _ ⟨⟩
      exact hlaw.2.1
  | updateItem id read data =>
      refine ⟨?_, trivial, fun x => by cases x <;> rfl⟩
      intro item hitem
      obtain ⟨old, -, rfl⟩ := Option.map_eq_some_iff.1 hitem
      exact hlaw.2.2 (positiveLines hw i)
  | deleteItem id read => exact ⟨fun _ h => (nomatch h), trivial, fun x => by cases x <;> rfl⟩
  | clearVariant itemId variantId =>
      exact absurd (Request.editsCatalog_of_dropsVariants hlaw) (by simp [hcatalog])
  | take row n => exact respects_take hguard
  | give row n =>
      exact respects_give (hlaw (positiveLines hw i)) (hw.view_good i row.key) hguard
  | editProduct id e =>
      obtain ⟨t, dto, rfl, -⟩ := hlaw
      cases hcatalog
  | deleteVariant id =>
      exact absurd (Request.editsCatalog_of_dropsVariants hlaw) (by simp [hcatalog])
  | deleteProduct id =>
      obtain ⟨t, rfl⟩ := hlaw
      cases hcatalog
  | clearProduct itemId productId =>
      obtain ⟨t, rfl⟩ := hlaw
      cases hcatalog
  | insertVariant id v =>
      obtain ⟨⟨t, id, dto, rfl⟩, -⟩ := hlaw
      cases hcatalog
  | _ => exact ⟨trivial, trivial, fun x => by cases x <;> rfl⟩

/-- What a request that threw leaves of its writes: nothing. -/
def LeavesNothing (w : StoreWorld) : Prop :=
  ∀ i e, .threw e ∈ w.own i → ∀ tx, .committed tx ∉ w.own i ∧ .returned tx ∉ w.own i

/-- In every run of orders created, corrected, cancelled and swept, no stock
row is below zero, the units on each shelf are those of the start less the
units taken plus the units given by the transactions that committed, so that no
more is taken than there was and came back, and a request that threw has
committed nothing. -/
theorem never_oversold {db : Database} {s : StoreSystem} (hdb : ∀ k, Stocked k (db.row k))
    (hrun : Runs (Request.trades ·) (anyOrder · · · ·) (System.initial db) s) :
    (∀ x, 0 ≤ shelf x s.world.db) ∧
      (∀ x, shelf x s.world.db = shelf x db - unitsTaken x (committed s.world.log) +
        unitsGiven x (committed s.world.log)) ∧
      (∀ x, unitsTaken x (committed s.world.log) ≤
        shelf x db + unitsGiven x (committed s.world.log)) ∧
      LeavesNothing s.world := by
  have htrace := trace_of_runs handler_among hrun
  have hkept : stockDiscipline.Kept (Among (Request.trades ·)) (anyOrder · · · ·) :=
    stockDiscipline_kept fun r hr => by cases r <;> first | rfl | cases hr
  have hgood : stockDiscipline.Good db := hdb
  have hinv := hkept.inv (World.initial_tidy db) (Discipline.inv_initial hgood) htrace
  have hwhole : World.Trace (fun _ => Whole) (anyOrder · · · ·) (World.initial db) s.world :=
    trace_of_runs handler_whole hrun
  have htidy := World.initial_tidy (S := shop) (R := Request) db
  have hnonneg : ∀ x, 0 ≤ shelf x s.world.db := fun x => shelf_nonneg x (hinv.good x.key)
  have hunits : ∀ x, shelf x s.world.db = shelf x db - unitsTaken x (committed s.world.log) +
      unitsGiven x (committed s.world.log) := fun x => by
    have htotal := hkept.total hgood htrace x
    rw [total_shelf, total_shelf, flows_shelf] at htotal
    omega
  refine ⟨hnonneg, hunits, fun x => ?_, fun i e he tx => ?_⟩
  · have := hnonneg x
    have := hunits x
    omega
  · exact hwhole.threw_nothing htidy rfl (fun _ _ _ h => h) he tx

def mugStore : Database :=
  (Store.empty.set (.tenant 0) (some { Tenant.plain with tracksInventory := true })).set
    (.product 0) (some (Product.plain 1000 5))

def twoMugs : CreateOrder :=
  .basket [⟨0, none, 2, by decide +kernel, by decide⟩] (by simp) (by decide) none

theorem mugStore_stocked : ∀ k, Stocked k (mugStore.row k) := by
  refine Store.forall_set (Store.forall_set (fun k => ?_) trivial) ?_
  · cases k <;> first | trivial | exact nofun
  · rintro p ⟨⟩
    decide

/-- Two mugs are sold. -/
theorem never_oversold_mugs : ∃ s : StoreSystem, shelf (.product 0) s.world.db = 3 ∧
    unitsTaken (.product 0) (committed s.world.log) ≤
      shelf (.product 0) mugStore + unitsGiven (.product 0) (committed s.world.log) := by
  obtain ⟨s, hs, hshelf⟩ := System.exists_run_of_play handler Request.trades anyOrder
    (System.initial mugStore) (arrive 0 (.create 0 twoMugs) 11)
    (fun s : StoreSystem => shelf (.product 0) s.world.db) (by decide +kernel : _ = some (3 : ℤ))
  exact ⟨s, hshelf, (never_oversold mugStore_stocked hs).2.2.1 _⟩

end WhatStore
