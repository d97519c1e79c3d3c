import WhatStore.Checkout.Totals
import WhatStore.ReadCommitted.Commits
import Mathlib.Algebra.BigOperators.Group.Finset.Basic

/-!
# Conservation of stock

In a store that tracks inventory the units of a stock row are on its shelf or held by
orders that are not cancelled. Placing an order, correcting it, moving it through its
statuses and sweeping abandoned orders carry units from one to the other, and neither
make nor lose any. `Moved` says what each of them does to one order and to the shelves.
-/

namespace WhatStore

open ReadCommitted ReadCommitted.Prog

variable {A : (c : Call) → c.Answer → Prop} {σ : Session shop} {db db' db'' : Database}
  {x : StockRow} {t id : Id}

/-! ## What orders hold -/

/-- A cancelled order holds nothing. -/
def Order.isHolding (o : Order) : Bool := o.status != .cancelled

/-- The units of a stock row that an order holds. -/
def heldBy (x : StockRow) (db : Database) (id : Id) : ℤ :=
  if (db.row (.order id)).any Order.isHolding then unitsIn x (rowsOf db id) else 0

def held (x : StockRow) (db : Database) : ℤ :=
  ((ordersWhere db Order.isHolding).map fun o => unitsIn x (rowsOf db o.1)).sum

def holders (db : Database) : List Id := (ordersWhere db Order.isHolding).map Prod.fst

theorem holders_nodup (db : Database) : (holders db).Nodup := by
  refine db.nodup_scan Key.order fun k b hb => ?_
  cases k with
  | order id =>
      obtain ⟨o, -, rfl⟩ := Option.map_eq_some_iff.1 hb
      rfl
  | _ => cases hb

theorem mem_holders : id ∈ holders db ↔ (db.row (.order id)).any Order.isHolding = true := by
  rw [holders, List.mem_map, Option.any_eq_true]
  constructor
  · rintro ⟨⟨id, o⟩, ho, rfl⟩
    obtain ⟨hrow, hholds⟩ := mem_ordersWhere.1 ho
    exact ⟨o, hrow, hholds⟩
  · rintro ⟨o, hrow, hholds⟩
    exact ⟨(id, o), mem_ordersWhere.2 ⟨hrow, hholds⟩, rfl⟩

theorem heldBy_of_notMem (x : StockRow) (h : id ∉ holders db) : heldBy x db id = 0 :=
  if_neg fun hholds => h (mem_holders.2 hholds)

/-- The units held, added up over any orders among which are the holders. -/
theorem held_eq_sum (x : StockRow) {ids : Finset Id} (hids : ∀ id ∈ holders db, id ∈ ids) :
    held x db = ∑ id ∈ ids, heldBy x db id := by
  have hlist : held x db = ((holders db).map (heldBy x db)).sum := by
    rw [held, holders, List.map_map]
    refine congrArg List.sum (List.map_congr_left fun o ho => ?_)
    exact (if_pos (mem_holders.1 (List.mem_map_of_mem ho))).symm
  rw [hlist, ← List.sum_toFinset _ (holders_nodup db)]
  refine Finset.sum_subset (fun id hid => hids id (List.mem_toFinset.1 hid)) fun id _ hnot => ?_
  exact heldBy_of_notMem x fun hmem => hnot (List.mem_toFinset.2 hmem)

theorem held_step (x : StockRow) (id : Id)
    (hothers : ∀ id', id' ≠ id → heldBy x db' id' = heldBy x db id') :
    held x db' - heldBy x db' id = held x db - heldBy x db id := by
  let ids : Finset Id := insert id ((holders db).toFinset ∪ (holders db').toFinset)
  have hid : id ∈ ids := Finset.mem_insert_self _ _
  have hold : ∀ id ∈ holders db, id ∈ ids := fun id hmem => by simp [ids, hmem]
  have hnew : ∀ id ∈ holders db', id ∈ ids := fun id hmem => by simp [ids, hmem]
  rw [held_eq_sum x hold, held_eq_sum x hnew, ← Finset.add_sum_erase ids _ hid,
    ← Finset.add_sum_erase ids _ hid, add_sub_cancel_left, add_sub_cancel_left]
  exact Finset.sum_congr rfl fun id' hmem => hothers id' (Finset.ne_of_mem_erase hmem)

/-! ## Stores and their stock -/

def StockRow.storeIn (db : Database) : StockRow → Option Id
  | .product id => (db.row (.product id)).map Product.tenantId
  | .variant id => (db.row (.variant id)).bind fun v =>
      (db.row (.product v.productId)).map Product.tenantId

def OrderItem.TakesFrom (t : Id) (db : Database) (i : OrderItem) : Prop :=
  ∀ x, i.stockRow = some x → x.storeIn db = some t

/-- The store tracks inventory, which a digital store cannot. -/
def TracksStock (db : Database) (t : Id) : Prop :=
  ∃ tenant, db.row (.tenant t) = some tenant ∧ tenant.tracksInventory = true ∧
    tenant.catalogType ≠ .digital

structure Stocktaking (db : Database) : Prop where
  keys : ForeignKeys db
  owned : ∀ id o, db.row (.order id) = some o → ∀ i ∈ rowsOf db id, i.TakesFrom o.tenantId db

/-- A store stays as it is, a product and an order stay in their store, and a variant
stays with its product. -/
def staysPut : (k : Key) → Option (Row k) → Option (Row k) → Prop
  | .tenant _, v, v' => v' = v
  | .product _, v, v' => v'.map Product.tenantId = v.map Product.tenantId
  | .variant _, v, v' => v'.map ProductVariant.productId = v.map ProductVariant.productId
  | .order _, v, v' => ∀ o, v = some o → ∃ o', v' = some o' ∧ o'.tenantId = o.tenantId
  | _, _, _ => True

theorem staysPut_refl (k : Key) (v : Option (Row k)) : staysPut k v v := by
  cases k <;> first | exact rfl | exact trivial | exact fun o ho => ⟨o, ho, rfl⟩

theorem staysPut_trans {k : Key} {v v' v'' : Option (Row k)} (h : staysPut k v v')
    (h' : staysPut k v' v'') : staysPut k v v'' := by
  cases k with
  | order id =>
      intro o ho
      obtain ⟨o', ho', htenant⟩ := h o ho
      obtain ⟨o'', ho'', htenant'⟩ := h' o' ho'
      exact ⟨o'', ho'', htenant'.trans htenant⟩
  | tenant id | product id | variant id => exact Eq.trans h' h
  | _ => exact trivial

def Stays (db db' : Database) : Prop := ∀ k, staysPut k (db.row k) (db'.row k)

theorem Stays.refl (db : Database) : Stays db db := fun k => staysPut_refl k _

theorem Stays.trans (h : Stays db db') (h' : Stays db' db'') : Stays db db'' :=
  fun k => staysPut_trans (h k) (h' k)

theorem Stays.tenant (h : Stays db db') (id : Id) : db'.row (.tenant id) = db.row (.tenant id) :=
  h (.tenant id)

theorem Stays.product (h : Stays db db') (id : Id) : (db'.row (.product id)).map Product.tenantId =
    (db.row (.product id)).map Product.tenantId := h (.product id)

theorem Stays.variant (h : Stays db db') (id : Id) :
    (db'.row (.variant id)).map ProductVariant.productId =
      (db.row (.variant id)).map ProductVariant.productId := h (.variant id)

theorem Stays.order (h : Stays db db') {id : Id} {o : Order} (ho : db.row (.order id) = some o) :
    ∃ o', db'.row (.order id) = some o' ∧ o'.tenantId = o.tenantId := h (.order id) o ho

theorem Stays.storeIn (h : Stays db db') (x : StockRow) : x.storeIn db' = x.storeIn db := by
  cases x with
  | product id => exact h.product id
  | variant id =>
      have hbind : ∀ db : Database, StockRow.storeIn db (.variant id) =
          ((db.row (.variant id)).map ProductVariant.productId).bind fun p =>
            (db.row (.product p)).map Product.tenantId := fun db => by
        rw [Option.bind_map]
        rfl
      rw [hbind, hbind, h.variant]
      exact congrArg _ (funext h.product)

theorem Stays.takesFrom (h : Stays db db') {i : OrderItem} (hi : i.TakesFrom t db) :
    i.TakesFrom t db' := fun x hx => (h.storeIn x).trans (hi x hx)

theorem Stays.tracksStock (h : Stays db db') : TracksStock db' t ↔ TracksStock db t := by
  simp only [TracksStock, h.tenant]

theorem Stays.refersWithin (h : Stays db db') {i : OrderItem} (hi : i.refersWithin db = true) :
    i.refersWithin db' = true := by
  obtain ⟨horder, hproduct, hvariant⟩ := refersWithin_iff.1 hi
  refine refersWithin_iff.2 ⟨?_, fun p hp => ?_, fun v hv => ?_⟩
  · obtain ⟨o, ho⟩ := Option.isSome_iff_exists.1 horder
    obtain ⟨o', ho', -⟩ := h.order ho
    exact Option.isSome_iff_exists.2 ⟨o', ho'⟩
  · rw [← Option.isSome_map (f := Product.tenantId), h.product, Option.isSome_map]
    exact hproduct p hp
  · rw [← Option.isSome_map (f := ProductVariant.productId), h.variant, Option.isSome_map]
    exact hvariant v hv

theorem unitsIn_of_takesFrom {rows : List OrderItem} (h : ∀ i ∈ rows, i.TakesFrom t db)
    (hx : x.storeIn db ≠ some t) : unitsIn x rows = 0 := by
  refine List.sum_eq_zero fun n hn => ?_
  obtain ⟨i, hi, rfl⟩ := List.mem_map.1 hn
  exact if_neg fun hrow => hx (h i hi x hrow)

/-! ## One order moves -/

/-- What a request does to one order of the store `t`, and to the shelves: they give
what the order takes when the store tracks inventory. -/
structure Moved (t id : Id) (db db' : Database) : Prop where
  others : ∀ id', id' ≠ id → db'.row (.order id') = db.row (.order id') ∧
    List.Perm (itemsOf db' id') (itemsOf db id')
  before : ∀ o, db.row (.order id) = some o → o.tenantId = t
  after : ∀ o, db'.row (.order id) = some o → o.tenantId = t
  rows : ∀ i ∈ rowsOf db' id, i.TakesFrom t db
  shelf : ∃ moves : Bool, (TracksStock db t → moves = true) ∧
    ∀ x, shelf x db' = shelf x db + if moves then heldBy x db id - heldBy x db' id else 0

/-- The units of each stock row of a store that tracks inventory are as many as before. -/
def Conserves (db db' : Database) : Prop :=
  ∀ x t, x.storeIn db = some t → TracksStock db t →
    shelf x db' + held x db' = shelf x db + held x db

theorem heldBy_congr (x : StockRow) (horder : db'.row (.order id) = db.row (.order id))
    (hitems : List.Perm (itemsOf db' id) (itemsOf db id)) : heldBy x db' id = heldBy x db id := by
  have hrows : unitsIn x (rowsOf db' id) = unitsIn x (rowsOf db id) :=
    unitsIn_perm x (hitems.map Prod.snd)
  rw [heldBy, heldBy, horder, hrows]

theorem Moved.conserves (h : Moved t id db db') (hdb : Stocktaking db) : Conserves db db' := by
  intro x u hx hu
  obtain ⟨moves, hmoves, hshelf⟩ := h.shelf
  have hheld := held_step x id fun id' hne => heldBy_congr x (h.others id' hne).1 (h.others id' hne).2
  rw [hshelf]
  by_cases htu : u = t
  · subst htu
    rw [if_pos (hmoves hu)]
    omega
  · -- another store's order holds nothing of the row
    have hne : x.storeIn db ≠ some t := by
      rw [hx]
      simpa using htu
    have hbefore : heldBy x db id = 0 := by
      unfold heldBy
      split
      · next hholds =>
          obtain ⟨o, ho, -⟩ := (Option.any_eq_true _ _).1 hholds
          have howned := hdb.owned id o ho
          rw [h.before o ho] at howned
          exact unitsIn_of_takesFrom howned hne
      · rfl
    have hafter : heldBy x db' id = 0 := by
      unfold heldBy
      split
      · exact unitsIn_of_takesFrom h.rows hne
      · rfl
    rw [hbefore, hafter] at hheld ⊢
    rw [sub_zero, ite_self]
    omega

theorem Moved.stocktaking (h : Moved t id db db') (hdb : Stocktaking db) (hstays : Stays db db')
    (hlines : ∀ i ∈ rowsOf db' id, i.refersWithin db' = true) : Stocktaking db' where
  keys := by
    refine foreignKeys_iff.2 fun iid i hi => ?_
    have hmem : (iid, i) ∈ itemsOf db' i.orderId := mem_itemsOf.2 ⟨hi, rfl⟩
    by_cases hid : i.orderId = id
    · rw [hid] at hmem
      exact hlines i (List.mem_map_of_mem hmem)
    · have hold := (h.others _ hid).2.mem_iff.1 hmem
      exact hstays.refersWithin (foreignKeys_iff.1 hdb.keys iid i (mem_itemsOf.1 hold).1)
  owned id' o ho i hi := by
    by_cases hid : id' = id
    · subst hid
      rw [h.after o ho]
      exact hstays.takesFrom (h.rows i hi)
    · obtain ⟨horder, hitems⟩ := h.others id' hid
      rw [horder] at ho
      exact hstays.takesFrom (hdb.owned id' o ho i ((hitems.map Prod.snd).mem_iff.1 hi))

/-! ## What trading leaves alone -/

/-- The updates of the settings and the catalog of a store. -/
def Update.rearranges : Update → Bool
  | .editTenant _ _ => true
  | .editProduct _ _ => true
  | .deleteVariant _ => true
  | .insertVariant _ _ => true
  | .deleteProduct _ => true
  | .clearVariant _ _ => true
  | .clearProduct _ _ => true
  | _ => false

def Update.expires : Update → Prop
  | .sweepCancel _ => True
  | .give _ _ => True
  | .releaseCoupon _ => True
  | _ => False

theorem staysPut_change {u : Update} (hu : u.rearranges = false) {v : Option (Row u.key)}
    (hguard : u.guard v = true ∨ u.expires) : staysPut u.key v (u.change v) := by
  have horder : ∀ {v : Option Order} (f : Order → Order), (∀ o, (f o).tenantId = o.tenantId) →
      ∀ o, v = some o → ∃ o', v.map f = some o' ∧ o'.tenantId = o.tenantId := by
    rintro v f hf o rfl
    exact ⟨f o, rfl, hf o⟩
  cases u with
  | insertOrder id o =>
      rintro o' rfl
      rcases hguard with hguard | hexpires
      · cases hguard
      · exact hexpires.elim
  | take row n =>
      cases row with
      | product id => exact Option.map_map ..
      | variant id => exact Option.map_map ..
  | give row n =>
      cases row with
      | product id => exact Option.map_map ..
      | variant id => exact Option.map_map ..
  | settle id g payment =>
      exact horder _ fun o => by cases g <;> cases payment <;> rfl
  | markLost id lost => exact horder _ fun o => by cases lost <;> rfl
  | bindCheckout id g reference => exact horder _ fun o => by cases g <;> rfl
  | confirmMessage | claimStatus | restatus | editOrder | failPayPal | sweepCancel | confirmManual
  | rejectManual | submitProof | hideOrder => exact horder _ fun o => rfl
  | editTenant | editProduct | deleteVariant | insertVariant | deleteProduct | clearVariant
  | clearProduct => cases hu
  | _ => exact trivial

theorem stays_step {u : Update} {v : Database} (hu : u.rearranges = false)
    (hguard : shop.guard u (v.row (shop.key u)) = true ∨ u.expires) :
    Stays v (applyUpdate (S := shop) u v) := by
  intro k
  by_cases hk : k = u.key
  · subst hk
    have hself := applyUpdate_row_self (S := shop) u v
    exact hself ▸ staysPut_change hu hguard
  · have hne := applyUpdate_row_of_ne (S := shop) u v hk
    rw [hne]
    exact staysPut_refl k _

theorem Justified.not_rearranges {r : Request} {h : List Ev} {u : Update} (hr : r.trades = true)
    (hu : Justified r h u) : u.rearranges = false := by
  have hdrops : ∀ {r : Request}, r.trades = true → ¬ r.dropsVariants := by
    rintro r hr (⟨t, id, dto, rfl⟩ | ⟨t, id, rfl⟩) <;> cases hr
  cases u with
  | editTenant id e =>
      obtain ⟨dto, rfl⟩ := hu
      cases hr
  | editProduct id e =>
      obtain ⟨t, dto, rfl, -⟩ := hu
      cases hr
  | deleteVariant id => exact absurd hu (hdrops hr)
  | clearVariant id v => exact absurd hu (hdrops hr)
  | insertVariant id v =>
      obtain ⟨⟨t, id, dto, rfl⟩, -⟩ := hu
      cases hr
  | deleteProduct id =>
      obtain ⟨t, rfl⟩ := hu
      cases hr
  | clearProduct id p =>
      obtain ⟨t, rfl⟩ := hu
      cases hr
  | _ => rfl

theorem stays_serve {answer : Answers shop} {r : Request} (hr : r.trades = true) (db : Database) :
    Stays db (serve (S := shop) answer (handler r) db) := by
  have hkinds : (handler r).Along (S := shop)
      (fun _ e => ∀ u, e = .update u true → u.rearranges = false) [] fun _ _ => True := by
    refine ((@handler_among (fun r => r.trades = true) r hr).weaken fun h e he u hu => ?_).mono
      fun _ _ _ => trivial
    subst hu
    exact Justified.not_rearranges hr he.2
  have hstart : Upholds (S := shop) (Stays db) (.start db) := ⟨.refl db, .refl db⟩
  exact (Along.keeps (A := anyAnswer) hkinds hstart fun u v hu hguard hv =>
    hv.trans (stays_step (hu u rfl) (.inl hguard))).serve hstart.db fun _ _ => trivial

/-! ## Placing an order -/

theorem shelf_congr (h : db'.row x.key = db.row x.key) : shelf x db' = shelf x db := by
  rw [shelf, shelf, h]

theorem StockRow.key_ne_order (x : StockRow) (id : Id) : x.key ≠ .order id := by
  cases x <;> simp [StockRow.key]

theorem StockRow.key_ne_item (x : StockRow) (id : Id) : x.key ≠ .item id := by
  cases x <;> simp [StockRow.key]

theorem StockRow.key_ne_coupon (x : StockRow) (id : Id) : x.key ≠ .coupon id := by
  cases x <;> simp [StockRow.key]

/-- The rows of new lines hold what the lines ask for. -/
theorem unitsIn_newItems (x : StockRow) (t id : Id) (lines : List OrderLine) :
    unitsIn x (lines.map fun l => newItem t id l.toPricedLine l.priced) =
      demand x (lines.map OrderLine.toPricedLine) := by
  rw [unitsIn, demand, List.map_map, List.map_map]
  refine congrArg List.sum (List.map_congr_left fun l _ => ?_)
  have hquantity : (newItem t id l.toPricedLine l.priced).quantity = l.quantity := l.priced_quantity
  simp only [Function.comp_apply, OrderItem.unitsOf, newItem_stockRow, hquantity, Option.some.injEq]

/-- What `create` takes from the shelves is what the new order holds. -/
def Takes (t : Id) (db db' : Database) : Prop :=
  ∃ id, db.row (.order id) = none ∧ (db'.row (.order id)).any Order.isHolding = true ∧
    ∃ moves : Bool, (TracksStock db t → moves = true) ∧
      ∀ x, shelf x db' = shelf x db - if moves then unitsIn x (rowsOf db' id) else 0

/-- Before the order is written: the shelves have given what the lines ask for. -/
structure Reserved (t : Id) (db db' : Database) (lines : List OrderLine) (moves : Bool) :
    Prop where
  order : ∀ id, db'.row (.order id) = db.row (.order id)
  items : ∀ id, List.Perm (itemsOf db' id) (itemsOf db id)
  tracks : TracksStock db t → moves = true
  shelf : ∀ x, shelf x db' = shelf x db -
    if moves then demand x (lines.map OrderLine.toPricedLine) else 0

theorem Reserved.redeem {lines : List OrderLine} {moves : Bool} (h : Reserved t db db' lines moves)
    (c : Id) (limit : Option Int) :
    Reserved t db (applyUpdate (S := shop) (.redeem c limit) db') lines moves := by
  have hrow : ∀ k, k ≠ .coupon c →
      (applyUpdate (S := shop) (.redeem c limit) db').row k = db'.row k := fun k hk =>
    applyUpdate_row_of_ne (S := shop) (.redeem c limit) db' hk
  refine ⟨fun id => ?_, fun id => ?_, h.tracks, fun x => ?_⟩
  · rw [hrow _ (by simp), h.order]
  · rw [itemsOf_applyUpdate_of_ne (u := .redeem c limit) (by simp)]
    exact h.items id
  · rw [shelf_congr (hrow _ (x.key_ne_coupon c)), h.shelf]

theorem reserve_ensures {tenant : Tenant} (htenant : σ.view.row (.tenant t) = some tenant)
    (lines : List OrderLine) :
    (runIf (tenant.tracksInventory && !tenant.catalogType == .digital)
      (reserveStock (lines.map OrderLine.toPricedLine))).Ensures (S := shop) A σ fun _ σ' =>
        ∃ moves, Reserved t σ.view σ'.view lines moves := by
  have htracks : TracksStock σ.view t → (tenant.tracksInventory && !tenant.catalogType == .digital) = true := by
    rintro ⟨tenant', htenant', hinventory, hphysical⟩
    rw [htenant] at htenant'
    cases htenant'
    simpa [hinventory] using hphysical
  refine ensures_runIf.2 ⟨fun htrue => ?_, fun hfalse => ?_⟩
  · refine (reserveStock_ensures _).mono fun _ σ' h => ?_
    obtain ⟨honly, -, hshelf⟩ := h
    exact ⟨true, fun id => honly _ fun x => (x.key_ne_order id).symm, onlyStock_items honly,
      fun _ => rfl, hshelf⟩
  · refine ⟨false, fun _ => rfl, fun _ => List.Perm.refl _, fun h => ?_, fun x => (sub_zero _).symm⟩
    rw [← hfalse]
    exact htracks h

theorem write_ensures (tenant : Tenant) (dto : CreateOrder) {lines : List OrderLine}
    {moves : Bool} {id : Id} {o : Order} (hpending : o.isHolding = true)
    (h : Reserved t db σ.view lines moves) (hkeys : ForeignKeys db) {notify : Prog shop Unit}
    (hnotify : notify.Within (S := shop) noUpdate) :
    (do
      insertOne (.insertOrder id o)
      Prog.each (createItem t id) lines
      Prog.runIf dto.fulfillmentMethod.byMessage
        (dispatchMessageFulfillment t tenant id dto.fulfillmentMethod)
      notify : Prog shop Unit).Ensures A σ fun _ σ' => Takes t db σ'.view := by
  refine ensures_require fun hnone => ?_
  have hnew : db.row (.order id) = none := by
    rw [← h.order]
    exact Option.isNone_iff_eq_none.1 hnone
  refine Ensures.seq (createItems_ensures t id lines) fun _ σ₁ hlines => ?_
  obtain ⟨-, hrows, hitems, -⟩ := hlines
  have hrow : (σ₁.view.row (.order id)).any Order.isHolding = true := by
    have hself : σ₁.view.row (.order id) = some o := by
      rw [hrows (.order id) (by simp)]
      exact applyUpdate_row_self (S := shop) (.insertOrder id o) σ.view
    rw [hself]
    exact hpending
  have hunits : ∀ x, unitsIn x (rowsOf σ₁.view id) =
      demand x (lines.map OrderLine.toPricedLine) := fun x => by
    have hnil : rowsOf σ.view id = [] := by
      have hperm := h.items id
      rw [hkeys.no_lines hnew] at hperm
      rw [rowsOf, List.perm_nil.1 hperm]
      rfl
    rw [Session.apply_view, itemsOf_applyUpdate_of_ne (u := .insertOrder id o) (by simp)] at hitems
    change List.Perm (rowsOf σ₁.view id) (rowsOf σ.view id ++ _) at hitems
    rw [hnil, List.nil_append] at hitems
    rw [unitsIn_perm x hitems, unitsIn_newItems]
  have hshelf : ∀ x, shelf x σ₁.view = shelf x db -
      if moves then unitsIn x (rowsOf σ₁.view id) else 0 := fun x => by
    rw [hunits, ← h.shelf]
    refine shelf_congr ((hrows _ fun iid => x.key_ne_item iid).trans ?_)
    exact applyUpdate_row_of_ne (S := shop) (.insertOrder id o) σ.view (x.key_ne_order id)
  refine Ensures.seq (Q := fun _ σ' => Takes t db σ'.view) (ensures_runIf.2 ⟨fun _ => ?_, fun _ => ?_⟩)
    fun _ σ₂ htakes => (hnotify.ensures_same fun _ hu => hu).mono fun _ σ' hσ => hσ ▸ htakes
  · refine confirm_ensures.mono fun _ σ₂ hview => ?_
    have hother : ∀ k, k ≠ .order id → σ₂.view.row k = σ₁.view.row k := fun k hk => by
      rw [hview]
      exact applyUpdate_row_of_ne (S := shop) (.confirmMessage id) σ₁.view hk
    refine ⟨id, hnew, ?_, moves, h.tracks, fun x => ?_⟩
    · obtain ⟨o', ho', -⟩ := (Option.any_eq_true _ _).1 hrow
      have hself := applyUpdate_row_self (S := shop) (.confirmMessage id) σ₁.view
      rw [hview]
      refine (congrArg _ (hself.trans (congrArg (Option.map _) ho'))).trans ?_
      rfl
    · rw [shelf_congr (hother _ (x.key_ne_order id)), hshelf, hview, rowsOf, rowsOf,
        itemsOf_applyUpdate_of_ne (u := .confirmMessage id) (by simp)]
  · exact ⟨id, hnew, hrow, moves, h.tracks, hshelf⟩

theorem create_takes (hkeys : ForeignKeys db) (t : Id) (dto : CreateOrder) :
    (create t dto).Ensures (S := shop) anyAnswer (.start db) fun _ σ' => Takes t db σ'.view := by
  have hsame : ∀ {α β : Type} {p : Prog shop α} {f : α → Prog shop β} {σ : Session shop}
      {Q : β → Session shop → Prop}, p.Within (S := shop) noUpdate →
      (∀ a, (f a).Ensures anyAnswer σ Q) → (p >>= f).Ensures anyAnswer σ Q := fun hp hf =>
    (hp.ensures_same fun _ hu => hu).seq fun a σ' hσ => hσ ▸ hf a
  refine ensures_check fun _ => ensures_ask (ensures_demand fun tenant htenant => ?_)
  refine ensures_invoke fun methods _ => ensures_check fun _ => ?_
  refine hsame (within_runIf (within_bind (within_getDecryptedCredentials t .zelle)
    fun _ => within_throwIf)) fun _ => ?_
  refine hsame (within_runIf (within_assertDigitalOrder dto)) fun _ => ?_
  refine hsame (within_priceOrder t _ _ _ _) fun priced => ?_
  refine Ensures.seq (reserve_ensures htenant priced.pricedLines) fun _ σ₁ hreserved => ?_
  obtain ⟨moves, hreserved⟩ := hreserved
  have hrest : ∀ σ' : Session shop, Reserved t db σ'.view priced.pricedLines moves → (do
      let createdAt ← now
      let orderId ← uuid
      insertOne (.insertOrder orderId
        (newOrder t tenant dto (priced.coupon.map Prod.fst) priced.totals createdAt))
      Prog.each (createItem t orderId) priced.pricedLines
      Prog.runIf dto.fulfillmentMethod.byMessage
        (dispatchMessageFulfillment t tenant orderId dto.fulfillmentMethod)
      Prog.runIf (dto.customerEmail.isSome && !tenant.catalogType == .digital)
        (queueConfirmationEmail t orderId)
      .call (.emitOrderEvent orderId) .ret : Prog shop Unit).Ensures anyAnswer σ' fun _ σ'' =>
        Takes t db σ''.view := by
    intro σ' hσ'
    refine ensures_invoke fun createdAt _ => ensures_invoke fun id _ => ?_
    exact write_ensures tenant dto rfl hσ' hkeys
      (within_bind (within_runIf (within_enqueue _ _)) fun _ => within_call)
  split
  · exact hrest σ₁ hreserved
  · next c coupon _ =>
      exact ensures_require fun _ => hrest _ (hreserved.redeem c coupon.usageLimit)

theorem storeIn_of_mem {ids : List Id} {published : Bool} {l : PricedLine}
    {variants : List (Id × ProductVariant)}
    (h : (l.productId, l.product, variants) ∈ Query.eval (.products t ids published) db)
    (hvariant : ∀ v, l.variant = some v → v ∈ variants) : l.stockRow.storeIn db = some t := by
  have hproduct : ∀ p, p = l.productId → (db.row (.product p)).map Product.tenantId = some t := by
    rintro _ rfl
    simp only [Query.eval, List.mem_filterMap] at h
    obtain ⟨k, -, hk⟩ := h
    cases k with
    | product id =>
        obtain ⟨p, hp, heq⟩ := Option.map_eq_some_iff.1 hk
        obtain ⟨hrow, hmatch⟩ := Option.filter_eq_some_iff.1 hp
        simp only [Bool.and_eq_true, beq_iff_eq] at hmatch
        obtain ⟨rfl, -⟩ := Prod.mk.inj heq
        rw [hrow, Option.map_some, hmatch.1.2]
    | _ => cases hk
  obtain ⟨-, hvariants⟩ := mem_products h
  unfold PricedLine.stockRow
  cases hv : l.variant with
  | none => exact hproduct _ rfl
  | some v =>
      have hmem := hvariant v hv
      simp only at hvariants
      rw [hvariants] at hmem
      obtain ⟨hrow, hid⟩ := mem_variantsOf hmem
      simp only [StockRow.storeIn, hrow, Option.bind_some]
      exact hproduct _ hid

theorem takesFrom_newItem {l : PricedLine} (h : l.stockRow.storeIn db = some t) (id : Id)
    (priced : Priced) : (newItem t id l priced).TakesFrom t db := by
  intro x hx
  rw [newItem_stockRow] at hx
  rw [← Option.some.inj hx]
  exact h

theorem Placed.moved {time : Time} {dto : CreateOrder} {o : Order} {priced : PricedOrder}
    (h : Placed time t dto db db' id o priced) (htakes : Takes t db db') (hkeys : ForeignKeys db) :
    Moved t id db db' := by
  obtain ⟨id', hnone, hholds, moves, htracks, hshelf⟩ := htakes
  have hid : id' = id := by
    by_contra hne
    rw [h.others id' hne, hnone] at hholds
    cases hholds
  subst hid
  refine ⟨fun id' hne => ⟨h.others id' hne, h.otherLines id' hne⟩, fun o' ho' => ?_, fun o' ho' => ?_,
    fun i hi => ?_, moves, htracks, fun x => ?_⟩
  · rw [hnone] at ho'
    cases ho'
  · obtain ⟨tenant, createdAt, status, -, rfl⟩ := h.order
    rw [h.row] at ho'
    cases ho'
    rfl
  · have hlines := h.lines
    rw [hkeys.no_lines h.new] at hlines
    obtain ⟨l, hl, rfl⟩ := List.mem_map.1 (hlines.mem_iff.1 hi)
    obtain ⟨item, -, hitem⟩ := mem_of_mapM_ok (pricing_ok h.pricing).lines hl
    obtain ⟨⟨variants, hproduct, hvariant⟩, -⟩ := priceLine_ok hitem
    exact takesFrom_newItem (storeIn_of_mem hproduct hvariant) id' l.priced
  · have hbefore : heldBy x db id' = 0 := by
      rw [heldBy, hnone]
      exact if_neg (by simp)
    have hafter : heldBy x db' id' = unitsIn x (rowsOf db' id') := if_pos hholds
    rw [hshelf, hbefore, hafter]
    cases moves <;> simp [sub_eq_add_neg]

/-! ## Correcting an order -/

theorem updateDetails_open (t id : Id) (dto : UpdateOrder) :
    (updateDetails t id dto).Ensures (S := shop) anyAnswer (.start db) fun _ _ =>
      ∃ o, orderOf db t id = some o ∧ o.status.terminal = false := by
  refine ensures_ask (ensures_demand fun y hy => ?_)
  obtain ⟨o, ho, rfl⟩ := Option.map_eq_some_iff.1 hy
  refine ensures_check fun hopen => (ensures_true _).mono fun _ _ _ => ?_
  exact ⟨o, ho, hopen⟩

theorem isHolding_of_open {o : Order} (h : o.status.terminal = false) : o.isHolding = true := by
  unfold Order.isHolding
  cases hstatus : o.status <;> simp_all [OrderStatus.terminal]

theorem heldBy_of_isHolding {o : Order} (x : StockRow) (ho : db.row (.order id) = some o)
    (hholds : o.isHolding = true) : heldBy x db id = unitsIn x (rowsOf db id) := by
  rw [heldBy, ho]
  exact if_pos hholds

theorem Corrected.moved {dto : UpdateOrder} {o : Order} {r : Option Repriced}
    (h : Corrected t id dto db db' o r) (hopen : o.status.terminal = false)
    (hdb : Stocktaking db) : Moved t id db db' := by
  have hothers : ∀ id', id' ≠ id → db'.row (.order id') = db.row (.order id') ∧
      List.Perm (itemsOf db' id') (itemsOf db id') := fun id' hne => h.others hne
  have hfound := orderOf_eq_some h.found
  have htenant : o.tenantId = t := by
    have hmatch := (Option.filter_eq_some_iff.1 h.found).2
    simpa using hmatch
  obtain ⟨db₁, hlines, hdb'⟩ := h.written
  have hitems : itemsOf db' id = itemsOf db₁ id := by
    rw [hdb']
    exact itemsOf_applyUpdate_of_ne (u := .editOrder id (orderEdit o dto r)) (by simp) db₁ id
  have hkept : db₁.row (.order id) = some o := by
    cases r with
    | none =>
        obtain ⟨-, -, rfl⟩ := hlines
        exact hfound
    | some r =>
        obtain ⟨-, -, tenant, -, hc⟩ := hlines
        rw [hc.frame (.order id) (by simp) fun x => (x.key_ne_order id).symm, hfound]
  have hedit : db'.row (.order id) = some (o.edit (orderEdit o dto r)) := by
    rw [hdb']
    exact (applyUpdate_row_self (S := shop) (.editOrder id (orderEdit o dto r)) db₁).trans
      (congrArg (Option.map _) hkept)
  have hshelf : ∀ x, shelf x db' = shelf x db₁ := fun x => by
    rw [hdb']
    exact shelf_congr (applyUpdate_row_of_ne (S := shop) (.editOrder id (orderEdit o dto r)) db₁
      (x.key_ne_order id))
  have hholds := isHolding_of_open hopen
  have hbefore : ∀ x, heldBy x db id = unitsIn x (rowsOf db id) := fun x =>
    heldBy_of_isHolding x hfound hholds
  have hafter : ∀ x, heldBy x db' id = unitsIn x (rowsOf db₁ id) := fun x => by
    rw [heldBy_of_isHolding x hedit hholds, rowsOf, hitems]
    rfl
  have hold : ∀ i ∈ rowsOf db id, i.TakesFrom t db := fun i hi => htenant ▸ hdb.owned id o hfound i hi
  refine ⟨hothers, fun o' ho' => ?_, fun o' ho' => ?_, ?_, ?_⟩
  · rw [hfound] at ho'
    cases ho'
    exact htenant
  · rw [hedit] at ho'
    cases ho'
    exact htenant
  · rw [rowsOf, hitems]
    cases r with
    | none =>
        obtain ⟨-, -, rfl⟩ := hlines
        exact hold
    | some r =>
        obtain ⟨-, hr, tenant, -, hc⟩ := hlines
        intro i hi
        have hmem := hc.rows.mem_iff.1 (List.mem_append_left _ hi)
        rcases List.mem_append.1 hmem with hmem | hmem
        · exact hold i hmem
        obtain ⟨l, hl, rfl⟩ := List.mem_map.1 hmem
        obtain ⟨products, hproducts, hfrom⟩ := hr.lines
        obtain ⟨w, hw, hlw⟩ := exists_of_forall₂ hfrom hl
        cases hlw with
        | kept y hex =>
            have hy := hold y.2 (List.mem_map_of_mem (existingLine_mem hex).1)
            rcases row_kept t id y.1 y.2 (y.2.repriced w.2) with hrow | hrow
            · rw [hrow]
              exact hy
            · rw [hrow]
              exact hy
        | added line variants hnone hproduct hvariant hkey hpriced =>
            obtain ⟨ids, hids⟩ := hproducts _ hproduct
            exact takesFrom_newItem (storeIn_of_mem hids hvariant) id line.priced
  · cases r with
    | none =>
        obtain ⟨-, -, rfl⟩ := hlines
        refine ⟨true, fun _ => rfl, fun x => ?_⟩
        rw [hshelf, hbefore, hafter, sub_self, ite_self, add_zero]
    | some r =>
        obtain ⟨-, -, tenant, hrow, hc⟩ := hlines
        refine ⟨tenant.tracksInventory, fun htracks => ?_, fun x => ?_⟩
        · obtain ⟨tenant', htenant', hinventory, -⟩ := htracks
          rw [hrow] at htenant'
          cases htenant'
          exact hinventory
        · rw [hshelf, hbefore, hafter, hc.shelf]
          cases tenant.tracksInventory <;> simp [add_sub_assoc]

/-! ## Moving an order -/

/-- The order `o` has got the status, and stock and lines are as they were. -/
structure Restated (id : Id) (o : Order) (status : OrderStatus) (db db' : Database) : Prop where
  order : ∃ o', db'.row (.order id) = some o' ∧ o'.tenantId = o.tenantId ∧ o'.status = status
  others : ∀ id', id' ≠ id → db'.row (.order id') = db.row (.order id')
  items : ∀ id', List.Perm (itemsOf db' id') (itemsOf db id')
  tenant : ∀ t, db'.row (.tenant t) = db.row (.tenant t)
  stock : ∀ x : StockRow, db'.row x.key = db.row x.key

variable {o : Order} {status : OrderStatus}

theorem Restated.shelf (h : Restated id o status db db') (x : StockRow) :
    WhatStore.shelf x db' = WhatStore.shelf x db := shelf_congr (h.stock x)

theorem Restated.apply (h : Restated id o status db db') {u : Update}
    (horder : ∀ id, u.key ≠ .order id) (hitem : ∀ id, u.key ≠ .item id)
    (htenant : ∀ id, u.key ≠ .tenant id) (hstock : ∀ x : StockRow, u.key ≠ x.key) :
    Restated id o status db (applyUpdate (S := shop) u db') := by
  have hrow : ∀ k, u.key ≠ k → (applyUpdate (S := shop) u db').row k = db'.row k := fun k hk =>
    applyUpdate_row_of_ne (S := shop) u db' (Ne.symm hk)
  refine ⟨?_, fun id' hne => ?_, fun id' => ?_, fun t => ?_, fun x => ?_⟩
  · rw [hrow _ (horder id)]
    exact h.order
  · rw [hrow _ (horder id'), h.others id' hne]
  · rw [itemsOf_applyUpdate_of_ne hitem]
    exact h.items id'
  · rw [hrow _ (htenant t), h.tenant]
  · rw [hrow _ (hstock x), h.stock]

theorem restated_write {u : Update} (hkey : u.key = .order id) {o' : Order}
    (ho' : (applyUpdate (S := shop) u db).row (.order id) = some o')
    (htenant : o'.tenantId = o.tenantId) :
    Restated id o o'.status db (applyUpdate (S := shop) u db) := by
  have hrow : ∀ k, k ≠ .order id → (applyUpdate (S := shop) u db).row k = db.row k := fun k hk =>
    applyUpdate_row_of_ne (S := shop) u db fun heq => hk (heq.trans hkey)
  refine ⟨⟨o', ho', htenant, rfl⟩, fun id' hne => hrow _ (by simpa using hne), fun id' => ?_,
    fun t => hrow _ (by simp), fun x => hrow _ (x.key_ne_order id)⟩
  rw [itemsOf_applyUpdate_of_ne fun iid => by rw [hkey]; simp]

/-- A status change that does not cancel an order leaves the shelves alone. -/
theorem Restated.moved (h : Restated id o status db db') (hrow : db.row (.order id) = some o)
    (htenant : o.tenantId = t) (hdb : Stocktaking db)
    (hholds : (status = .cancelled ↔ o.status = .cancelled)) : Moved t id db db' := by
  obtain ⟨o', ho', htenant', hstatus⟩ := h.order
  have hsame : o'.isHolding = o.isHolding := by
    rw [Bool.eq_iff_iff]
    simp [Order.isHolding, hstatus, hholds]
  refine ⟨fun id' hne => ⟨h.others id' hne, h.items id'⟩, fun o'' ho'' => ?_, fun o'' ho'' => ?_,
    fun i hi => ?_, true, fun _ => rfl, fun x => ?_⟩
  · rw [hrow] at ho''
    cases ho''
    exact htenant
  · rw [ho'] at ho''
    cases ho''
    exact htenant'.trans htenant
  · exact htenant ▸ hdb.owned id o hrow i (((h.items id).map Prod.snd).mem_iff.1 hi)
  · have hrows : unitsIn x (rowsOf db' id) = unitsIn x (rowsOf db id) :=
      unitsIn_perm x ((h.items id).map Prod.snd)
    have hheld : heldBy x db' id = heldBy x db id := by
      rw [heldBy, heldBy, hrow, ho', Option.any_some, Option.any_some, hsame, hrows]
    rw [h.shelf, hheld, sub_self, ite_self, add_zero]

theorem Moved.releaseCoupon (h : Moved t id db db') (c : Id) :
    Moved t id db (applyUpdate (S := shop) (.releaseCoupon c) db') := by
  have hother : ∀ k, k ≠ .coupon c →
      (applyUpdate (S := shop) (.releaseCoupon c) db').row k = db'.row k := fun k hk =>
    applyUpdate_row_of_ne (S := shop) (.releaseCoupon c) db' hk
  have hitems : ∀ id', itemsOf (applyUpdate (S := shop) (.releaseCoupon c) db') id' =
      itemsOf db' id' := itemsOf_applyUpdate_of_ne (u := .releaseCoupon c) (by simp) db'
  refine ⟨fun id' hne => ?_, h.before, fun o ho => ?_, ?_, ?_⟩
  · rw [hother _ (by simp), hitems]
    exact h.others id' hne
  · rw [hother _ (by simp)] at ho
    exact h.after o ho
  · rw [rowsOf, hitems]
    exact h.rows
  · obtain ⟨moves, htracks, hshelf⟩ := h.shelf
    refine ⟨moves, htracks, fun x => ?_⟩
    rw [shelf_congr (hother _ (x.key_ne_coupon c)), hshelf,
      heldBy_congr x (hother _ (by simp)) (List.Perm.of_eq (hitems id))]

/-- Cancelling an order gives its units back to the shelves. -/
theorem release_ensures (h : Restated id o .cancelled db σ.view) (hrow : db.row (.order id) = some o)
    (hholds : o.isHolding = true) (htenant : o.tenantId = t) (hdb : Stocktaking db) (cond : Bool)
    (hcond : TracksStock db t → cond = true) {items : List (Id × OrderItem)}
    (hitems : List.Perm items (itemsOf db id)) (o' : Order) :
    ((runIf cond (releaseStock (items.map fun i => i.2.released))) >>= fun _ =>
      releaseCoupon o').Ensures (S := shop) A σ fun _ σ' => Moved t id db σ'.view ∧
        List.Perm (itemsOf σ'.view id) (itemsOf db id) := by
  have hbefore : ∀ x, heldBy x db id = unitsIn x (rowsOf db id) := fun x =>
    heldBy_of_isHolding x hrow hholds
  -- what is left to say once the units are back
  have hmoved : ∀ v : Database, OnlyStock σ.view v → (∀ x, WhatStore.shelf x v =
      WhatStore.shelf x db + if cond then unitsIn x (rowsOf db id) else 0) → Moved t id db v ∧
        List.Perm (itemsOf v id) (itemsOf db id) := by
    intro v honly hshelf
    have horder : ∀ id', v.row (.order id') = σ.view.row (.order id') := fun id' =>
      honly _ fun x => (x.key_ne_order id').symm
    obtain ⟨o'', ho'', htenant', hcancelled⟩ := h.order
    have hafter : ∀ x, heldBy x v id = 0 := fun x => by
      rw [heldBy, horder, ho'']
      exact if_neg (by simp [Order.isHolding, hcancelled])
    refine ⟨⟨fun id' hne => ⟨(horder id').trans (h.others id' hne),
      (onlyStock_items honly id').trans (h.items id')⟩, fun y hy => ?_, fun y hy => ?_, fun i hi => ?_,
      cond, hcond, fun x => ?_⟩, (onlyStock_items honly id).trans (h.items id)⟩
    · rw [hrow] at hy
      cases hy
      exact htenant
    · rw [horder, ho''] at hy
      cases hy
      exact htenant'.trans htenant
    · have hperm := ((onlyStock_items honly id).trans (h.items id)).map Prod.snd
      exact htenant ▸ hdb.owned id o hrow i (hperm.mem_iff.1 hi)
    · rw [hshelf, hbefore, hafter, sub_zero]
  refine Ensures.seq (Q := fun _ σ' => OnlyStock σ.view σ'.view ∧ ∀ x, WhatStore.shelf x σ'.view =
    WhatStore.shelf x db + if cond then unitsIn x (rowsOf db id) else 0)
    (ensures_runIf.2 ⟨fun htrue => ?_, fun hfalse => ?_⟩) fun _ σ₁ h₁ => ?_
  · have hthere : ∀ i ∈ items.map (fun i => i.2.released), ∀ x, i.stockRow = some x →
        (σ.view.row x.key).isSome = true := by
      intro i hi x hx
      obtain ⟨j, hj, rfl⟩ := List.mem_map.1 hi
      rw [h.stock]
      exact hdb.keys.stockRow (mem_itemsOf.1 (hitems.mem_iff.1 hj)).1 hx
    refine (releaseStock_ensures _ hthere).mono fun _ σ₁ hreleased => ⟨hreleased.1, fun x => ?_⟩
    have hback := releasedTo_released x (items.map Prod.snd)
    rw [List.map_map, unitsIn_perm x (hitems.map Prod.snd)] at hback
    rw [hreleased.2, htrue, if_pos rfl, h.shelf]
    exact congrArg _ hback
  · refine ⟨fun _ _ => rfl, fun x => ?_⟩
    rw [hfalse, h.shelf]
    exact (add_zero _).symm
  · unfold releaseCoupon
    split
    · next c _ =>
        obtain ⟨hkept, hitems⟩ := hmoved σ₁.view h₁.1 h₁.2
        refine ⟨fun _ => ⟨hkept.releaseCoupon c, ?_⟩, fun _ => ⟨hkept, hitems⟩⟩
        rw [Session.apply_view, itemsOf_applyUpdate_of_ne (u := .releaseCoupon c) (by simp)]
        exact hitems
    · exact hmoved σ₁.view h₁.1 h₁.2

theorem Restated.refl (ho : db.row (.order id) = some o) : Restated id o o.status db db :=
  ⟨⟨o, ho, rfl, rfl⟩, fun _ _ => rfl, fun _ => List.Perm.refl _, fun _ => rfl, fun _ => rfl⟩

theorem Update.isDigital_key {u : Update} (hu : u.isDigital) : (∀ id, u.key ≠ .order id) ∧
    (∀ id, u.key ≠ .item id) ∧ (∀ id, u.key ≠ .tenant id) ∧ ∀ x : StockRow, u.key ≠ x.key := by
  cases u with
  | insertDelivery | revokeDelivery | insertGrant | revokeGrant =>
      refine ⟨by simp, by simp, by simp, fun x => ?_⟩
      cases x <;> simp [StockRow.key]
  | _ => exact hu.elim

theorem Restated.digital (h : Restated id o status db db') {us : List Update}
    (hus : ∀ u ∈ us, u.isDigital) : Restated id o status db (replay (S := shop) us db') := by
  induction us with
  | nil => exact h
  | cons u us ih =>
      obtain ⟨horder, hitem, htenant, hstock⟩ := Update.isDigital_key (hus u List.mem_cons_self)
      exact (ih fun u' hu' => hus u' (List.mem_cons_of_mem _ hu')).apply horder hitem htenant hstock

theorem updateStatus_moved (hdb : Stocktaking db) (t id : Id) (status : OrderStatus)
    (canRefund : Bool) : (updateStatus t id status canRefund).Ensures (S := shop) A (.start db)
      fun _ σ' => Moved t id db σ'.view ∧ List.Perm (itemsOf σ'.view id) (itemsOf db id) := by
  have hsame : ∀ {α β : Type} {p : Prog shop α} {f : α → Prog shop β} {σ : Session shop}
      {Q : β → Session shop → Prop}, p.Within (S := shop) noUpdate →
      (∀ a, (f a).Ensures A σ Q) → (p >>= f).Ensures A σ Q := fun hp hf =>
    (hp.ensures_same fun _ hu => hu).seq fun a σ' hσ => hσ ▸ hf a
  refine ensures_ask (ensures_demand fun y hy => ?_)
  obtain ⟨o, ho, rfl⟩ := Option.map_eq_some_iff.1 hy
  have hrow := orderOf_eq_some ho
  have htenant : o.tenantId = t := by
    have hmatch := (Option.filter_eq_some_iff.1 ho).2
    simpa using hmatch
  refine ensures_check fun hterm => ensures_check fun _ => ?_
  -- the transition is claimed, or the status is the one the order has
  refine Ensures.seq (Q := fun _ σ₁ => (status ≠ o.status ∧ Restated id o status db σ₁.view) ∨
    (status = o.status ∧ σ₁.view = db)) (ensures_runIf.2 ⟨fun hne => ?_, fun heq => ?_⟩)
    fun _ σ₁ h₁ => ?_
  · refine ensures_seq.2 ⟨fun _ => ensures_throwIf.2 fun _ => .inl ⟨by simpa using hne, ?_⟩,
      fun _ => ensures_throwIf.2 (by simp)⟩
    exact restated_write (u := .claimStatus id o.status status (o.paymentData status)) rfl
      ((applyUpdate_row_self (S := shop) _ db).trans (congrArg (Option.map _) hrow)) rfl
  · exact .inr ⟨by simpa using heq, rfl⟩
  refine Ensures.seq (Q := fun _ σ₂ => Restated id o status db σ₂.view)
    (ensures_runIf.2 ⟨fun hsame => ?_, fun _ => ?_⟩) fun _ σ₂ h₂ => ?_
  · have heq : status = o.status := by simpa using (Bool.and_eq_true_iff.1 hsame).1
    have hview := (h₁.resolve_left fun h => h.1 heq).2
    refine ensures_seq.2 ⟨fun _ => ensures_throwIf.2 fun _ => ?_, fun _ => ensures_throwIf.2 (by simp)⟩
    rw [Session.apply_view, hview]
    exact restated_write (u := .restatus id status (o.paymentData status)) rfl
      ((applyUpdate_row_self (S := shop) _ db).trans (congrArg (Option.map _) hrow)) rfl
  · rcases h₁ with ⟨-, h₁⟩ | ⟨rfl, hview⟩
    · exact h₁
    · rw [hview]
      exact Restated.refl hrow
  refine Ensures.seq (Q := fun _ σ₃ => Restated id o status db σ₃.view)
    (ensures_runIf.2 ⟨fun _ => ?_, fun _ => h₂⟩) fun _ σ₃ h₃ => ?_
  · refine (within_revokeForOrder id _).ensures.mono ?_
    rintro _ σ₃ ⟨us, hus, -, hview⟩
    rw [hview]
    exact h₂.digital hus
  refine Ensures.seq (Q := fun _ σ₄ => Moved t id db σ₄.view ∧
    List.Perm (itemsOf σ₄.view id) (itemsOf db id))
    (ensures_runIf.2 ⟨fun hcancel => ?_, fun hkeep => ?_⟩) fun _ σ₄ h₄ => ?_
  · simp only [Bool.and_eq_true, beq_iff_eq, bne_iff_ne] at hcancel
    obtain ⟨rfl, hne⟩ := hcancel
    refine ensures_ask (ensures_demand fun tenant hfound => ?_)
    have hfound' : db.row (.tenant t) = some tenant := (h₃.tenant t).symm.trans hfound
    refine release_ensures h₃ hrow (by simpa [Order.isHolding] using hne) htenant hdb _
      (fun htracks => ?_) (List.Perm.refl _) o
    obtain ⟨tenant', htenant', hinventory, -⟩ := htracks
    rw [hfound'] at htenant'
    cases htenant'
    exact hinventory
  · refine ⟨h₃.moved hrow htenant hdb ⟨?_, fun hcancelled => ?_⟩, h₃.items id⟩
    · rintro rfl
      simpa using hkeep
    · by_contra hne
      simp [hcancelled, OrderStatus.terminal, hne] at hterm
  refine hsame (within_runIf (within_refundOrderPayment t o)) fun _ => ?_
  refine ensures_ask (ensures_demand fun _ _ => ensures_invoke fun _ _ => ?_)
  exact h₄

/-! ## The sweep -/

theorem stays_expires {us : List Update} (hus : ∀ u ∈ us, u.expires) (db : Database) :
    Stays db (replay (S := shop) us db) := by
  induction us with
  | nil => exact .refl db
  | cons u us ih =>
      have hu := hus u List.mem_cons_self
      refine (ih fun u' hu' => hus u' (List.mem_cons_of_mem _ hu')).trans (stays_step ?_ (.inr hu))
      cases u with
      | sweepCancel | give | releaseCoupon => rfl
      | _ => exact hu.elim

/-- The stores and the catalog stay, orders hold stock of their own store, and no
stock is made or lost. -/
structure Conserved (db db' : Database) : Prop where
  stays : Stays db db'
  stocktaking : Stocktaking db'
  conserves : Conserves db db'

theorem Conserved.refl (hdb : Stocktaking db) : Conserved db db :=
  ⟨.refl db, hdb, fun _ _ _ _ => rfl⟩

theorem Conserved.trans (h : Conserved db db') (h' : Conserved db' db'') : Conserved db db'' where
  stays := h.stays.trans h'.stays
  stocktaking := h'.stocktaking
  conserves x t hx ht := (h'.conserves x t ((h.stays.storeIn x).trans hx)
    (h.stays.tracksStock.2 ht)).trans (h.conserves x t hx ht)

theorem Moved.conserved (h : Moved t id db db') (hdb : Stocktaking db) (hstays : Stays db db')
    (hlines : ∀ i ∈ rowsOf db' id, i.refersWithin db' = true) : Conserved db db' :=
  ⟨hstays, h.stocktaking hdb hstays hlines, h.conserves hdb⟩

theorem Moved.conserved_of_lines (h : Moved t id db db') (hdb : Stocktaking db)
    (hstays : Stays db db') (hitems : List.Perm (itemsOf db' id) (itemsOf db id)) :
    Conserved db db' := by
  refine h.conserved hdb hstays fun i hi => ?_
  obtain ⟨y, hy, rfl⟩ := List.mem_map.1 hi
  obtain ⟨hrow, -⟩ := mem_itemsOf.1 (hitems.mem_iff.1 hy)
  exact hstays.refersWithin (foreignKeys_iff.1 hdb.keys y.1 y.2 hrow)

/-- An abandoned order is cancelled, before the transaction commits. -/
def expire (tenantId id : Id) : Prog shop Unit := do
  let claimed ← updateMany (.sweepCancel id)
  Prog.runIf claimed do
    let found ← findOrderWithItems tenantId id
    let (order, items) ← Prog.orThrow found .recordNotFound
    let tenant ← getTenant tenantId
    Prog.runIf (tenant.tracksInventory && tenant.catalogType != .digital)
      (releaseStock (items.map fun i => i.2.released))
    releaseCoupon order

theorem expireOrder_eq (t id : Id) : expireOrder t id = (expire t id >>= fun _ => commit) := by
  simp only [expireOrder, expire, bind_eq, bind_assoc]

theorem within_expire (t id : Id) : (expire t id).Within (S := shop) Update.expires := by
  refine within_bind (within_updateMany trivial) fun claimed => within_runIf ?_
  refine within_bind within_query fun _ => within_bind within_orThrow fun y => ?_
  refine within_bind (within_getTenant t) fun tenant => within_bind (within_runIf ?_) fun _ => ?_
  · exact (within_releaseStock _).mono fun u hu => by cases u <;> first | exact hu | exact trivial
  · unfold releaseCoupon
    split
    · exact within_bind (within_updateMany trivial) fun _ => within_ret
    · exact within_ret

theorem expire_moved (hσ : σ.view = db) (hdb : Stocktaking db) (t id : Id) :
    (expire t id).Ensures (S := shop) A σ fun _ σ' => σ'.view = db ∨
      (Moved t id db σ'.view ∧ List.Perm (itemsOf σ'.view id) (itemsOf db id)) := by
  refine ensures_seq.2 ⟨fun hguard => ?_, fun _ => ensures_runIf.2 ⟨by simp, fun _ => .inl hσ⟩⟩
  rw [hσ] at hguard
  obtain ⟨o, hrow, hstale⟩ := (Option.any_eq_true _ _).1 hguard
  simp only [Bool.and_eq_true, beq_iff_eq] at hstale
  have hrestated : Restated id o .cancelled db (σ.apply (.sweepCancel id)).view := by
    rw [Session.apply_view, hσ]
    exact restated_write (u := .sweepCancel id) rfl
      ((applyUpdate_row_self (S := shop) _ db).trans (congrArg (Option.map _) hrow)) rfl
  refine ensures_runIf.2 ⟨fun _ => ?_, by simp⟩
  refine ensures_ask (ensures_demand fun y hy => ?_)
  obtain ⟨o', ho', rfl⟩ := Option.map_eq_some_iff.1 hy
  refine ensures_ask (ensures_demand fun tenant hfound => ?_)
  have htenant : o.tenantId = t := by
    obtain ⟨o'', ho'', htenant, -⟩ := hrestated.order
    have hmatch := (Option.filter_eq_some_iff.1 ho').2
    rw [orderOf_eq_some ho'] at ho''
    cases ho''
    rw [← htenant]
    simpa using hmatch
  have hfound' : db.row (.tenant t) = some tenant := (hrestated.tenant t).symm.trans hfound
  refine (release_ensures hrestated hrow (by simp [Order.isHolding, hstale.1]) htenant hdb _
    (fun htracks => ?_) (hrestated.items id) o').mono fun _ _ h => .inr h
  obtain ⟨tenant', htenant', hinventory, hphysical⟩ := htracks
  rw [hfound'] at htenant'
  cases htenant'
  simpa [hinventory] using hphysical

def AtRest (db : Database) (σ : Session shop) : Prop := σ.view = σ.db ∧ Conserved db σ.db

theorem expireOrder_commits (hσ : AtRest db σ) (t id : Id) :
    (expireOrder t id).Commits (S := shop) A (Conserved db) σ fun _ σ' => AtRest db σ' := by
  rw [expireOrder_eq]
  have hexpired := (expire_moved (A := A) hσ.1 hσ.2.stocktaking t id).and
    (within_expire t id).ensures
  refine Commits.seq ((within_expire t id).commits hexpired) fun _ σ' h => ?_
  obtain ⟨⟨hmoved, us, hus, -, hview⟩, -⟩ := h
  have hconserved : Conserved db σ'.view := by
    refine hσ.2.trans ?_
    rcases hmoved with hsame | ⟨hmoved, hitems⟩
    · rw [hsame]
      exact .refl hσ.2.stocktaking
    · refine hmoved.conserved_of_lines hσ.2.stocktaking ?_ hitems
      rw [hview, hσ.1]
      exact stays_expires hus σ.db
  exact ⟨hconserved, rfl, hconserved⟩

theorem conserved_sweep {answer : Answers shop} (hdb : Stocktaking db) :
    Conserved db (serve (S := shop) answer sweep db) := by
  have hstart : Conserved db db := .refl hdb
  have hcommits : sweep.Commits (S := shop) anyAnswer (Conserved db) (.start db) fun _ σ' =>
      Conserved db σ'.view := by
    intro time _
    refine ⟨hstart, ?_⟩
    refine (commits_each (J := AtRest db) ⟨rfl, hstart⟩ fun y _ σ hσ => ?_).mono
      fun _ σ' hσ' => hσ'.1 ▸ hσ'.2
    exact Commits.seq ((expireOrder_commits hσ y.2 y.1).attempt (Q := fun _ σ' => AtRest db σ')
      hσ.2 fun v hv => ⟨rfl, hv⟩) fun _ _ hσ' => hσ'
  exact hcommits.serve hstart fun _ _ => trivial

/-! ## The requests -/

theorem conserved_create {answer : Answers shop} (hdb : Stocktaking db) (t : Id)
    (dto : CreateOrder) : Conserved db (serve (S := shop) answer (create t dto) db) := by
  have hstays : Stays db (serve (S := shop) answer (create t dto) db) :=
    stays_serve (r := .create t dto) rfl db
  revert hstays
  unfold serve
  cases hvalue : ((create t dto).exec (S := shop) answer 0 (.start db)).value with
  | error e =>
      rw [(within_create t dto).view_of_error hvalue]
      exact fun _ => .refl hdb
  | ok y =>
      obtain ⟨⟨⟨time, id, o, priced, -, hplaced⟩, htakes⟩, us, hus, -, hview⟩ :=
        (((create_ensures (A := anyAnswer) ⟨0, trivial⟩ t dto db).and
          (create_takes hdb.keys t dto)).and (within_create t dto).ensures).of_exec
            (fun _ _ => trivial) hvalue
      revert hplaced htakes hview
      generalize ((create t dto).exec (S := shop) answer 0 (.start db)).session.view = db'
      intro htakes hplaced hview hstays
      have hterms : ∀ k, sameTerms k (db.row k) (db'.row k) := fun k => by
        rw [hview]
        exact sameTerms_replay (fun u hu => .inl (hus u hu)) db k
      have hkeys := foreignKeys_iff.1 (hplaced.foreignKeys hdb.keys hterms)
      refine (hplaced.moved htakes hdb.keys).conserved hdb hstays fun i hi => ?_
      obtain ⟨z, hz, rfl⟩ := List.mem_map.1 hi
      exact hkeys z.1 z.2 (mem_itemsOf.1 hz).1

theorem conserved_updateDetails {answer : Answers shop} (hdb : Stocktaking db) (t id : Id)
    (dto : UpdateOrder) :
    Conserved db (serve (S := shop) answer (thenHooks (updateDetails t id dto)) db) := by
  have hstays : Stays db (serve (S := shop) answer (thenHooks (updateDetails t id dto)) db) :=
    stays_serve (r := .updateDetails t id dto) rfl db
  revert hstays
  rw [serve_thenHooks]
  cases hvalue : ((updateDetails t id dto).exec (S := shop) answer 0 (.start db)).value with
  | error e =>
      rw [(within_updateDetails t id dto).view_of_error hvalue]
      exact fun _ => .refl hdb
  | ok jobs =>
      obtain ⟨⟨⟨o, r, hcorrected⟩, o', ho', hopen⟩, us, hus, -, hview⟩ :=
        (((updateDetails_ensures (A := anyAnswer) hdb.keys t id dto).and
          (updateDetails_open t id dto)).and (within_updateDetails t id dto).ensures).of_exec
            (fun _ _ => trivial) hvalue
      revert hcorrected hview
      generalize ((updateDetails t id dto).exec (S := shop) answer 0 (.start db)).session.view = db'
      intro hcorrected hview hstays
      have hterms : ∀ k, sameTerms k (db.row k) (db'.row k) := fun k => by
        rw [hview]
        exact sameTerms_replay (fun u hu => .inr (hus u hu)) db k
      have hkeys := foreignKeys_iff.1 (hcorrected.foreignKeys hdb.keys hterms)
      rw [hcorrected.found] at ho'
      cases ho'
      refine (hcorrected.moved hopen hdb).conserved hdb hstays fun i hi => ?_
      obtain ⟨z, hz, rfl⟩ := List.mem_map.1 hi
      exact hkeys z.1 z.2 (mem_itemsOf.1 hz).1

theorem conserved_updateStatus {answer : Answers shop} (hdb : Stocktaking db) (t id : Id)
    (status : OrderStatus) (canRefund : Bool) :
    Conserved db (serve (S := shop) answer (updateStatus t id status canRefund) db) := by
  have hstays : Stays db (serve (S := shop) answer (updateStatus t id status canRefund) db) :=
    stays_serve (r := .updateStatus t id status canRefund) rfl db
  revert hstays
  unfold serve
  cases hvalue : ((updateStatus t id status canRefund).exec (S := shop) answer 0 (.start db)).value with
  | error e =>
      rw [(within_updateStatus t id status canRefund).view_of_error hvalue]
      exact fun _ => .refl hdb
  | ok y =>
      obtain ⟨hmoved, hitems⟩ := (updateStatus_moved (A := anyAnswer) hdb t id status
        canRefund).of_exec (fun _ _ => trivial) hvalue
      exact fun hstays => hmoved.conserved_of_lines hdb hstays hitems

/-- **No stock is made or lost**: in every sequence of orders placed, corrected, moved
and swept, a stock row of a store that tracks inventory has as many units on the shelf
and in orders that are not cancelled as in the beginning. -/
theorem stock_conserved (hdb : Stocktaking db)
    (hrun : Serial (S := shop) handler (fun _ r => r.trades = true) db db') {x : StockRow} {t : Id}
    (hx : x.storeIn db = some t) (ht : TracksStock db t) :
    shelf x db' + held x db' = shelf x db + held x db := by
  have hstart : Conserved db db := .refl hdb
  refine (hrun.induct (I := Conserved db) hstart fun v answer r hv hr => ?_).conserves x t hx ht
  refine hv.trans ?_
  cases r with
  | create t dto => exact conserved_create hv.stocktaking t dto
  | updateDetails t id dto => exact conserved_updateDetails hv.stocktaking t id dto
  | updateStatus t id status canRefund =>
      exact conserved_updateStatus hv.stocktaking t id status canRefund
  | sweep => exact conserved_sweep hv.stocktaking
  | _ => cases hr

theorem mugStore_stocktaking : Stocktaking mugStore where
  keys := mugStore_trading.keys
  owned id o ho := by
    have hnone : mugStore.row (.order id) = none := rfl
    rw [hnone] at ho
    cases ho

/-- Two mugs are ordered and become three, of five. -/
theorem stock_conserved_mugs : ∃ db', shelf (.product 0) db' = 2 ∧
    shelf (.product 0) db' + held (.product 0) db' =
      shelf (.product 0) mugStore + held (.product 0) mugStore := by
  have hrun : Serial (S := shop) handler (fun _ r => r.trades = true) mugStore
      (serve (S := shop) (counting 9) (handler (.updateDetails 0 2 threeMugs)) soldMugs) :=
    (Relation.ReflTransGen.single ⟨counting 0, .create 0 twoMugs, rfl, rfl⟩).tail
      ⟨counting 9, .updateDetails 0 2 threeMugs, rfl, rfl⟩
  refine ⟨_, ?_, stock_conserved mugStore_stocktaking hrun rfl ⟨_, rfl, rfl, by decide⟩⟩
  decide +kernel

end WhatStore
