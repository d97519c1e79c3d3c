import WhatStore.Checkout.Reprice
import WhatStore.Checkout.Availability

/-!
# Writing a correction

What `applyItemChanges` and `updateDetails` leave in the store: each repriced
line has taken the place of the row it was matched to, the removed rows are
gone, the other rows of the order stand as they were, and the stock has moved
by the difference of the order's units.
-/

namespace WhatStore

open ReadCommitted ReadCommitted.Prog

variable {A : (c : Call) → c.Answer → Prop} {σ : Session shop} {db : Database}

/-! ## Rows of an order -/

def rowsOf (db : Database) (id : Id) : List OrderItem := (itemsOf db id).map Prod.snd

theorem itemsOf_perm {db db' : Database} (h : ∀ iid, db'.row (.item iid) = db.row (.item iid))
    (id : Id) : List.Perm (itemsOf db' id) (itemsOf db id) := by
  refine (List.perm_ext_iff_of_nodup (itemsOf_nodup db' id) (itemsOf_nodup db id)).2 fun x => ?_
  rw [mem_itemsOf, mem_itemsOf, h]

theorem itemsOf_set (db : Database) (iid : Id) (v : Option OrderItem) (id : Id) :
    List.Perm ((lineOf id (.item iid) (db.row (.item iid))).toList ++
        itemsOf (db.set (.item iid) v) id)
      ((lineOf id (.item iid) v).toList ++ itemsOf db id) := by
  rw [itemsOf_eq_gather, itemsOf_eq_gather]
  exact Store.gather_set (lineOf id) (lineOf_none id) db (.item iid) v

theorem lineOf_item (iid id : Id) (i : OrderItem) :
    lineOf id (.item iid) (some i) = if i.orderId = id then some (iid, i) else none := by
  by_cases h : i.orderId = id <;> simp [lineOf, Option.filter, h]

def OrderItem.unitsOf (x : StockRow) (i : OrderItem) : ℤ :=
  if i.stockRow = some x then i.quantity else 0

def unitsIn (x : StockRow) (rows : List OrderItem) : ℤ := (rows.map (OrderItem.unitsOf x)).sum

theorem unitsIn_append (x : StockRow) (rows rows' : List OrderItem) :
    unitsIn x (rows ++ rows') = unitsIn x rows + unitsIn x rows' := by
  simp [unitsIn]

theorem unitsIn_perm (x : StockRow) {rows rows' : List OrderItem} (h : List.Perm rows rows') :
    unitsIn x rows = unitsIn x rows' := (h.map _).sum_eq

def releasedTo (x : StockRow) (items : List ReleasedItem) : ℤ :=
  (items.map fun i => if i.stockRow = some x then i.quantity else 0).sum

theorem releasedTo_released (x : StockRow) (rows : List OrderItem) :
    releasedTo x (rows.map OrderItem.released) = unitsIn x rows := by
  simp only [releasedTo, unitsIn, List.map_map]
  rfl

/-- The units the moves of a line take from a stock row, less those they give
back. -/
def StockMoves.units (x : StockRow) (m : StockMoves) : ℤ :=
  demand x m.toReserve - releasedTo x m.toRelease

/-! ## Stock moves -/

theorem shelf_give {row : StockRow} {n : ℤ} (h : (db.row row.key).isSome = true) (x : StockRow) :
    shelf x (applyUpdate (S := shop) (.give row n) db) =
      shelf x db + if row = x then n else 0 := by
  by_cases hx : row = x
  · subst hx
    rw [if_pos rfl]
    cases row with
    | product id =>
        obtain ⟨p, hp⟩ := Option.isSome_iff_exists.1 h
        have hrow : db.row (.product id) = some p := hp
        have hself := applyUpdate_row_self (S := shop) (.give (.product id) n) db
        simp only [shelf, StockRow.key]
        refine (congrArg (units (.product id)) hself).trans ?_
        simp [units, Update.change, hrow]
        rfl
    | variant id =>
        obtain ⟨p, hp⟩ := Option.isSome_iff_exists.1 h
        have hrow : db.row (.variant id) = some p := hp
        have hself := applyUpdate_row_self (S := shop) (.give (.variant id) n) db
        simp only [shelf, StockRow.key]
        refine (congrArg (units (.variant id)) hself).trans ?_
        simp [units, Update.change, hrow]
        rfl
  · rw [if_neg hx, add_zero, shelf, shelf]
    have hne : x.key ≠ shop.key (.give row n) := fun heq => by
      cases row <;> exact hx (StockRow.key_injective heq).symm
    rw [applyUpdate_row_of_ne _ _ hne]

def OnlyStock (db db' : Database) : Prop :=
  ∀ key, (∀ x, key ≠ StockRow.key x) → db'.row key = db.row key

theorem onlyStock_of_key {u : Update} {x : StockRow} (h : u.key = x.key) (db : Database) :
    OnlyStock db (applyUpdate (S := shop) u db) := by
  intro k hk
  exact applyUpdate_row_of_ne (S := shop) u db fun heq => hk x (heq.trans h)

theorem reserveStock_ensures (lines : List PricedLine) :
    (reserveStock lines).Ensures (S := shop) A σ fun _ σ' => OnlyStock σ.view σ'.view ∧
      (∀ {k}, (σ.view.row k).isSome → (σ'.view.row k).isSome) ∧
      ∀ x, shelf x σ'.view = shelf x σ.view - demand x lines := by
  induction lines generalizing σ with
  | nil => exact ⟨fun _ _ => rfl, fun h => h, fun x => (sub_zero _).symm⟩
  | cons l lines ih =>
      rw [reserveStock_cons]
      refine ⟨fun hguard => ?_, fun _ => trivial⟩
      refine (ih (σ := σ.apply (.take l.stockRow l.quantity))).mono fun _ σ' h => ?_
      obtain ⟨honly, hsome, hshelf⟩ := h
      have hkey : Update.key (.take l.stockRow l.quantity) = l.stockRow.key := by
        cases l.stockRow <;> rfl
      refine ⟨fun k hk => (honly k hk).trans (onlyStock_of_key hkey _ k hk),
        fun {_} hk => hsome (isSome_take hk), fun x => ?_⟩
      rw [hshelf, Session.apply_view, shelf_take hguard, demand_cons]
      ring

theorem releaseStock_ensures (items : List ReleasedItem)
    (hrows : ∀ i ∈ items, ∀ x, i.stockRow = some x → (σ.view.row x.key).isSome = true) :
    (releaseStock items).Ensures (S := shop) A σ fun _ σ' => OnlyStock σ.view σ'.view ∧
      ∀ x, shelf x σ'.view = shelf x σ.view + releasedTo x items := by
  induction items generalizing σ with
  | nil => exact ⟨fun _ _ => rfl, fun x => (add_zero _).symm⟩
  | cons i items ih =>
      have hcons : ∀ x, releasedTo x (i :: items) =
          (if i.stockRow = some x then i.quantity else 0) + releasedTo x items := fun x => rfl
      cases hi : i.stockRow with
      | none =>
          have hstep : releaseStock (i :: items) = releaseStock items := by
            rw [releaseStock, each, hi]
            rfl
          rw [hstep]
          refine (ih fun j hj => hrows j (List.mem_cons_of_mem _ hj)).mono fun _ σ' h => ?_
          refine ⟨h.1, fun x => ?_⟩
          rw [h.2 x, hcons, hi]
          simp
      | some row =>
          have hstep : releaseStock (i :: items) = .update (.give row i.quantity) fun _ =>
              releaseStock items := by
            rw [releaseStock, each, hi]
            rfl
          have hrow := hrows i List.mem_cons_self row hi
          have hkey : Update.key (.give row i.quantity) = row.key := by cases row <;> rfl
          rw [hstep]
          refine ⟨fun _ => ?_, fun hmiss => ?_⟩
          · have hkeep : ∀ j ∈ items, ∀ x, j.stockRow = some x →
                ((σ.apply (.give row i.quantity)).view.row x.key).isSome = true :=
              fun j hj x hx => isSome_give (hrows j (List.mem_cons_of_mem _ hj) x hx)
            refine (ih hkeep).mono fun _ σ' h => ?_
            obtain ⟨honly, hshelf⟩ := h
            refine ⟨fun k hk => (honly k hk).trans (onlyStock_of_key hkey _ k hk), fun x => ?_⟩
            rw [hshelf, Session.apply_view, shelf_give hrow, hcons, hi]
            simp only [Option.some.injEq]
            ring
          · cases row <;> exact absurd (hrow.symm.trans hmiss) (by simp)

/-! ## Line changes -/

def RepricedLine.Idle : RepricedLine → Prop
  | .kept _ item priced => priced.quantity = item.quantity
  | .added _ => False

/-- What writing the changes of some lines does: the new rows take the place of
the old ones, and the stock moves cover the difference of their units. -/
structure LinesApplied (tenantId orderId : Id) (lines : List RepricedLine) (db db' : Database)
    (moves : List StockMoves) : Prop where
  frame : ∀ k, (∀ iid, k ≠ .item iid) → db'.row k = db.row k
  kept : ∀ iid i, db.row (.item iid) = some i →
    iid ∉ (lines.filterMap RepricedLine.old).map Prod.fst → db'.row (.item iid) = some i
  rows : List.Perm (rowsOf db' orderId ++ (lines.filterMap RepricedLine.old).map Prod.snd)
    (rowsOf db orderId ++ lines.map (RepricedLine.row tenantId orderId))
  others : ∀ id, id ≠ orderId → List.Perm (itemsOf db' id) (itemsOf db id)
  units : ∀ x, (moves.map (StockMoves.units x)).sum +
    unitsIn x ((lines.filterMap RepricedLine.old).map Prod.snd) =
      unitsIn x (lines.map (RepricedLine.row tenantId orderId))
  released : ∀ m ∈ moves, ∀ i ∈ m.toRelease, ∀ x, i.stockRow = some x →
    (db.row x.key).isSome = true
  idle : (∀ l ∈ lines, l.Idle) → ∀ iid, db'.row (.item iid) = db.row (.item iid)

theorem LinesApplied.nil (t id : Id) (db : Database) : LinesApplied t id [] db db [] :=
  ⟨fun _ _ => rfl, fun _ _ h _ => h, List.Perm.refl _, fun _ _ => List.Perm.refl _, fun _ => rfl,
    nofun, fun _ _ => rfl⟩

theorem LinesApplied.append {t id : Id} {lines lines' : List RepricedLine}
    {db db' db'' : Database} {moves moves' : List StockMoves}
    (h : LinesApplied t id lines db db' moves) (h' : LinesApplied t id lines' db' db'' moves') :
    LinesApplied t id (lines ++ lines') db db'' (moves ++ moves') where
  frame k hk := (h'.frame k hk).trans (h.frame k hk)
  kept iid i hi hnot := by
    simp only [List.filterMap_append, List.map_append, List.mem_append, not_or] at hnot
    exact h'.kept iid i (h.kept iid i hi hnot.1) hnot.2
  rows := by
    simp only [List.filterMap_append, List.map_append]
    classical
    refine List.perm_iff_count.2 fun i => ?_
    have hfirst := h.rows.count_eq i
    have hsecond := h'.rows.count_eq i
    simp only [List.count_append] at hfirst hsecond ⊢
    omega
  others id' hid := (h'.others id' hid).trans (h.others id' hid)
  units x := by
    simp only [List.filterMap_append, List.map_append, unitsIn_append, List.sum_append]
    have := h.units x
    have := h'.units x
    omega
  released m hm i hi x hx := by
    rcases List.mem_append.1 hm with hm | hm
    · exact h.released m hm i hi x hx
    · rw [← h.frame x.key (by cases x <;> exact nofun)]
      exact h'.released m hm i hi x hx
  idle hidle iid := by
    obtain ⟨hfirst, hsecond⟩ := List.forall_mem_append.1 hidle
    exact (h'.idle hsecond iid).trans (h.idle hfirst iid)

/-- The row a line was matched to is there, with the stock row it takes from. -/
def LineReady (orderId : Id) (db : Database) (l : RepricedLine) : Prop :=
  ∀ x, l.old = some x → db.row (.item x.1) = some x.2 ∧ x.2.orderId = orderId ∧
    ∀ y, x.2.stockRow = some y → (db.row y.key).isSome = true

theorem stockLine_ensures {productId variantId : Option Id} {n : ℤ}
    (hrow : ∀ x, stockRowOf productId variantId = some x → (σ.view.row x.key).isSome = true) :
    (stockLine productId variantId n).Ensures (S := shop) A σ fun l σ' => σ' = σ ∧
      ∀ x, demand x l.toList = if stockRowOf productId variantId = some x then n else 0 := by
  cases variantId with
  | some v =>
      obtain ⟨variant, hvariant⟩ := Option.isSome_iff_exists.1 (hrow (.variant v) rfl)
      have hread : shop.eval (.stockVariant v) σ.view =
          some (variant, σ.view.row (.product variant.productId)) :=
        congrArg (Option.map _) hvariant
      refine ensures_ask ?_
      rw [hread]
      refine ensures_demand fun product _ => ⟨rfl, fun x => ?_⟩
      by_cases hx : StockRow.variant v = x <;> simp [demand, PricedLine.stockRow, stockRowOf, hx]
  | none =>
      cases productId with
      | none => exact ⟨rfl, fun x => by simp [demand, stockRowOf]⟩
      | some p =>
          obtain ⟨product, hproduct⟩ : ∃ product : Product, σ.view.row (.product p) = some product :=
            Option.isSome_iff_exists.1 (hrow (.product p) rfl)
          have hread : shop.eval (.stockProduct p) σ.view = some product := hproduct
          refine ensures_ask ?_
          rw [hread]
          refine ⟨rfl, fun x => ?_⟩
          by_cases hx : StockRow.product p = x <;> simp [demand, PricedLine.stockRow, stockRowOf, hx]

theorem linesApplied_set {t id : Id} {l : RepricedLine} {iid : Id} {m : StockMoves}
    (hold : l.old = (db.row (.item iid)).map (Prod.mk iid))
    (hid : ∀ x, l.old = some x → x.2.orderId = id) (hnew : (l.row t id).orderId = id)
    (hunits : ∀ x, m.units x + unitsIn x (l.old.toList.map Prod.snd) = (l.row t id).unitsOf x)
    (hreleased : ∀ i ∈ m.toRelease, ∀ x, i.stockRow = some x → (db.row x.key).isSome = true)
    (hbusy : ¬ l.Idle) :
    LinesApplied t id [l] db (db.set (.item iid) (some (l.row t id))) [m] := by
  have hset := itemsOf_set db iid (some (l.row t id))
  have hlines : [l].filterMap RepricedLine.old = l.old.toList := by
    cases h : l.old <;> simp [h]
  have hline : ∀ id', lineOf id' (.item iid) (db.row (.item iid)) =
      if id' = id then l.old else none := fun id' => by
    rw [hold]
    cases hrow : db.row (.item iid) with
    | none => exact (lineOf_none id' (.item iid)).trans (by simp)
    | some i =>
        have horder : i.orderId = id := hid (iid, i) (by rw [hold, hrow]; rfl)
        rw [lineOf_item, horder]
        simp [eq_comm]
  refine ⟨fun k hk => Store.set_row_of_ne _ _ (hk iid), fun iid' i hi hnot => ?_, ?_,
    fun id' hne => ?_, fun x => ?_, by simpa using hreleased,
    fun hidle => absurd (hidle l List.mem_cons_self) hbusy⟩
  · refine (Store.set_row_of_ne _ _ fun heq => hnot ?_).trans hi
    cases heq
    rw [hlines, hold, hi]
    simp
  · have h := (hset id).map Prod.snd
    rw [hline, if_pos rfl, lineOf_item, if_pos hnew, List.map_append, List.map_append] at h
    rw [hlines]
    refine List.perm_append_comm.trans (h.trans ?_)
    exact List.perm_append_comm
  · have h := hset id'
    rw [hline, if_neg hne, lineOf_item, hnew, if_neg (Ne.symm hne)] at h
    exact h
  · rw [hlines]
    simpa [unitsIn] using hunits x

theorem applyLine_ensures (t id : Id) {l : RepricedLine} (hl : LineReady id σ.view l) :
    (applyLine t id l).Ensures (S := shop) A σ fun m σ' =>
      LinesApplied t id [l] σ.view σ'.view [m] := by
  cases l with
  | kept iid item priced =>
      obtain ⟨hrow, hid, hstock⟩ := hl (iid, item) rfl
      unfold applyLine
      simp only
      split
      · next hsame =>
          have hquantity : priced.quantity = item.quantity := by omega
          refine ⟨fun _ _ => rfl, fun _ _ h _ => h, ?_, fun _ _ => List.Perm.refl _, fun x => ?_,
            by simp, fun _ _ => rfl⟩
          · simp [RepricedLine.row, RepricedLine.old, hquantity]
          · simp [RepricedLine.row, RepricedLine.old, hquantity, StockMoves.units, demand,
              releasedTo]
      · next hmoved =>
          have hquantity : priced.quantity ≠ item.quantity := by omega
          have hnew : RepricedLine.row t id (.kept iid item priced) = item.write priced.itemData :=
            if_neg hquantity
          have hview : (σ.apply (.updateItem iid item priced.itemData)).view =
              σ.view.set (.item iid) (some (RepricedLine.row t id (.kept iid item priced))) := by
            rw [hnew]
            have hchange : shop.change (.updateItem iid item priced.itemData)
                (σ.view.row (.item iid)) = some (item.write priced.itemData) := by
              rw [hrow]
              rfl
            exact congrArg (σ.view.set (.item iid)) hchange
          have happlied : ∀ m : StockMoves, (∀ x, m.units x =
              if item.stockRow = some x then priced.quantity - item.quantity else 0) →
              (∀ i ∈ m.toRelease, i.stockRow = item.stockRow) →
              LinesApplied t id [.kept iid item priced] σ.view
                (σ.apply (.updateItem iid item priced.itemData)).view [m] := by
            intro m hm hrelease
            rw [hview]
            refine linesApplied_set (by rw [hrow]; rfl) (by rintro x ⟨⟩; exact hid)
              (by rw [hnew]; exact hid) (fun x => ?_)
              (fun i hi x hx => hstock x ((hrelease i hi).symm.trans hx)) hquantity
            rw [hm, hnew]
            simp only [RepricedLine.old, unitsIn, OrderItem.unitsOf, OrderItem.write_stockRow]
            by_cases hx : item.stockRow = some x <;>
              simp [OrderItem.unitsOf, hx, Priced.itemData]
          refine ensures_require fun _ => ?_
          split
          · -- more units than before: the stock line is read back
            have hstock' : ∀ x, stockRowOf item.productId item.variantId = some x →
                ((σ.apply (.updateItem iid item priced.itemData)).view.row x.key).isSome = true := by
              intro x hx
              rw [hview, Store.set_row_of_ne _ _ (by cases x <;> simp [StockRow.key])]
              exact hstock x hx
            refine Ensures.seq (stockLine_ensures hstock') fun line σ' hline => ?_
            obtain ⟨rfl, hline⟩ := hline
            refine happlied _ (fun x => ?_) (by simp)
            rw [StockMoves.units, hline x]
            exact sub_zero _
          · refine happlied _ (fun x => ?_) fun i hi => by rw [List.mem_singleton.1 hi]; rfl
            by_cases hx : item.stockRow = some x
            · have hx' : stockRowOf item.productId item.variantId = some x := hx
              simp [StockMoves.units, demand, releasedTo, ReleasedItem.stockRow, hx, hx']
            · have hx' : stockRowOf item.productId item.variantId ≠ some x := hx
              simp [StockMoves.units, demand, releasedTo, ReleasedItem.stockRow, hx, hx']
  | added line =>
      refine ensures_invoke fun iid _ => ensures_require fun hnone => ?_
      have hnone' : σ.view.row (.item iid) = none := Option.isNone_iff_eq_none.1 hnone
      refine linesApplied_set (l := .added line) (by rw [hnone']; rfl) (by simp [RepricedLine.old]) rfl (fun x => ?_) (by simp)
        fun h => h.elim
      have hrow : (newItem t id line.toPricedLine line.priced).stockRow = some line.stockRow := by
        cases hv : line.variant <;> simp [newItem, OrderItem.stockRow, stockRowOf, PricedLine.stockRow, hv]
      have hquantity : (newItem t id line.toPricedLine line.priced).quantity = line.quantity :=
        line.priced_quantity
      simp only [RepricedLine.row, RepricedLine.old, OrderItem.unitsOf, hrow, hquantity,
        Option.some.injEq]
      simp [StockMoves.units, demand, releasedTo, unitsIn]

theorem applyLines_ensures (t id : Id) {lines : List RepricedLine}
    (hready : ∀ l ∈ lines, LineReady id σ.view l)
    (hnd : ((lines.filterMap RepricedLine.old).map Prod.fst).Nodup) :
    (collect (applyLine t id) lines).Ensures (S := shop) A σ fun moves σ' =>
      LinesApplied t id lines σ.view σ'.view moves := by
  induction lines generalizing σ with
  | nil => exact LinesApplied.nil t id σ.view
  | cons l lines ih =>
      have hsplit : (l :: lines).filterMap RepricedLine.old =
          [l].filterMap RepricedLine.old ++ lines.filterMap RepricedLine.old :=
        List.filterMap_append (l := [l])
      rw [hsplit, List.map_append, List.nodup_append] at hnd
      refine Ensures.seq (applyLine_ensures t id (hready l List.mem_cons_self)) fun m σ₁ hl => ?_
      have hready₁ : ∀ l' ∈ lines, LineReady id σ₁.view l' := by
        intro l' hl' x hx
        obtain ⟨hrow, hid, hstock⟩ := hready l' (List.mem_cons_of_mem _ hl') x hx
        have hmem : x.1 ∈ (lines.filterMap RepricedLine.old).map Prod.fst :=
          List.mem_map_of_mem (List.mem_filterMap.2 ⟨l', hl', hx⟩)
        refine ⟨hl.kept x.1 x.2 hrow fun hmem' => hnd.2.2 _ hmem' _ hmem rfl, hid, fun y hy => ?_⟩
        rw [hl.frame y.key (by cases y <;> exact nofun)]
        exact hstock y hy
      refine Ensures.seq (ih hready₁ hnd.2.1) fun moves σ₂ hlines => ?_
      exact hl.append hlines

theorem removeLines_ensures {id : Id} {removed : List (Id × OrderItem)}
    (hrows : ∀ i ∈ removed, σ.view.row (.item i.1) = some i.2 ∧ i.2.orderId = id)
    (hnd : (removed.map Prod.fst).Nodup) :
    (each (fun i => updateOne (.deleteItem i.1 i.2)) removed).Ensures (S := shop) A σ fun _ σ' =>
      (∀ k, (∀ iid, k ≠ .item iid) → σ'.view.row k = σ.view.row k) ∧
      List.Perm (rowsOf σ'.view id ++ removed.map Prod.snd) (rowsOf σ.view id) ∧
      (∀ id', id' ≠ id → List.Perm (itemsOf σ'.view id') (itemsOf σ.view id')) ∧
      (removed = [] → ∀ k, σ'.view.row k = σ.view.row k) := by
  induction removed generalizing σ with
  | nil => exact ⟨fun _ _ => rfl, by simp, fun _ _ => List.Perm.refl _, fun _ _ => rfl⟩
  | cons i removed ih =>
      obtain ⟨hrow, hid⟩ := hrows i List.mem_cons_self
      rw [List.map_cons, List.nodup_cons] at hnd
      have hset := itemsOf_set σ.view i.1 none
      rw [hrow] at hset
      refine ensures_require fun _ => ?_
      refine (ih (fun j hj => ?_) hnd.2).mono fun _ σ' h => ?_
      · obtain ⟨hj', hjd⟩ := hrows j (List.mem_cons_of_mem _ hj)
        have hne : Key.item j.1 ≠ .item i.1 := fun heq =>
          hnd.1 (Key.item.inj heq ▸ List.mem_map_of_mem hj)
        exact ⟨(Store.set_row_of_ne _ _ hne).trans hj', hjd⟩
      · obtain ⟨hframe, hlines, hothers, -⟩ := h
        refine ⟨fun k hk => (hframe k hk).trans (Store.set_row_of_ne _ _ (hk i.1)), ?_,
          fun id' hne => (hothers id' hne).trans ?_, nofun⟩
        · have hdel := (hset id).map Prod.snd
          rw [lineOf_item, if_pos hid, lineOf_none] at hdel
          rw [List.map_cons]
          refine List.perm_middle.trans ((hlines.cons i.2).trans ?_)
          exact hdel
        · have hdel := hset id'
          rw [lineOf_item, hid, if_neg (Ne.symm hne), lineOf_none] at hdel
          exact hdel

/-! ## The items of an order after a correction -/

theorem demand_append (x : StockRow) (lines lines' : List PricedLine) :
    demand x (lines ++ lines') = demand x lines + demand x lines' := by
  simp [demand]

theorem releasedTo_append (x : StockRow) (items items' : List ReleasedItem) :
    releasedTo x (items ++ items') = releasedTo x items + releasedTo x items' := by
  simp [releasedTo]

theorem units_flatMap (x : StockRow) (moves : List StockMoves) :
    demand x (moves.flatMap StockMoves.toReserve) -
      releasedTo x (moves.flatMap StockMoves.toRelease) = (moves.map (StockMoves.units x)).sum := by
  induction moves with
  | nil => rfl
  | cons m moves ih =>
      rw [List.flatMap_cons, List.flatMap_cons, demand_append, releasedTo_append, List.map_cons,
        List.sum_cons, ← ih, StockMoves.units]
      ring

/-- What `applyItemChanges` does to the store. -/
structure ItemsChanged (tenantId orderId : Id) (r : Repriced) (tracks : Bool)
    (db db' : Database) : Prop where
  frame : ∀ k, (∀ iid, k ≠ .item iid) → (∀ x : StockRow, k ≠ x.key) → db'.row k = db.row k
  rows : List.Perm
    (rowsOf db' orderId ++ (r.lines.filterMap RepricedLine.old ++ r.removed).map Prod.snd)
    (rowsOf db orderId ++ r.lines.map (RepricedLine.row tenantId orderId))
  others : ∀ id, id ≠ orderId → List.Perm (itemsOf db' id) (itemsOf db id)
  shelf : ∀ x, shelf x db' = if tracks then
    shelf x db + unitsIn x (rowsOf db orderId) - unitsIn x (rowsOf db' orderId) else shelf x db
  idle : (∀ l ∈ r.lines, l.Idle) → r.removed = [] →
    ∀ iid, db'.row (.item iid) = db.row (.item iid)

/-- The rows a correction changes are there, and each is changed once. -/
structure Applicable (orderId : Id) (r : Repriced) (db : Database) : Prop where
  ready : ∀ l ∈ r.lines, LineReady orderId db l
  removed : ∀ i ∈ r.removed, db.row (.item i.1) = some i.2 ∧ i.2.orderId = orderId ∧
    ∀ y, i.2.stockRow = some y → (db.row y.key).isSome = true
  nodup : ((r.lines.filterMap RepricedLine.old ++ r.removed).map Prod.fst).Nodup

theorem onlyStock_items {db db' : Database} (h : OnlyStock db db') (id : Id) :
    List.Perm (itemsOf db' id) (itemsOf db id) :=
  itemsOf_perm (fun iid => h (.item iid) fun x => by cases x <;> exact nofun) id

theorem applyItemChanges_ensures (t id : Id) {r : Repriced} (tracks : Bool)
    (hr : Applicable id r σ.view) :
    (applyItemChanges t id r tracks).Ensures (S := shop) A σ fun _ σ' =>
      ItemsChanged t id r tracks σ.view σ'.view := by
  have hnd := hr.nodup
  rw [List.map_append, List.nodup_append] at hnd
  refine Ensures.seq (applyLines_ensures t id hr.ready hnd.1) fun moves σ₁ hlines => ?_
  have hremoved : ∀ i ∈ r.removed, σ₁.view.row (.item i.1) = some i.2 ∧ i.2.orderId = id := by
    intro i hi
    obtain ⟨hrow, hid, -⟩ := hr.removed i hi
    refine ⟨hlines.kept i.1 i.2 hrow fun hmem => ?_, hid⟩
    exact hnd.2.2 _ hmem _ (List.mem_map_of_mem hi) rfl
  refine Ensures.seq (removeLines_ensures hremoved hnd.2.1) fun _ σ₂ hrest => ?_
  obtain ⟨hframe, hrows, hothers, hkept⟩ := hrest
  have hall : List.Perm
      (rowsOf σ₂.view id ++ (r.lines.filterMap RepricedLine.old ++ r.removed).map Prod.snd)
      (rowsOf σ.view id ++ r.lines.map (RepricedLine.row t id)) := by
    refine List.Perm.trans ?_ hlines.rows
    rw [List.map_append]
    refine (List.perm_append_comm.append_left _).trans ?_
    rw [← List.append_assoc]
    exact hrows.append_right _
  have hidle : (∀ l ∈ r.lines, l.Idle) → r.removed = [] →
      ∀ iid, σ₂.view.row (.item iid) = σ.view.row (.item iid) := fun hlines' hnil iid => by
    rw [hkept hnil (.item iid), hlines.idle hlines' iid]
  have hstocked : ∀ x : StockRow, σ₂.view.row x.key = σ.view.row x.key := fun x => by
    rw [hframe x.key (by cases x <;> simp [StockRow.key]), hlines.frame x.key (by cases x <;> simp [StockRow.key])]
  have hshelf : ∀ x, shelf x σ₂.view = shelf x σ.view := fun x => by
    rw [shelf, shelf, hstocked]
  refine ensures_runIf.2 ⟨fun htracks => ?_, fun htracks => ?_⟩
  · refine Ensures.seq (reserveStock_ensures _) fun _ σ₃ hreserved => ?_
    obtain ⟨honly, hsome, htaken⟩ := hreserved
    have hgiven : ∀ i ∈ moves.flatMap StockMoves.toRelease ++
        r.removed.map (fun i => i.2.released), ∀ x, i.stockRow = some x →
        (σ₃.view.row x.key).isSome = true := by
      intro i hi x hx
      refine hsome ?_
      rw [hstocked]
      rcases List.mem_append.1 hi with hi | hi
      · obtain ⟨m, hm, him⟩ := List.mem_flatMap.1 hi
        exact hlines.released m hm i him x hx
      · obtain ⟨j, hj, rfl⟩ := List.mem_map.1 hi
        exact (hr.removed j hj).2.2 x hx
    refine (releaseStock_ensures _ hgiven).mono fun _ σ₄ hreleased => ?_
    obtain ⟨honly', hgave⟩ := hreleased
    have hitems : ∀ id', List.Perm (itemsOf σ₄.view id') (itemsOf σ₂.view id') := fun id' =>
      (onlyStock_items honly' id').trans (onlyStock_items honly id')
    refine ⟨fun k hk hk' => ?_, ?_, fun id' hne => ?_, fun x => ?_, fun hlines' hnil iid => ?_⟩
    · rw [honly' k hk', honly k hk', hframe k hk, hlines.frame k hk]
    · exact (((hitems id).map Prod.snd).append_right _).trans hall
    · exact (hitems id').trans ((hothers id' hne).trans (hlines.others id' hne))
    · have hmoved := units_flatMap x moves
      have hunits := hlines.units x
      have hsum := unitsIn_perm x hall
      have hsame := unitsIn_perm x ((hitems id).map Prod.snd)
      have hback := releasedTo_released x (r.removed.map Prod.snd)
      simp only [unitsIn_append, List.map_append, List.map_map] at hsum hback
      rw [htracks, if_pos rfl, hgave, htaken, hshelf, releasedTo_append]
      change unitsIn x (rowsOf σ₄.view id) = unitsIn x (rowsOf σ₂.view id) at hsame
      change releasedTo x (r.removed.map fun i => i.2.released) = _ at hback
      omega
    · have hitem : ∀ x : StockRow, Key.item iid ≠ x.key := fun x => by cases x <;> simp [StockRow.key]
      rw [honly' _ hitem, honly _ hitem, hidle hlines' hnil]
  · refine ⟨fun k hk _ => (hframe k hk).trans (hlines.frame k hk), hall,
      fun id' hne => (hothers id' hne).trans (hlines.others id' hne), fun x => ?_,
      hidle⟩
    rw [htracks, hshelf]
    rfl

/-! ## Corrections -/

theorem ForeignKeys.stockRow (h : ForeignKeys db) {iid : Id} {i : OrderItem}
    (hi : db.row (.item iid) = some i) {x : StockRow} (hx : i.stockRow = some x) :
    (db.row x.key).isSome = true := by
  unfold OrderItem.stockRow stockRowOf at hx
  split at hx
  · next v hv =>
      cases hx
      obtain ⟨y, hy⟩ := h.variant iid i v hi hv
      exact Option.isSome_iff_exists.2 ⟨y, hy⟩
  · next p _ hp =>
      cases hx
      obtain ⟨y, hy⟩ := h.product iid i p hi hp
      exact Option.isSome_iff_exists.2 ⟨y, hy⟩
  · cases hx

theorem applicable_of_repricing (hkeys : ForeignKeys db) {t id : Id} {o : Order}
    {requested : Option (List OrderItemInput)} {shippingId : Option (Option Id)} {r : Repriced}
    (h : Repricing db t o (itemsOf db id) requested shippingId r) : Applicable id r db := by
  obtain ⟨products, -, hlines⟩ := h.lines
  have hold := filterMap_old hlines
  have hrow : ∀ i ∈ itemsOf db id, db.row (.item i.1) = some i.2 ∧ i.2.orderId = id ∧
      ∀ y, i.2.stockRow = some y → (db.row y.key).isSome = true := fun i hi => by
    obtain ⟨hrow, hid⟩ := mem_itemsOf.1 hi
    exact ⟨hrow, hid, fun y hy => hkeys.stockRow hrow hy⟩
  have hkept : ∀ i ∈ r.lines.filterMap RepricedLine.old, i ∈ itemsOf db id ∧
      ∃ w ∈ wantedLines (itemsOf db id) requested, w.1 = i.2.lineKey := by
    intro i hi
    rw [hold] at hi
    obtain ⟨w, hw, hex⟩ := List.mem_filterMap.1 hi
    exact ⟨(existingLine_mem hex).1, w, hw, (existingLine_mem hex).2.symm⟩
  have hremoved : ∀ i ∈ r.removed, i ∈ itemsOf db id ∧
      ¬ ∃ w ∈ wantedLines (itemsOf db id) requested, w.1 = i.2.lineKey := by
    intro i hi
    rw [h.removed] at hi
    simpa only [List.mem_filter, Bool.not_eq_true', ← Bool.not_eq_true, List.any_eq_true,
      beq_iff_eq] using hi
  refine ⟨fun l hl x hx => ?_, fun i hi => hrow i (hremoved i hi).1, ?_⟩
  · exact hrow x (hkept x (List.mem_filterMap.2 ⟨l, hl, hx⟩)).1
  · refine List.Nodup.map_on (fun i hi j hj heq => ?_) (List.Nodup.append ?_ ?_ ?_)
    · have hmem : ∀ i, i ∈ r.lines.filterMap RepricedLine.old ++ r.removed → i ∈ itemsOf db id :=
        fun i hi => (List.mem_append.1 hi).elim (fun h => (hkept i h).1) fun h => (hremoved i h).1
      exact itemsOf_inj (hmem i hi) (hmem j hj) heq
    · rw [hold]
      exact nodup_existing _ _
    · rw [h.removed]
      exact (itemsOf_nodup db id).filter _
    · exact fun i hi hi' => (hremoved i hi').2 (hkept i hi).2

/-- What the lines part of a correction does to the store. -/
def LinesCorrected (tenantId id : Id) (dto : UpdateOrder) (order : Order) (db db' : Database) :
    Option Repriced → Prop
  | none => dto.items = none ∧ dto.shippingId = none ∧ db' = db
  | some r => ¬ (dto.items = none ∧ dto.shippingId = none) ∧
    Repricing db tenantId order (itemsOf db id) dto.items dto.shippingId r ∧
    ∃ tenant, db.row (.tenant tenantId) = some tenant ∧
      ItemsChanged tenantId id r tenant.tracksInventory db db'

/-- What `updateDetails` leaves in the store. -/
structure Corrected (tenantId id : Id) (dto : UpdateOrder) (db db' : Database) (order : Order)
    (r : Option Repriced) : Prop where
  found : orderOf db tenantId id = some order
  written : ∃ db₁, LinesCorrected tenantId id dto order db db₁ r ∧
    db' = applyUpdate (S := shop) (.editOrder id (orderEdit order dto r)) db₁

theorem correctLines_ensures (hkeys : ForeignKeys σ.view) (t id : Id) (o : Order)
    (dto : UpdateOrder) : (correctLines t id o (itemsOf σ.view id) dto).Ensures (S := shop) A σ
      fun r σ' => LinesCorrected t id dto o σ.view σ'.view r := by
  unfold correctLines
  split
  · next hnone =>
      simp only [Bool.and_eq_true, Option.isNone_iff_eq_none] at hnone
      exact ⟨hnone.1, hnone.2, rfl⟩
  · next hsome =>
      simp only [Bool.and_eq_true, Option.isNone_iff_eq_none] at hsome
      refine Ensures.seq (reprice_ensures t o _ _ _) fun r σ' hr => ?_
      obtain ⟨rfl, hr⟩ := hr
      refine ensures_check fun _ => ensures_ask (ensures_demand fun tenant htenant => ?_)
      refine Ensures.seq (applyItemChanges_ensures t id _ (applicable_of_repricing hkeys hr))
        fun _ σ₁ hchanged => ?_
      exact ⟨hsome, hr, tenant, htenant, hchanged⟩

theorem updateDetails_ensures (hkeys : ForeignKeys db) (t id : Id) (dto : UpdateOrder) :
    (updateDetails t id dto).Ensures (S := shop) A (.start db) fun _ σ' =>
      ∃ o r, Corrected t id dto db σ'.view o r := by
  refine ensures_ask (ensures_demand fun x hx => ?_)
  obtain ⟨o, ho, rfl⟩ := Option.map_eq_some_iff.1 hx
  refine ensures_check fun _ => ensures_check fun _ => ?_
  refine Ensures.seq (correctLines_ensures hkeys t id o dto) fun r σ₁ hlines => ?_
  refine ensures_require fun _ => ?_
  simp only
  split
  · intro hasInvoice _ _ _
    exact ensures_ret ⟨o, r, ho, _, hlines, rfl⟩
  · intro _ _
    exact ensures_ret ⟨o, r, ho, _, hlines, rfl⟩

end WhatStore
