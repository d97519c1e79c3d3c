import WhatStore.Checkout.Items
import Mathlib.Algebra.Order.BigOperators.Group.List

/-!
# The totals of an order

The stored totals of an order and the amounts of its rows go together from the
order's creation through its corrections, as long as no correction matches a
key that stands on several rows. `Sound` is the invariant of one order,
`Trading` that of the store.
-/

namespace WhatStore

open ReadCommitted ReadCommitted.Prog

variable {db db' : Database}

/-! ## What selling leaves alone -/

/-- A row keeps what it is sold at when its stock or its use count moves. -/
def sameTerms : (k : Key) → Option (Row k) → Option (Row k) → Prop
  | .product _, v, v' => v'.map (fun p : Product => { p with quantity := 0 }) =
      v.map fun p : Product => { p with quantity := 0 }
  | .variant _, v, v' => v'.map (fun x : ProductVariant => { x with quantity := 0 }) =
      v.map fun x : ProductVariant => { x with quantity := 0 }
  | .coupon _, v, v' => v'.map (fun c : Coupon => { c with usageCount := 0 }) =
      v.map fun c : Coupon => { c with usageCount := 0 }
  | .order _, v, v' => v.isSome = true → v'.isSome = true
  | .item _, _, _ => True
  | .tenant _, v, v' => v' = v
  | .setting _ _, v, v' => v' = v
  | .shipping _, v, v' => v' = v
  | .asset _, v, v' => v' = v
  | .delivery _, v, v' => v' = v
  | .grant _, v, v' => v' = v

theorem sameTerms_refl (k : Key) (v : Option (Row k)) : sameTerms k v v := by
  cases k <;> first | exact rfl | exact id | exact trivial

theorem sameTerms_trans {k : Key} {v v' v'' : Option (Row k)} (h : sameTerms k v v')
    (h' : sameTerms k v' v'') : sameTerms k v v'' := by
  cases k with
  | order id => exact fun hv => h' (h hv)
  | item id => exact trivial
  | _ => exact Eq.trans h' h

def Update.sells (u : Update) : Prop := u.places ∨ u.corrects

theorem sameTerms_change {u : Update} (hu : u.sells) (v : Option (Row u.key)) :
    sameTerms u.key v (u.change v) := by
  cases u with
  | insertOrder id o => exact fun _ => rfl
  | insertItem id i => exact trivial
  | updateItem id i data => exact trivial
  | deleteItem id i => exact trivial
  | confirmMessage id => exact fun hv => Option.isSome_map.trans hv
  | editOrder id edit => exact fun hv => Option.isSome_map.trans hv
  | take row n =>
      cases row with
      | product id => exact Option.map_map ..
      | variant id => exact Option.map_map ..
  | give row n =>
      cases row with
      | product id => exact Option.map_map ..
      | variant id => exact Option.map_map ..
  | redeem id limit => exact Option.map_map ..
  | _ => exact hu.elim False.elim False.elim

theorem sameTerms_replay {us : List Update} (hus : ∀ u ∈ us, u.sells) (db : Database) (k : Key) :
    sameTerms k (db.row k) ((replay (S := shop) us db).row k) := by
  induction us with
  | nil => exact sameTerms_refl k _
  | cons u us ih =>
      refine sameTerms_trans (ih fun u' hu' => hus u' (List.mem_cons_of_mem _ hu')) ?_
      rw [replay_cons]
      by_cases hk : k = u.key
      · subst hk
        have hself := applyUpdate_row_self (S := shop) u (replay (S := shop) us db)
        exact hself ▸ sameTerms_change (hus u List.mem_cons_self) _
      · have hne := applyUpdate_row_of_ne (S := shop) u (replay (S := shop) us db) hk
        rw [hne]
        exact sameTerms_refl k _

/-- Prices, rates and discounts are not negative, as the settings of a store
check them. -/
structure SoundCatalog (db : Database) : Prop where
  product : ∀ id p, db.row (.product id) = some p → 0 ≤ p.price ∧ ∀ t ∈ p.taxes, 0 ≤ t.rate
  variant : ∀ id v, db.row (.variant id) = some v → 0 ≤ v.price
  shipping : ∀ id x, db.row (.shipping id) = some x → 0 ≤ x.cost
  coupon : ∀ id c, db.row (.coupon id) = some c → 0 ≤ c.discountValue

theorem terms_product (hterms : ∀ k, sameTerms k (db.row k) (db'.row k)) {id : Id} {p : Product}
    (hp : db'.row (.product id) = some p) :
    ∃ p', db.row (.product id) = some p' ∧ p'.price = p.price ∧ p'.taxes = p.taxes := by
  have hsame : (db'.row (.product id)).map (fun p : Product => { p with quantity := 0 }) =
      (db.row (.product id)).map fun p : Product => { p with quantity := 0 } := hterms (.product id)
  rw [hp] at hsame
  obtain ⟨p', hp', heq⟩ := Option.map_eq_some_iff.1 hsame.symm
  have hprice := congrArg Product.price heq
  have htaxes := congrArg Product.taxes heq
  exact ⟨p', hp', hprice, htaxes⟩

theorem terms_variant (hterms : ∀ k, sameTerms k (db.row k) (db'.row k)) {id : Id}
    {v : ProductVariant} (hv : db'.row (.variant id) = some v) :
    ∃ v', db.row (.variant id) = some v' ∧ v'.price = v.price := by
  have hsame : (db'.row (.variant id)).map (fun x : ProductVariant => { x with quantity := 0 }) =
      (db.row (.variant id)).map fun x : ProductVariant => { x with quantity := 0 } :=
    hterms (.variant id)
  rw [hv] at hsame
  obtain ⟨v', hv', heq⟩ := Option.map_eq_some_iff.1 hsame.symm
  have hprice := congrArg ProductVariant.price heq
  exact ⟨v', hv', hprice⟩

theorem terms_coupon (hterms : ∀ k, sameTerms k (db.row k) (db'.row k)) (id : Id) :
    (db'.row (.coupon id)).map (fun c => (c.tenantId, c.discountValue)) =
      (db.row (.coupon id)).map fun c => (c.tenantId, c.discountValue) := by
  have hsame : (db'.row (.coupon id)).map (fun c : Coupon => { c with usageCount := 0 }) =
      (db.row (.coupon id)).map fun c : Coupon => { c with usageCount := 0 } := hterms (.coupon id)
  have hmap := congrArg (Option.map fun c : Coupon => (c.tenantId, c.discountValue)) hsame
  rw [Option.map_map, Option.map_map] at hmap
  exact hmap

theorem SoundCatalog.sell (h : SoundCatalog db) (hterms : ∀ k, sameTerms k (db.row k) (db'.row k)) :
    SoundCatalog db' where
  product id p hp := by
    obtain ⟨p', hp', hprice, htaxes⟩ := terms_product hterms hp
    rw [← hprice, ← htaxes]
    exact h.product id p' hp'
  variant id v hv := by
    obtain ⟨v', hv', hprice⟩ := terms_variant hterms hv
    rw [← hprice]
    exact h.variant id v' hv'
  shipping id x hx := by
    have hsame : db'.row (.shipping id) = db.row (.shipping id) := hterms (.shipping id)
    exact h.shipping id x (hsame ▸ hx)
  coupon id c hc := by
    have hsame := terms_coupon hterms id
    rw [hc] at hsame
    obtain ⟨c', hc', heq⟩ := Option.map_eq_some_iff.1 hsame.symm
    rw [← (Prod.mk.inj heq).2]
    exact h.coupon id c' hc'

theorem isSome_of_terms (hterms : ∀ k, sameTerms k (db.row k) (db'.row k)) {k : Key}
    (hk : ∀ iid, k ≠ .item iid) (h : (db.row k).isSome = true) : (db'.row k).isSome = true := by
  have hsame := hterms k
  cases k with
  | item iid => exact absurd rfl (hk iid)
  | order id => exact hsame h
  | product id | variant id | coupon id =>
      exact Option.isSome_map.symm.trans ((congrArg _ hsame).trans (Option.isSome_map.trans h))
  | _ => exact (congrArg _ hsame).trans h

/-! ## Amounts -/

theorem roundHalfUp_nonneg {num den : ℤ} (hnum : 0 ≤ num) (hden : 0 < den) :
    0 ≤ roundHalfUp num den := by
  rw [roundHalfUp, if_pos hnum]
  exact Int.ediv_nonneg (by omega) (by omega)

theorem roundHalfUp_le {num den n : ℤ} (hnum : 0 ≤ num) (hden : 0 < den) (h : num ≤ n * den) :
    roundHalfUp num den ≤ n := by
  rw [roundHalfUp, if_pos hnum]
  refine Int.lt_add_one_iff.1 (Int.ediv_lt_of_lt_mul (by omega) ?_)
  have hexpand : (n + 1) * (2 * den) = 2 * (n * den) + 2 * den := by ring
  omega

/-- A discount is not negative and takes no more than the amount. -/
theorem applyCouponDiscount_bounds {taxedTotal discountValue : ℤ} (discountType : DiscountType)
    (htotal : 0 ≤ taxedTotal) (hvalue : 0 ≤ discountValue) :
    0 ≤ applyCouponDiscount taxedTotal discountType discountValue ∧
      applyCouponDiscount taxedTotal discountType discountValue ≤ taxedTotal := by
  cases discountType with
  | flat => exact ⟨le_min hvalue htotal, min_le_right _ _⟩
  | percentage =>
      have hnonneg : 0 ≤ min (taxedTotal * discountValue) (taxedTotal * 10000) :=
        le_min (Int.mul_nonneg htotal hvalue) (by omega)
      exact ⟨roundHalfUp_nonneg hnonneg (by omega),
        roundHalfUp_le hnonneg (by omega) (min_le_right _ _)⟩

theorem taxAmount_nonneg {unitPrice quantity : ℤ} {taxes : List TaxLine} (hprice : 0 ≤ unitPrice)
    (hquantity : 0 ≤ quantity) (hrates : ∀ t ∈ taxes, 0 ≤ t.rate) :
    0 ≤ (priceLineItem unitPrice quantity taxes).taxAmount := by
  refine List.sum_nonneg fun n hn => ?_
  simp only [List.map_map, List.mem_map] at hn
  obtain ⟨t, ht, rfl⟩ := hn
  exact roundHalfUp_nonneg (Int.mul_nonneg (hrates t ht) (Int.mul_nonneg hprice hquantity)) (by omega)

/-! ## Rows -/

/-- The row is priced, and at no negative price or rate. -/
structure OrderItem.SoundRow (i : OrderItem) : Prop extends i.WellPriced where
  unitPrice : 0 ≤ i.unitPrice
  rates : ∀ t ∈ i.taxBreakdown, 0 ≤ t.rate

structure OrderItem.Has (i : OrderItem) (p : Priced) : Prop where
  subtotal : i.unitPrice * i.quantity = p.lineSubtotal
  taxAmount : i.taxAmount = p.taxAmount

theorem SoundCatalog.line (h : SoundCatalog db) {l : PricedLine} (hl : LineRows db l) :
    0 ≤ (l.variant.map fun v => v.2.price).getD l.product.price ∧
      ∀ t ∈ l.product.taxes, 0 ≤ t.rate := by
  obtain ⟨hprice, hrates⟩ := h.product _ _ hl.product
  refine ⟨?_, hrates⟩
  cases hv : l.variant with
  | none => exact hprice
  | some v => exact h.variant _ _ (hl.variant v hv)

theorem soundRow_newItem {l : OrderLine} {quantity : ℤ} (hpriced : l.priced =
      priceLineItem ((l.variant.map fun v => v.2.price).getD l.product.price) quantity
        l.product.taxes) (hquantity : 1 ≤ quantity)
    (hline : 0 ≤ (l.variant.map fun v => v.2.price).getD l.product.price ∧
      ∀ t ∈ l.product.taxes, 0 ≤ t.rate) (t id : Id) :
    (newItem t id l.toPricedLine l.priced).SoundRow ∧
      (newItem t id l.toPricedLine l.priced).Has l.priced := by
  refine ⟨⟨wellPriced_newItem hpriced hquantity t id, ?_, fun x hx => ?_⟩, ?_, rfl⟩
  · rw [hpriced]
    exact hline.1
  · have hbreakdown : (newItem t id l.toPricedLine l.priced).taxBreakdown =
        l.priced.taxBreakdown := rfl
    rw [hbreakdown, hpriced] at hx
    obtain ⟨tax, htax, rfl⟩ := List.mem_map.1 hx
    exact hline.2 tax htax
  · rw [hpriced]
    rfl

theorem soundRow_write {i : OrderItem} (h : i.SoundRow) {quantity : ℤ} (hquantity : 1 ≤ quantity) :
    (i.write (i.repriced quantity).itemData).SoundRow ∧
      (i.write (i.repriced quantity).itemData).Has (i.repriced quantity) := by
  have hagain : (i.write (i.repriced quantity).itemData).repriced quantity = i.repriced quantity :=
    congrArg (priceLineItem i.unitPrice quantity) (taxLines_priceLineItem _ _ _)
  refine ⟨⟨⟨hquantity, ?_, ?_⟩, h.unitPrice, fun x hx => ?_⟩, rfl, rfl⟩
  · exact (congrArg Priced.taxAmount hagain).symm
  · exact (congrArg Priced.lineTotal hagain).symm
  · obtain ⟨tax, htax, rfl⟩ := List.mem_map.1 hx
    obtain ⟨t, ht, rfl⟩ := List.mem_map.1 htax
    exact h.rates t ht

theorem RepricedFrom.soundRow {items : List (Id × OrderItem)} {products : Catalog}
    {w : LineKey × Int} {l : RepricedLine} (h : RepricedFrom items products w l)
    (hpos : 1 ≤ w.2) (hitems : ∀ i ∈ items, i.2.SoundRow) (hcatalog : SoundCatalog db)
    (hproducts : ∀ p ∈ products, ∃ t ids, p ∈ Query.eval (.products t ids false) db) (t id : Id) :
    (l.row t id).SoundRow ∧ (l.row t id).Has l.priced := by
  cases h with
  | kept i hex =>
      have hi := hitems i (existingLine_mem hex).1
      by_cases hsame : w.2 = i.2.quantity
      · have hrow : RepricedLine.row t id (.kept i.1 i.2 (i.2.repriced w.2)) = i.2 := if_pos hsame
        rw [hrow]
        refine ⟨hi, ?_, ?_⟩
        · rw [← hsame]
          rfl
        · rw [hi.taxAmount, ← hsame]
          rfl
      · have hrow : RepricedLine.row t id (.kept i.1 i.2 (i.2.repriced w.2)) =
            i.2.write (i.2.repriced w.2).itemData := if_neg hsame
        rw [hrow]
        exact soundRow_write hi hpos
  | added line variants hnone hproduct hvariant hkey hpriced =>
      obtain ⟨t', ids, hmem⟩ := hproducts _ hproduct
      have hquantity : 1 ≤ line.quantity := by
        rw [← line.priced_quantity, hpriced]
        exact hpos
      have hrows : LineRows db line.toPricedLine := lineRows_of_mem hmem hvariant hquantity
      exact soundRow_newItem hpriced hpos (hcatalog.line hrows) t id

/-! ## Orders -/

structure TotalsHold (db : Database) (id : Id) (o : Order) : Prop where
  grandTotal : o.grandTotal = o.subtotal + o.taxTotal - o.discountTotal + o.shippingTotal
  lines : ((rowsOf db id).map OrderItem.lineTotal).sum = o.subtotal + o.taxTotal
  discount_nonneg : 0 ≤ o.discountTotal
  discount_le : o.discountTotal ≤ o.subtotal + o.taxTotal
  grandTotal_nonneg : 0 ≤ o.grandTotal

/-- The order has the totals of its rows, and its discount is that of a coupon
of its store. -/
structure Sound (db : Database) (id : Id) (o : Order) : Prop where
  rows : ∀ i ∈ rowsOf db id, i.SoundRow
  subtotal : o.subtotal = ((rowsOf db id).map fun i => i.unitPrice * i.quantity).sum
  taxTotal : o.taxTotal = ((rowsOf db id).map OrderItem.taxAmount).sum
  discount : 0 ≤ o.discountTotal ∧ o.discountTotal ≤ o.subtotal + o.taxTotal
  shipping : 0 ≤ o.shippingTotal
  grandTotal : o.grandTotal = o.subtotal + o.taxTotal - o.discountTotal + o.shippingTotal
  noCoupon : o.couponId = none → o.discountTotal = 0
  coupon : ∀ c, o.couponId = some c → ∃ x, db.row (.coupon c) = some x ∧ x.tenantId = o.tenantId

theorem Sound.totalsHold {id : Id} {o : Order} (h : Sound db id o) : TotalsHold db id o := by
  have hlines : ((rowsOf db id).map OrderItem.lineTotal).sum = o.subtotal + o.taxTotal := by
    rw [h.subtotal, h.taxTotal, ← List.sum_map_add]
    refine congrArg List.sum (List.map_congr_left fun i hi => ?_)
    rw [(h.rows i hi).lineTotal, (h.rows i hi).taxAmount]
    rfl
  refine ⟨h.grandTotal, hlines, h.discount.1, h.discount.2, ?_⟩
  rw [h.grandTotal]
  exact Int.add_nonneg (Int.sub_nonneg_of_le h.discount.2) h.shipping

theorem Sound.frame {id : Id} {o : Order} (h : Sound db id o)
    (hterms : ∀ k, sameTerms k (db.row k) (db'.row k))
    (hitems : List.Perm (itemsOf db' id) (itemsOf db id)) : Sound db' id o := by
  have hrows : List.Perm (rowsOf db' id) (rowsOf db id) := hitems.map Prod.snd
  refine ⟨fun i hi => h.rows i (hrows.mem_iff.1 hi), ?_, ?_, h.discount, h.shipping, h.grandTotal,
    h.noCoupon, fun c hc => ?_⟩
  · rw [h.subtotal, (hrows.map _).sum_eq]
  · rw [h.taxTotal, (hrows.map _).sum_eq]
  · obtain ⟨x, hx, htenant⟩ := h.coupon c hc
    have hsame := terms_coupon hterms c
    rw [hx] at hsame
    obtain ⟨x', hx', heq⟩ := Option.map_eq_some_iff.1 hsame
    exact ⟨x', hx', (Prod.mk.inj heq).1.trans htenant⟩

theorem sum_rows {rows : List OrderItem} {priced : List Priced}
    (h : List.Forall₂ OrderItem.Has rows priced) :
    (rows.map fun i => i.unitPrice * i.quantity).sum = (priced.map Priced.lineSubtotal).sum ∧
      (rows.map OrderItem.taxAmount).sum = (priced.map Priced.taxAmount).sum := by
  induction h with
  | nil => exact ⟨rfl, rfl⟩
  | cons hrow _ ih =>
      simp only [List.map_cons, List.sum_cons, ih, hrow.subtotal, hrow.taxAmount, and_self]

theorem soundRows_nonneg {rows : List OrderItem} (h : ∀ i ∈ rows, i.SoundRow) :
    0 ≤ (rows.map fun i => i.unitPrice * i.quantity).sum ∧
      0 ≤ (rows.map OrderItem.taxAmount).sum := by
  constructor
  · refine List.sum_nonneg fun n hn => ?_
    obtain ⟨i, hi, rfl⟩ := List.mem_map.1 hn
    have hquantity := (h i hi).quantity
    exact Int.mul_nonneg (h i hi).unitPrice (by omega)
  · refine List.sum_nonneg fun n hn => ?_
    obtain ⟨i, hi, rfl⟩ := List.mem_map.1 hn
    have hquantity := (h i hi).quantity
    rw [(h i hi).taxAmount]
    refine taxAmount_nonneg (h i hi).unitPrice (by omega) fun t ht => ?_
    obtain ⟨x, hx, rfl⟩ := List.mem_map.1 ht
    exact (h i hi).rates x hx

/-! ## Creating and correcting -/

theorem coupon_of_pricing {time : Time} {t : Id} {code : Option String} {options : PriceOptions}
    {c : Id × Coupon} {error : Option String}
    (h : couponPricing db time t code options = .ok (some c, error)) :
    db.row (.coupon c.1) = some c.2 ∧ c.2.tenantId = t := by
  unfold couponPricing couponVerdict at h
  cases code with
  | none => cases h
  | some code =>
      cases hreason : couponReason (Query.eval (.couponByCode t code) db) time with
      | some reason =>
          simp only [hreason] at h
          split at h
          · cases h
          · cases h
      | none =>
          simp only [hreason, Except.ok.injEq, Prod.mk.injEq] at h
          exact couponByCode_row h.1

theorem shipping_of_pricing {t : Id} {shippingId : Option Id} {active : Bool} {x : Shipping}
    (h : shippingPricing db t shippingId active = .ok (some x)) :
    ∃ id, db.row (.shipping id) = some x := by
  unfold shippingPricing at h
  split at h
  · cases h
  · split at h
    · next id shipping hfound =>
        cases h
        exact ⟨_, (Option.filter_eq_some_iff.1 hfound).1⟩
    · cases h

theorem orderTotals_bounds (lines : List OrderLine) {coupon : Option (Id × Coupon)}
    {shipping : Option Shipping}
    (htotal : 0 ≤ (orderTotals lines coupon shipping).subtotal +
      (orderTotals lines coupon shipping).taxTotal)
    (hcoupon : ∀ c, coupon = some c → 0 ≤ c.2.discountValue)
    (hshipping : ∀ x, shipping = some x → 0 ≤ x.cost) :
    (0 ≤ (orderTotals lines coupon shipping).discountTotal ∧
      (orderTotals lines coupon shipping).discountTotal ≤
        (orderTotals lines coupon shipping).subtotal + (orderTotals lines coupon shipping).taxTotal) ∧
      0 ≤ (orderTotals lines coupon shipping).shippingTotal := by
  constructor
  · cases coupon with
    | none => exact ⟨le_refl 0, htotal⟩
    | some c => exact applyCouponDiscount_bounds _ htotal (hcoupon c rfl)
  · cases shipping with
    | none => exact le_refl 0
    | some x => exact hshipping x rfl

theorem Placed.sound {time : Time} {t : Id} {dto : CreateOrder} {id : Id} {o : Order}
    {priced : PricedOrder} (h : Placed time t dto db db' id o priced) (hkeys : ForeignKeys db)
    (hcatalog : SoundCatalog db) (hterms : ∀ k, sameTerms k (db.row k) (db'.row k)) :
    Sound db' id o := by
  have hparts := pricing_ok h.pricing
  have hplaced := asPlaced_of_placed hkeys h
  have hrows : ∀ i ∈ rowsOf db' id, i.SoundRow := by
    intro i hi
    have hlines := h.lines
    rw [hkeys.no_lines h.new] at hlines
    obtain ⟨l, hl, rfl⟩ := List.mem_map.1 (hlines.mem_iff.1 hi)
    obtain ⟨item, -, hitem⟩ := mem_of_mapM_ok hparts.lines hl
    have hline := lineRows_of_pricing h.pricing _ (List.mem_map_of_mem hl)
    exact (soundRow_newItem (priced_of_priceLine hitem) item.quantity_pos
      (hcatalog.line hline) t id).1
  obtain ⟨hsubtotal, htaxTotal⟩ := soundRows_nonneg hrows
  rw [← hplaced.subtotal] at hsubtotal
  rw [← hplaced.taxTotal] at htaxTotal
  have hcoupon : ∀ c, priced.coupon = some c →
      db.row (.coupon c.1) = some c.2 ∧ c.2.tenantId = t := fun c hc =>
    coupon_of_pricing (hc ▸ hparts.coupon)
  have hshipping : ∀ x, priced.shipping = some x → 0 ≤ x.cost := fun x hx => by
    obtain ⟨sid, hrow⟩ := shipping_of_pricing (hx ▸ hparts.shipping)
    exact hcatalog.shipping sid x hrow
  obtain ⟨tenant, createdAt, status, -, rfl⟩ := h.order
  have htotals := hparts.totals
  have hbounds := orderTotals_bounds priced.pricedLines
    (by rw [← htotals]; exact Int.add_nonneg hsubtotal htaxTotal)
    (fun c hc => hcatalog.coupon c.1 c.2 (hcoupon c hc).1) hshipping
  rw [← htotals] at hbounds
  refine ⟨hrows, hplaced.subtotal, hplaced.taxTotal, hbounds.1, hbounds.2, ?_, fun hnone => ?_,
    fun c hc => ?_⟩
  · exact (congrArg Totals.grandTotal htotals).trans (by rw [htotals]; rfl)
  · have hnone' : priced.coupon = none := Option.map_eq_none_iff.1 hnone
    refine (congrArg Totals.discountTotal htotals).trans ?_
    rw [hnone']
    rfl
  · obtain ⟨x, hx, rfl⟩ := Option.map_eq_some_iff.1 hc
    obtain ⟨hrow, htenant⟩ := hcoupon x hx
    have hsame := terms_coupon hterms x.1
    rw [hrow] at hsame
    obtain ⟨x', hx', heq⟩ := Option.map_eq_some_iff.1 hsame
    exact ⟨x', hx', (Prod.mk.inj heq).1.trans htenant⟩

/-- The discount of a corrected order stays within its new amount. -/
theorem discountAfter_bounds {t id : Id} {o : Order} (h : Sound db id o) (htenant : o.tenantId = t)
    (hcatalog : SoundCatalog db) {taxedTotal : Cents} (htotal : 0 ≤ taxedTotal) :
    0 ≤ discountAfter db t o taxedTotal ∧ discountAfter db t o taxedTotal ≤ taxedTotal := by
  unfold discountAfter
  cases hc : o.couponId with
  | none =>
      rw [Option.bind_none, h.noCoupon hc]
      exact ⟨le_refl 0, htotal⟩
  | some c =>
      obtain ⟨x, hx, hx'⟩ := h.coupon c hc
      have hfound : Query.eval (.coupon t c) db = some x :=
        Option.filter_eq_some_iff.2 ⟨hx, by simp [hx', htenant]⟩
      rw [Option.bind_some, hfound]
      exact applyCouponDiscount_bounds _ htotal (hcatalog.coupon c x hx)

theorem shippingAfter_nonneg {t : Id} {o : Order} {shippingId : Option (Option Id)} {total : Cents}
    (ho : 0 ≤ o.shippingTotal) (hcatalog : SoundCatalog db)
    (h : ShippingAfter db t o total shippingId) : 0 ≤ total := by
  cases shippingId with
  | none => exact h.symm ▸ ho
  | some x =>
      cases x with
      | none => exact h.symm ▸ le_refl 0
      | some sid =>
          obtain ⟨x, hx, rfl⟩ := h
          exact hcatalog.shipping sid x (Option.filter_eq_some_iff.1 hx).1

theorem rows_of_single {t id : Id} {o : Order} {requested : Option (List OrderItemInput)}
    {shippingId : Option (Option Id)} {r : Repriced} {tracks : Bool}
    (hr : Repricing db t o (itemsOf db id) requested shippingId r)
    (hc : ItemsChanged t id r tracks db db') (hsingle : SingleRows (itemsOf db id) requested) :
    List.Perm (rowsOf db' id) (r.lines.map (RepricedLine.row t id)) := by
  obtain ⟨products, -, hlines⟩ := hr.lines
  have hold := (kept_append_removed (itemsOf_nodup db id) hsingle).map Prod.snd
  rw [← filterMap_old hlines, ← hr.removed] at hold
  have hperm := hc.rows.trans (hold.symm.append_right _)
  exact (List.perm_append_left_iff _).1 (List.perm_append_comm.trans hperm)

theorem Corrected.sound {t id : Id} {dto : UpdateOrder} {o : Order} {r : Option Repriced}
    (h : Corrected t id dto db db' o r) (ho : Sound db id o) (hcatalog : SoundCatalog db)
    (hterms : ∀ k, sameTerms k (db.row k) (db'.row k))
    (hsingle : (dto.items = none ∧ dto.shippingId = none) ∨ SingleRows (itemsOf db id) dto.items)
    {o' : Order} (ho' : db'.row (.order id) = some o') : Sound db' id o' := by
  obtain ⟨db₁, hlines, hdb'⟩ := h.written
  have hitems : itemsOf db' id = itemsOf db₁ id := by
    rw [hdb']
    exact itemsOf_applyUpdate_of_ne (u := .editOrder id (orderEdit o dto r)) (by simp) db₁ id
  have hrow : ∀ o₁, db₁.row (.order id) = some o₁ → o' = o₁.edit (orderEdit o dto r) := by
    intro o₁ ho₁
    have hself := applyUpdate_row_self (S := shop) (.editOrder id (orderEdit o dto r)) db₁
    rw [hdb'] at ho'
    exact Option.some.inj (ho'.symm.trans (hself.trans (congrArg (Option.map _) ho₁)))
  have hfound := orderOf_eq_some h.found
  cases r with
  | none =>
      obtain ⟨-, -, rfl⟩ := hlines
      obtain rfl := hrow o hfound
      have hsame : Sound db₁ id (o.edit (orderEdit o dto none)) :=
        ⟨ho.rows, ho.subtotal, ho.taxTotal, ho.discount, ho.shipping, ho.grandTotal, ho.noCoupon,
          ho.coupon⟩
      exact hsame.frame hterms (List.Perm.of_eq hitems)
  | some r =>
      obtain ⟨hsome, hr, tenant, htenant, hc⟩ := hlines
      obtain rfl := hrow o (by
        rw [hc.frame (.order id) nofun (fun x => by cases x <;> exact nofun), hfound])
      obtain ⟨products, hproducts, hfrom⟩ := hr.lines
      have hnew : List.Perm (rowsOf db' id) (r.lines.map (RepricedLine.row t id)) := by
        rw [rowsOf, hitems]
        exact rows_of_single hr hc (hsingle.resolve_left hsome)
      have hline : ∀ l ∈ r.lines, (l.row t id).SoundRow ∧ (l.row t id).Has l.priced := by
        intro l hl
        obtain ⟨w, hw, hlw⟩ := exists_of_forall₂ hfrom hl
        have hold : ∀ i ∈ itemsOf db id, i.2.SoundRow := fun i hi =>
          ho.rows i.2 (List.mem_map_of_mem hi)
        exact hlw.soundRow ((wantedLines_pos hw).1 fun i hi => (hold i hi).quantity) hold hcatalog
          (fun p hp => ⟨t, hproducts p hp⟩) t id
      have hrows : ∀ i ∈ rowsOf db' id, i.SoundRow := fun i hi => by
        obtain ⟨l, hl, rfl⟩ := List.mem_map.1 (hnew.mem_iff.1 hi)
        exact (hline l hl).1
      have hhas : List.Forall₂ OrderItem.Has (r.lines.map (RepricedLine.row t id))
          (r.lines.map RepricedLine.priced) := by
        rw [List.forall₂_map_left_iff, List.forall₂_map_right_iff]
        exact List.forall₂_same.2 fun l hl => (hline l hl).2
      obtain ⟨hsub, htax⟩ := sum_rows hhas
      have hsubtotal : r.totals.subtotal =
          ((rowsOf db' id).map fun i => i.unitPrice * i.quantity).sum := by
        rw [(hnew.map _).sum_eq, hsub, hr.subtotal, List.map_map]
        rfl
      have htaxTotal : r.totals.taxTotal = ((rowsOf db' id).map OrderItem.taxAmount).sum := by
        rw [(hnew.map _).sum_eq, htax, hr.taxTotal, List.map_map]
        rfl
      obtain ⟨hsub', htax'⟩ := soundRows_nonneg hrows
      rw [← hsubtotal] at hsub'
      rw [← htaxTotal] at htax'
      have htenant' : o.tenantId = t := by
        have hmatch := (Option.filter_eq_some_iff.1 h.found).2
        simpa using hmatch
      have hdiscount := discountAfter_bounds ho htenant' hcatalog (Int.add_nonneg hsub' htax')
      rw [← hr.discountTotal] at hdiscount
      refine ⟨hrows, hsubtotal, htaxTotal, hdiscount,
        shippingAfter_nonneg ho.shipping hcatalog hr.shippingTotal, hr.grandTotal, fun hnone => ?_,
        fun c hcoupon => ?_⟩
      · have hnone' : o.couponId = none := hnone
        refine hr.discountTotal.trans ?_
        rw [discountAfter, hnone']
        exact ho.noCoupon hnone'
      · obtain ⟨x, hx, hxt⟩ := ho.coupon c hcoupon
        have hsame := terms_coupon hterms c
        rw [hx] at hsame
        obtain ⟨x', hx', heq⟩ := Option.map_eq_some_iff.1 hsame
        exact ⟨x', hx', (Prod.mk.inj heq).1.trans hxt⟩

theorem Corrected.others {t id id' : Id} {dto : UpdateOrder} {o : Order} {r : Option Repriced}
    (h : Corrected t id dto db db' o r) (hne : id' ≠ id) :
    db'.row (.order id') = db.row (.order id') ∧
      List.Perm (itemsOf db' id') (itemsOf db id') := by
  obtain ⟨db₁, hlines, hdb'⟩ := h.written
  have hrow : db'.row (.order id') = db₁.row (.order id') := by
    rw [hdb']
    exact applyUpdate_row_of_ne (S := shop) (.editOrder id (orderEdit o dto r)) db₁
      (by simpa using hne)
  have hitems : itemsOf db' id' = itemsOf db₁ id' := by
    rw [hdb']
    exact itemsOf_applyUpdate_of_ne (u := .editOrder id (orderEdit o dto r)) (by simp) db₁ id'
  rw [hrow, hitems]
  cases r with
  | none =>
      obtain ⟨-, -, rfl⟩ := hlines
      exact ⟨rfl, List.Perm.refl _⟩
  | some r =>
      obtain ⟨-, -, tenant, -, hc⟩ := hlines
      exact ⟨hc.frame (.order id') nofun fun x => by cases x <;> exact nofun, hc.others id' hne⟩

/-! ## The references of items -/

theorem refersWithin_of_terms (hterms : ∀ k, sameTerms k (db.row k) (db'.row k)) {i : OrderItem}
    (h : i.refersWithin db = true) : i.refersWithin db' = true := by
  obtain ⟨horder, hproduct, hvariant⟩ := refersWithin_iff.1 h
  exact refersWithin_iff.2 ⟨isSome_of_terms hterms (by simp) horder,
    fun p hp => isSome_of_terms hterms (by simp) (hproduct p hp),
    fun v hv => isSome_of_terms hterms (by simp) (hvariant v hv)⟩

theorem refersWithin_newItem {l : PricedLine} (hl : LineRows db l) {t id : Id} (priced : Priced)
    (horder : (db'.row (.order id)).isSome = true)
    (hterms : ∀ k, sameTerms k (db.row k) (db'.row k)) :
    (newItem t id l priced).refersWithin db' = true := by
  refine refersWithin_iff.2 ⟨horder, fun p hp => ?_, fun v hv => ?_⟩
  · cases hp
    exact isSome_of_terms hterms (by simp) (Option.isSome_iff_exists.2 ⟨_, hl.product⟩)
  · obtain ⟨x, hx, rfl⟩ := Option.map_eq_some_iff.1 hv
    exact isSome_of_terms hterms (by simp) (Option.isSome_iff_exists.2 ⟨_, hl.variant x hx⟩)

/-- The references hold when those of one order do and the other orders' items
are as they were. -/
theorem foreignKeys_of_order (hkeys : ForeignKeys db)
    (hterms : ∀ k, sameTerms k (db.row k) (db'.row k)) (id : Id)
    (hothers : ∀ id', id' ≠ id → List.Perm (itemsOf db' id') (itemsOf db id'))
    (horder : ∀ i ∈ rowsOf db' id, i.refersWithin db' = true) : ForeignKeys db' := by
  refine foreignKeys_iff.2 fun iid i hi => ?_
  have hmem : (iid, i) ∈ itemsOf db' i.orderId := mem_itemsOf.2 ⟨hi, rfl⟩
  by_cases hid : i.orderId = id
  · rw [hid] at hmem
    exact horder i (List.mem_map_of_mem hmem)
  · have hold := (hothers _ hid).mem_iff.1 hmem
    exact refersWithin_of_terms hterms (foreignKeys_iff.1 hkeys iid i (mem_itemsOf.1 hold).1)

theorem Placed.foreignKeys {time : Time} {t : Id} {dto : CreateOrder} {id : Id} {o : Order}
    {priced : PricedOrder} (h : Placed time t dto db db' id o priced) (hkeys : ForeignKeys db)
    (hterms : ∀ k, sameTerms k (db.row k) (db'.row k)) : ForeignKeys db' := by
  refine foreignKeys_of_order hkeys hterms id h.otherLines fun i hi => ?_
  have hlines := h.lines
  rw [hkeys.no_lines h.new] at hlines
  obtain ⟨l, hl, rfl⟩ := List.mem_map.1 (hlines.mem_iff.1 hi)
  have hline := lineRows_of_pricing h.pricing _ (List.mem_map_of_mem hl)
  exact refersWithin_newItem hline l.priced (Option.isSome_iff_exists.2 ⟨o, h.row⟩) hterms

theorem Corrected.foreignKeys {t id : Id} {dto : UpdateOrder} {o : Order} {r : Option Repriced}
    (h : Corrected t id dto db db' o r) (hkeys : ForeignKeys db)
    (hterms : ∀ k, sameTerms k (db.row k) (db'.row k)) : ForeignKeys db' := by
  obtain ⟨db₁, hlines, hdb'⟩ := h.written
  have hitems : ∀ id', itemsOf db' id' = itemsOf db₁ id' := fun id' => by
    rw [hdb']
    exact itemsOf_applyUpdate_of_ne (u := .editOrder id (orderEdit o dto r)) (by simp) db₁ id'
  have hold : ∀ i ∈ rowsOf db id, i.refersWithin db' = true := fun i hi => by
    obtain ⟨x, hx, rfl⟩ := List.mem_map.1 hi
    exact refersWithin_of_terms hterms (foreignKeys_iff.1 hkeys x.1 x.2 (mem_itemsOf.1 hx).1)
  cases r with
  | none =>
      obtain ⟨-, -, rfl⟩ := hlines
      refine foreignKeys_of_order hkeys hterms id (fun id' _ => List.Perm.of_eq (hitems id'))
        ?_
      rw [rowsOf, hitems]
      exact hold
  | some r =>
      obtain ⟨-, hr, tenant, -, hc⟩ := hlines
      refine foreignKeys_of_order hkeys hterms id (fun id' hne => ?_) fun i hi => ?_
      · rw [hitems]
        exact hc.others id' hne
      · rw [rowsOf, hitems] at hi
        have hmem := hc.rows.mem_iff.1 (List.mem_append_left _ hi)
        rcases List.mem_append.1 hmem with hmem | hmem
        · exact hold i hmem
        obtain ⟨l, hl, rfl⟩ := List.mem_map.1 hmem
        obtain ⟨products, hproducts, hfrom⟩ := hr.lines
        obtain ⟨w, hw, hlw⟩ := exists_of_forall₂ hfrom hl
        cases hlw with
        | kept x hex =>
            have hx := hold x.2 (List.mem_map_of_mem (existingLine_mem hex).1)
            rcases row_kept t id x.1 x.2 (x.2.repriced w.2) with hrow | hrow
            · rw [hrow]
              exact hx
            · rw [hrow]
              exact hx
        | added line variants hnone hproduct hvariant hkey hpriced =>
            obtain ⟨ids, hids⟩ := hproducts _ hproduct
            have hquantity : 1 ≤ line.quantity := by
              rw [← line.priced_quantity, hpriced]
              exact (wantedLines_pos hw).2 hnone
            have horder : (db'.row (.order id)).isSome = true :=
              isSome_of_terms hterms (by simp)
                (Option.isSome_iff_exists.2 ⟨o, orderOf_eq_some h.found⟩)
            exact refersWithin_newItem (lineRows_of_mem hids hvariant hquantity) line.priced horder
              hterms

/-! ## Runs -/

structure Trading (db : Database) : Prop where
  keys : ForeignKeys db
  catalog : SoundCatalog db
  orders : ∀ id o, db.row (.order id) = some o → Sound db id o

/-- Orders are placed, and corrected where no wanted line stands on several
rows. -/
def correctsSingly (db : Database) : Request → Prop
  | .create _ _ => True
  | .updateDetails _ id dto =>
      (dto.items = none ∧ dto.shippingId = none) ∨ SingleRows (itemsOf db id) dto.items
  | _ => False

/-- Run alone, a request whose hooks run after the commit leaves what it left
before. -/
theorem serve_thenHooks (answer : Answers shop) (p : Prog shop (List Job)) (db : Database) :
    serve (S := shop) answer (thenHooks p) db =
      (p.exec (S := shop) answer 0 (.start db)).session.view := by
  have hhooks : ∀ (jobs : List Job) n (σ : Session shop),
      ((runHooks jobs).exec (S := shop) answer n σ).session.view = σ.view := by
    intro jobs
    induction jobs with
    | nil => exact fun _ _ => rfl
    | cons job jobs ih => exact fun n σ => ih (n + 1) σ
  rw [serve, thenHooks, bind_eq, exec_bind]
  cases hvalue : (p.exec (S := shop) answer 0 (.start db)).value with
  | error e => rfl
  | ok jobs => exact hhooks jobs _ _

theorem trading_create {answer : Answers shop} {t : Id} {dto : CreateOrder} (h : Trading db) :
    Trading (serve (S := shop) answer (create t dto) db) := by
  unfold serve
  cases hvalue : ((create t dto).exec (S := shop) answer 0 (.start db)).value with
  | error e =>
      rw [(within_create t dto).view_of_error hvalue]
      exact h
  | ok x =>
      obtain ⟨⟨time, id, o, priced, -, hplaced⟩, us, hus, -, hview⟩ := ((create_ensures
        (A := anyAnswer) ⟨0, trivial⟩ t dto db).and (within_create t dto).ensures).of_exec
          (fun _ _ => trivial) hvalue
      revert hplaced hview
      generalize ((create t dto).exec (S := shop) answer 0 (.start db)).session.view = db'
      intro hplaced hview
      have hterms : ∀ k, sameTerms k (db.row k) (db'.row k) := fun k => by
        rw [hview]
        exact sameTerms_replay (fun u hu => .inl (hus u hu)) db k
      refine ⟨hplaced.foreignKeys h.keys hterms, h.catalog.sell hterms, fun id' o' ho' => ?_⟩
      by_cases hid : id' = id
      · subst hid
        cases hplaced.row.symm.trans ho'
        exact hplaced.sound h.keys h.catalog hterms
      · rw [hplaced.others id' hid] at ho'
        exact (h.orders id' o' ho').frame hterms (hplaced.otherLines id' hid)

theorem trading_updateDetails {answer : Answers shop} {t id : Id} {dto : UpdateOrder}
    (h : Trading db)
    (hsingle : (dto.items = none ∧ dto.shippingId = none) ∨ SingleRows (itemsOf db id) dto.items) :
    Trading (serve (S := shop) answer (thenHooks (updateDetails t id dto)) db) := by
  rw [serve_thenHooks]
  cases hvalue : ((updateDetails t id dto).exec (S := shop) answer 0 (.start db)).value with
  | error e =>
      rw [(within_updateDetails t id dto).view_of_error hvalue]
      exact h
  | ok jobs =>
      obtain ⟨⟨o, r, hcorrected⟩, us, hus, -, hview⟩ := ((updateDetails_ensures (A := anyAnswer)
        h.keys t id dto).and (within_updateDetails t id dto).ensures).of_exec
          (fun _ _ => trivial) hvalue
      revert hcorrected hview
      generalize ((updateDetails t id dto).exec (S := shop) answer 0 (.start db)).session.view = db'
      intro hcorrected hview
      have hterms : ∀ k, sameTerms k (db.row k) (db'.row k) := fun k => by
        rw [hview]
        exact sameTerms_replay (fun u hu => .inr (hus u hu)) db k
      refine ⟨hcorrected.foreignKeys h.keys hterms, h.catalog.sell hterms, fun id' o' ho' => ?_⟩
      by_cases hid : id' = id
      · subst hid
        exact hcorrected.sound (h.orders id' o (orderOf_eq_some hcorrected.found)) h.catalog hterms
          hsingle ho'
      · obtain ⟨hrow, hitems⟩ := hcorrected.others hid
        rw [hrow] at ho'
        exact (h.orders id' o' ho').frame hterms hitems

/-- As long as no correction matches a key that stands on several rows, the
totals of every order are right. -/
theorem totals_hold {db db' : Database} (hdb : Trading db)
    (hrun : Serial (S := shop) handler correctsSingly db db') {id : Id} {o : Order}
    (ho : db'.row (.order id) = some o) : TotalsHold db' id o := by
  refine Sound.totalsHold ((hrun.induct (I := Trading) hdb fun db answer r h hok => ?_).orders id o ho)
  cases r with
  | create t dto => exact trading_create h
  | updateDetails t id dto => exact trading_updateDetails h hok
  | _ => exact hok.elim

theorem Trading.of_unsold {db : Database} (hcatalog : SoundCatalog db)
    (horders : ∀ id, db.row (.order id) = none) (hitems : ∀ iid, db.row (.item iid) = none) :
    Trading db := by
  refine ⟨foreignKeys_iff.2 fun iid i hi => ?_, hcatalog, fun id o ho => ?_⟩
  · rw [hitems] at hi
    cases hi
  · rw [horders] at ho
    cases ho

theorem mugStore_trading : Trading mugStore := by
  refine Trading.of_unsold ⟨?_, nofun, nofun, nofun⟩ (fun _ => rfl) fun _ => rfl
  intro id p hp
  by_cases hid : id = 0
  · subst hid
    cases hp
    exact ⟨by decide, nofun⟩
  · have hnone : mugStore.row (.product id) = none :=
      Store.set_row_of_ne _ _ (by simpa using hid)
    rw [hnone] at hp
    cases hp

/-- One mug in each of two lines, then three mugs. -/
theorem totals_drift : ¬ ∀ db db' : Database, Trading db →
    Serial (S := shop) handler (fun _ r => match r with
      | .create _ _ => True
      | .updateDetails _ _ _ => True
      | _ => False) db db' →
    ∀ id o, db'.row (.order id) = some o → TotalsHold db' id o := by
  intro h
  have hholds := h mugStore _ mugStore_trading
    ((Relation.ReflTransGen.single ⟨counting 0, .create 0 mugPair, trivial, rfl⟩).tail
      ⟨counting 9, .updateDetails 0 2 threeMugs, trivial, rfl⟩) 2
  obtain ⟨o, ho, hne⟩ := Option.map_eq_some_iff.1 (by decide +kernel :
    ((serve (S := shop) (counting 9) (handler (.updateDetails 0 2 threeMugs)) soldPair).row
      (.order 2)).map (fun o => decide (((rowsOf (serve (S := shop) (counting 9)
        (handler (.updateDetails 0 2 threeMugs)) soldPair) 2).map OrderItem.lineTotal).sum =
          o.subtotal + o.taxTotal)) = some false)
  exact of_decide_eq_false hne (hholds o ho).lines

/-- Two mugs are ordered and become three. -/
theorem totals_hold_mugs : ∃ db' o, db'.row (.order 2) = some o ∧ o.subtotal = 3000 ∧
    TotalsHold db' 2 o := by
  have hrun : Serial (S := shop) handler correctsSingly mugStore
      (serve (S := shop) (counting 9) (handler (.updateDetails 0 2 threeMugs)) soldMugs) :=
    (Relation.ReflTransGen.single ⟨counting 0, .create 0 twoMugs, trivial, rfl⟩).tail
      ⟨counting 9, .updateDetails 0 2 threeMugs, .inr (by decide +kernel), rfl⟩
  obtain ⟨o, ho, hsubtotal⟩ := Option.map_eq_some_iff.1 (by decide +kernel :
    ((serve (S := shop) (counting 9) (handler (.updateDetails 0 2 threeMugs)) soldMugs).row
      (.order 2)).map Order.subtotal = some 3000)
  exact ⟨_, o, ho, hsubtotal, totals_hold mugStore_trading hrun ho⟩

end WhatStore
