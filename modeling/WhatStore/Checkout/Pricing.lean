import WhatStore.Services.Requests
import WhatStore.ReadCommitted.Sequential

/-!
# Pricing as a function of the store

Run alone, `priceOrder` computes a function of the store and the time: `pricing`
is that function, and `priceOrder_gives` and `priceOrder_ensures` say so. A
coupon that cannot be used is all that tells a quote from an order.
-/

namespace WhatStore

open ReadCommitted ReadCommitted.Prog

/-- The clock shows `time`. -/
def ClockShows (time : Time) (answer : Answers shop) : Prop := ∀ n, answer n .now = time

/-- Answers with the clock at `time`. -/
def AtTime (time : Time) : (c : Call) → c.Answer → Prop
  | .now, a => a = time
  | _, _ => True

def anyAnswer (c : Call) (_ : c.Answer) : Prop := True

/-! ## The functions -/

/-- The coupon a code stands for at a time, and why it is refused. -/
def couponVerdict (db : Database) (time : Time) (tenantId : Id) (couponCode : Option String) :
    Option (Id × Coupon) × Option String :=
  match couponCode with
  | none => (none, none)
  | some code =>
    let found := Query.eval (.couponByCode tenantId code) db
    match couponReason found time with
    | some reason => (none, some reason)
    | none => (found, none)

/-- A refused coupon rejects an order, and is reported to a quote. -/
def couponPricing (db : Database) (time : Time) (tenantId : Id) (couponCode : Option String)
    (options : PriceOptions) : Except Err (Option (Id × Coupon) × Option String) :=
  match (couponVerdict db time tenantId couponCode).2 with
  | some reason =>
    if options.lenientCoupon then .ok (couponVerdict db time tenantId couponCode)
    else .error (.badRequest reason)
  | none => .ok (couponVerdict db time tenantId couponCode)

def shippingPricing (db : Database) (tenantId : Id) (shippingId : Option Id)
    (onlyActive : Bool) : Except Err (Option Shipping) :=
  match shippingId with
  | none => .ok none
  | some id => match Query.eval (.shipping tenantId id onlyActive) db with
    | some shipping => .ok (some shipping)
    | none => .error (.badRequest "Invalid shipping option")

/-- The totals of priced lines with a coupon and a shipping method. -/
def orderTotals (lines : List OrderLine) (coupon : Option (Id × Coupon))
    (shipping : Option Shipping) : Totals :=
  let subtotal := (lines.map fun l => l.priced.lineSubtotal).sum
  let taxTotal := (lines.map fun l => l.priced.taxAmount).sum
  let discountTotal := (coupon.map fun c =>
    applyCouponDiscount (subtotal + taxTotal) c.2.discountType c.2.discountValue).getD 0
  let shippingTotal := (shipping.map Shipping.cost).getD 0
  { subtotal, taxTotal, discountTotal, shippingTotal
    grandTotal := subtotal + taxTotal - discountTotal + shippingTotal }

/-- What `priceOrder` computes. -/
def pricing (db : Database) (time : Time) (tenantId : Id) (items : List OrderItemInput)
    (couponCode : Option String) (shippingId : Option Id) (options : PriceOptions) :
    Except Err PricedOrder := do
  let products := Query.eval (.products tenantId (items.map OrderItemInput.productId)
    options.onlyPublished) db
  let pricedLines ← items.mapM (priceLine products)
  let (coupon, couponError) ← couponPricing db time tenantId couponCode options
  let shipping ← shippingPricing db tenantId shippingId options.onlyPublished
  .ok { pricedLines, coupon, couponError, shipping
        totals := orderTotals pricedLines coupon shipping }

structure PricedParts (db : Database) (time : Time) (tenantId : Id) (items : List OrderItemInput)
    (couponCode : Option String) (shippingId : Option Id) (options : PriceOptions)
    (priced : PricedOrder) : Prop where
  lines : items.mapM (priceLine (Query.eval (.products tenantId (items.map
    OrderItemInput.productId) options.onlyPublished) db)) = .ok priced.pricedLines
  coupon : couponPricing db time tenantId couponCode options =
    .ok (priced.coupon, priced.couponError)
  shipping : shippingPricing db tenantId shippingId options.onlyPublished = .ok priced.shipping
  totals : priced.totals = orderTotals priced.pricedLines priced.coupon priced.shipping

theorem pricing_ok {db : Database} {time : Time} {tenantId : Id} {items : List OrderItemInput}
    {couponCode : Option String} {shippingId : Option Id} {options : PriceOptions}
    {priced : PricedOrder}
    (h : pricing db time tenantId items couponCode shippingId options = .ok priced) :
    PricedParts db time tenantId items couponCode shippingId options priced := by
  cases hlines : items.mapM (priceLine (Query.eval (.products tenantId (items.map
    OrderItemInput.productId) options.onlyPublished) db)) with
  | error e =>
      rw [pricing, hlines] at h
      cases h
  | ok lines =>
      rw [pricing, hlines] at h
      cases hcoupon : couponPricing db time tenantId couponCode options with
      | error e =>
          rw [hcoupon] at h
          cases h
      | ok coupon =>
          rw [hcoupon] at h
          cases hshipping : shippingPricing db tenantId shippingId options.onlyPublished with
          | error e =>
              simp only [Bind.bind, Except.bind, hshipping] at h
              cases h
          | ok shipping =>
              simp only [Bind.bind, Except.bind, hshipping] at h
              cases h
              exact ⟨hlines, hcoupon, hshipping, rfl⟩

/-- A line of a basket is priced at the price of its variant or product, with
the taxes of the product. -/
theorem priced_of_priceLine {products : Catalog} {item : OrderItemInput} {l : OrderLine}
    (h : priceLine products item = .ok l) :
    l.priced = priceLineItem ((l.variant.map fun v => v.2.price).getD l.product.price)
      item.quantity l.product.taxes := by
  unfold priceLine at h
  split at h
  · cases h
  simp only at h
  split at h
  · cases h
  split at h
  · cases h
  cases h
  rfl

/-! ## Running `priceOrder` -/

variable {answer : Answers shop} {time : Time} {db : Database}

theorem priceCoupon_gives (hclock : ClockShows time answer) (t : Id) (code : Option String)
    (options : PriceOptions) : (priceCoupon t code options).Gives (S := shop) answer db
      (couponPricing db time t code options) := by
  cases code with
  | none => exact gives_ret _
  | some code =>
      refine gives_ask (gives_invoke hclock ?_)
      cases hreason : couponReason (Query.eval (.couponByCode t code) db) time with
      | none =>
          simp only [couponPricing, couponVerdict, hreason]
          exact gives_ret _
      | some reason =>
          simp only [couponPricing, couponVerdict, hreason]
          split
          · exact gives_ret _
          · exact gives_throw _

theorem priceShipping_gives (t : Id) (shippingId : Option Id) (onlyActive : Bool) :
    (priceShipping t shippingId onlyActive).Gives (S := shop) answer db
      (shippingPricing db t shippingId onlyActive) := by
  cases shippingId with
  | none => exact gives_ret _
  | some id =>
      refine gives_ask (gives_demand (fun hnone => ?_) fun x hx => ?_)
      · have hnone' : Query.eval (.shipping t id onlyActive) db = none := hnone
        simp only [shippingPricing, hnone']
      · have hx' : Query.eval (.shipping t id onlyActive) db = some x := hx
        simp only [shippingPricing, hx']
        exact gives_ret _

/-- Run alone, `priceOrder` computes `pricing`. -/
theorem priceOrder_gives (hclock : ClockShows time answer) (t : Id) (items : List OrderItemInput)
    (code : Option String) (shippingId : Option Id) (options : PriceOptions) :
    (priceOrder t items code shippingId options).Gives (S := shop) answer db
      (pricing db time t items code shippingId options) := by
  refine gives_ask (Gives.seq (gives_ofExcept _) fun lines _ => ?_)
  refine Gives.seq (priceCoupon_gives hclock t code options) fun x _ => ?_
  obtain ⟨coupon, couponError⟩ := x
  refine Gives.seq (priceShipping_gives t shippingId options.onlyPublished) fun shipping _ => ?_
  exact gives_ret _

variable {A : (c : Call) → c.Answer → Prop} {σ : Session shop}

theorem priceCoupon_ensures (hclock : ∃ time, A .now time) (t : Id)
    (code : Option String) (options : PriceOptions) :
    (priceCoupon t code options).Ensures (S := shop) A σ fun x σ' => ∃ time, A .now time ∧
      couponPricing σ.view time t code options = .ok x ∧ σ' = σ := by
  cases code with
  | none =>
      obtain ⟨time, htime⟩ := hclock
      exact ⟨time, htime, rfl, rfl⟩
  | some code =>
      refine ensures_ask (ensures_invoke fun time htime => ?_)
      cases hreason : couponReason (Query.eval (.couponByCode t code) σ.view) time with
      | none =>
          refine ⟨time, htime, ?_, rfl⟩
          simp only [couponPricing, couponVerdict, hreason]
      | some reason =>
          simp only
          split
          · next hlenient =>
              refine ⟨time, htime, ?_, rfl⟩
              simp only [couponPricing, couponVerdict, hreason, hlenient, if_true]
          · exact trivial

theorem priceShipping_ensures (t : Id) (shippingId : Option Id) (onlyActive : Bool) :
    (priceShipping t shippingId onlyActive).Ensures (S := shop) A σ fun x σ' =>
      shippingPricing σ.view t shippingId onlyActive = .ok x ∧ σ' = σ := by
  cases shippingId with
  | none => exact ⟨rfl, rfl⟩
  | some id =>
      refine ensures_ask (ensures_demand fun x hx => ?_)
      have hx' : Query.eval (.shipping t id onlyActive) σ.view = some x := hx
      refine ⟨?_, rfl⟩
      simp only [shippingPricing, hx']

theorem priceOrder_ensures (hclock : ∃ time, A .now time) (t : Id)
    (items : List OrderItemInput) (code : Option String) (shippingId : Option Id)
    (options : PriceOptions) :
    (priceOrder t items code shippingId options).Ensures (S := shop) A σ fun x σ' =>
      ∃ time, A .now time ∧ pricing σ.view time t items code shippingId options = .ok x ∧ σ' = σ := by
  refine ensures_ask (ensures_lift fun lines hlines => ?_)
  refine Ensures.seq (priceCoupon_ensures hclock t code options) fun x σ' hx => ?_
  obtain ⟨coupon, couponError⟩ := x
  obtain ⟨time, htime, hcoupon, rfl⟩ := hx
  refine Ensures.seq (priceShipping_ensures t shippingId options.onlyPublished)
    fun shipping σ' hx => ?_
  obtain ⟨hshipping, rfl⟩ := hx
  refine ⟨time, htime, ?_, rfl⟩
  have hlines' : items.mapM (priceLine (Query.eval (.products t (items.map
    OrderItemInput.productId) options.onlyPublished) σ'.view)) = .ok lines := hlines
  rw [pricing, hlines', hcoupon, hshipping]
  rfl

end WhatStore
