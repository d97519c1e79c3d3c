import WhatStore.Services.Requests
import Mathlib.Algebra.BigOperators.Ring.List
import Mathlib.Tactic.LinearCombination

/-!
# The amount of a Stripe session

`StripeAdapter.createCheckout`: a line for each item, one for shipping and one for
tax, and a coupon for the discount. Each amount is rounded to minor units by itself,
while the webhook compares the amount of the session with the rounded total.
-/

namespace WhatStore

/-! ## What is sent -/

structure SessionLine where
  quantity : Int
  unitAmount : Int

def CheckoutContext.extraLine (ctx : CheckoutContext) (amount : Cents) : SessionLine where
  quantity := 1
  unitAmount := toMinorUnits amount ctx.currency

def CheckoutContext.lineItems (ctx : CheckoutContext) : List SessionLine :=
  (ctx.items.map fun item =>
    { quantity := item.2, unitAmount := toMinorUnits item.1 ctx.currency }) ++
  (if 0 < ctx.shippingTotal then [ctx.extraLine ctx.shippingTotal] else []) ++
  (if 0 < ctx.taxTotal then [ctx.extraLine ctx.taxTotal] else [])

/-- The amounts off of the coupons made for the session. -/
def CheckoutContext.discounts (ctx : CheckoutContext) : List Int :=
  if 0 < ctx.discountTotal then [toMinorUnits ctx.discountTotal ctx.currency] else []

def CheckoutContext.sessionAmount (ctx : CheckoutContext) : Int :=
  (ctx.lineItems.map fun line => line.unitAmount * line.quantity).sum - ctx.discounts.sum

/-! ## What the webhook expects -/

structure OrderTotals (o : Order) (items : List (Id × OrderItem)) : Prop where
  subtotal : o.subtotal = (items.map fun i => i.2.unitPrice * i.2.quantity).sum
  grandTotal : o.grandTotal = o.subtotal + o.taxTotal - o.discountTotal + o.shippingTotal
  tax_nonneg : 0 ≤ o.taxTotal
  discount_nonneg : 0 ≤ o.discountTotal
  shipping_nonneg : 0 ≤ o.shippingTotal

def wholeUnits (amount : Int) : Int := (amount + 50) / 100

/-- The hundredths of an amount that stand beyond its whole units, counted from the next
unit when there are fifty or more. -/
def oddHundredths (amount : Int) : Int :=
  if amount % 100 < 50 then amount % 100 else amount % 100 - 100

/-- The odd hundredths of the amounts an order is made of. -/
def orderOdds (o : Order) (items : List (Id × OrderItem)) : Int :=
  (items.map fun i => oddHundredths i.2.unitPrice * i.2.quantity).sum +
    oddHundredths o.shippingTotal + oddHundredths o.taxTotal - oddHundredths o.discountTotal

variable {o : Order} {items : List (Id × OrderItem)} {tenantId id : Id}

/-- The amounts that are left out are 0. -/
theorem sessionAmount_eq (h : OrderTotals o items) :
    (checkoutContext tenantId id o items).sessionAmount =
      (items.map fun i => toMinorUnits i.2.unitPrice o.currency * i.2.quantity).sum +
        toMinorUnits o.shippingTotal o.currency + toMinorUnits o.taxTotal o.currency -
          toMinorUnits o.discountTotal o.currency := by
  have hzero : toMinorUnits 0 o.currency = 0 := by
    unfold toMinorUnits
    split <;> rfl
  have hpart : ∀ amount : Cents, 0 ≤ amount → ((if 0 < amount then
      [(checkoutContext tenantId id o items).extraLine amount] else []).map
        fun line => line.unitAmount * line.quantity).sum = toMinorUnits amount o.currency := by
    intro amount hamount
    split
    · simp [CheckoutContext.extraLine, checkoutContext]
    · next hnot =>
        obtain rfl : amount = 0 := le_antisymm (not_lt.1 hnot) hamount
        exact hzero.symm
  have hdiscount : (checkoutContext tenantId id o items).discounts.sum =
      toMinorUnits o.discountTotal o.currency := by
    unfold CheckoutContext.discounts
    split
    · simp [checkoutContext]
    · next hnot =>
        have hnone : o.discountTotal = 0 := le_antisymm (not_lt.1 hnot) h.discount_nonneg
        rw [hnone, hzero]
        rfl
  rw [CheckoutContext.sessionAmount, CheckoutContext.lineItems, List.map_append, List.map_append,
    List.sum_append, List.sum_append, hdiscount]
  have hshipping := hpart o.shippingTotal h.shipping_nonneg
  have htax := hpart o.taxTotal h.tax_nonneg
  have hlines : (((checkoutContext tenantId id o items).items.map fun item =>
      ({ quantity := item.2, unitAmount := toMinorUnits item.1 o.currency } : SessionLine)).map
        fun line => line.unitAmount * line.quantity).sum =
      (items.map fun i => toMinorUnits i.2.unitPrice o.currency * i.2.quantity).sum := by
    simp [checkoutContext, Function.comp_def]
  exact congrArg₂ (· - ·) (congrArg₂ (· + ·) (congrArg₂ (· + ·) hlines hshipping) htax) rfl

theorem toMinorUnits_of_zeroDecimal {currency : String} (h : zeroDecimal currency = true)
    (amount : Cents) : toMinorUnits amount currency = wholeUnits amount := if_pos h

theorem wholeUnits_mul (amount : Int) : wholeUnits amount * 100 = amount - oddHundredths amount := by
  rw [wholeUnits, oddHundredths]
  split <;> omega

/-- In hundredths, the rounded parts are the total without the odd hundredths. -/
theorem sum_rounded (h : OrderTotals o items) :
    ((items.map fun i => wholeUnits i.2.unitPrice * i.2.quantity).sum +
      wholeUnits o.shippingTotal + wholeUnits o.taxTotal - wholeUnits o.discountTotal) * 100 =
      o.grandTotal - orderOdds o items := by
  have hitems : (items.map fun i => wholeUnits i.2.unitPrice * i.2.quantity).sum * 100 =
      (items.map fun i => i.2.unitPrice * i.2.quantity).sum -
        (items.map fun i => oddHundredths i.2.unitPrice * i.2.quantity).sum := by
    rw [← List.sum_map_mul_right, eq_sub_iff_add_eq, ← List.sum_map_add]
    refine congrArg List.sum (List.map_congr_left fun i _ => ?_)
    have hunit := wholeUnits_mul i.2.unitPrice
    linear_combination hunit * i.2.quantity
  rw [h.grandTotal, h.subtotal, sub_mul, add_mul, add_mul, hitems, wholeUnits_mul, wholeUnits_mul,
    wholeUnits_mul, orderOdds]
  ring

/-- **The session charges the total** exactly when the currency has a minor unit, or the
odd hundredths of the unit prices, as often as they are bought, of the shipping and of the
tax, less those of the discount, come to no less than -50 and to less than 50. -/
theorem session_charges_total_iff (h : OrderTotals o items) :
    (checkoutContext tenantId id o items).sessionAmount = toMinorUnits o.grandTotal o.currency ↔
      zeroDecimal o.currency = false ∨ (-50 ≤ orderOdds o items ∧ orderOdds o items < 50) := by
  rw [sessionAmount_eq h]
  cases hzero : zeroDecimal o.currency with
  | false =>
      refine iff_of_true ?_ (.inl rfl)
      simp only [toMinorUnits_of_decimal hzero]
      rw [h.grandTotal, h.subtotal]
      ring
  | true =>
      simp only [toMinorUnits_of_zeroDecimal hzero, Bool.true_eq_false, false_or]
      have hsum := sum_rounded h
      -- the rounded parts are a whole number, which is the rounded total when it is near enough
      have hnear : ∀ parts total odds : Int, parts * 100 = total - odds →
          (parts = wholeUnits total ↔ -50 ≤ odds ∧ odds < 50) := by
        intro parts total odds heq
        rw [wholeUnits]
        omega
      exact hnear _ _ _ hsum

def stickers : Order :=
  { Order.fresh .stripe 150 with currency := "JPY", subtotal := 150 }

def sticker : Id × OrderItem := (1, ⟨0, 0, some 1, none, 50, 3, 0, 150, []⟩)

theorem stickers_totals : OrderTotals stickers [sticker] :=
  ⟨rfl, rfl, le_rfl, le_rfl, le_rfl⟩

theorem session_overcharges : ¬ ∀ (tenantId id : Id) (o : Order) (items : List (Id × OrderItem)),
    OrderTotals o items →
    (checkoutContext tenantId id o items).sessionAmount = toMinorUnits o.grandTotal o.currency := by
  intro h
  exact absurd (h 0 0 stickers [sticker] stickers_totals) (by decide +kernel)

def oneSticker : Order := { stickers with subtotal := 50, grandTotal := 50 }

theorem oneSticker_totals : OrderTotals oneSticker [(1, { sticker.2 with quantity := 1 })] :=
  ⟨rfl, rfl, le_rfl, le_rfl, le_rfl⟩

theorem session_charges_total_yen :
    (checkoutContext 0 0 oneSticker [(1, { sticker.2 with quantity := 1 })]).sessionAmount =
      toMinorUnits 50 "JPY" :=
  (session_charges_total_iff oneSticker_totals).2 (.inr (by decide))

end WhatStore
