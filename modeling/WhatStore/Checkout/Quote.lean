import WhatStore.Checkout.Lines
import WhatStore.Safety.Shelf

/-!
# Quotes

A quote and an order of the same basket are priced by the same function, so the
customer is charged what was shown, and a basket is rejected by the pricing of
an order exactly when its quote fails or reports the coupon.

The stock verdict of a quote looks at each line by itself. It is exact unless
lines that the shelf could each serve alone ask together for more than it has.
-/

namespace WhatStore

open ReadCommitted ReadCommitted.Prog

variable {answer : Answers shop} {time : Time} {db : Database}

/-! ## Totals -/

/-- A coupon that rejects an order is reported to its quote, and nothing else
tells the two pricings apart. -/
theorem pricing_strict (db : Database) (time : Time) (t : Id) (items : List OrderItemInput)
    (code : Option String) (shippingId : Option Id) (published : Bool) :
    (∀ x, pricing db time t items code shippingId ⟨false, published⟩ = .ok x →
        pricing db time t items code shippingId ⟨true, published⟩ = .ok x) ∧
      ((∃ e, pricing db time t items code shippingId ⟨false, published⟩ = .error e) ↔
        (∃ e, pricing db time t items code shippingId ⟨true, published⟩ = .error e) ∨
          ∃ x, pricing db time t items code shippingId ⟨true, published⟩ = .ok x ∧
            x.couponError ≠ none) := by
  cases hlines : items.mapM (priceLine (Query.eval (.products t (items.map
    OrderItemInput.productId) published) db)) with
  | error e =>
      have hfails : ∀ lenient, pricing db time t items code shippingId ⟨lenient, published⟩ =
          .error e := fun lenient => by
        rw [pricing, hlines]
        rfl
      refine ⟨fun x hx => ?_, ⟨fun _ => .inl ⟨e, hfails true⟩, fun _ => ⟨e, hfails false⟩⟩⟩
      rw [hfails] at hx
      cases hx
  | ok lines =>
      rcases hv : couponVerdict db time t code with ⟨coupon, couponError⟩
      have hrest : ∀ lenient, couponPricing db time t code ⟨lenient, published⟩ =
          .ok (coupon, couponError) → pricing db time t items code shippingId ⟨lenient, published⟩ =
            (shippingPricing db t shippingId published).map fun shipping =>
              { pricedLines := lines, coupon, couponError, shipping
                totals := orderTotals lines coupon shipping } := fun lenient hcoupon => by
        rw [pricing, hlines]
        simp only [Bind.bind, Except.bind, hcoupon]
        cases shippingPricing db t shippingId published <;> rfl
      have hlenient := hrest true (by
        rw [couponPricing, hv]
        cases couponError <;> rfl)
      cases couponError with
      | none =>
          have hstrict := hrest false (by
            rw [couponPricing, hv])
          rw [hstrict, hlenient]
          refine ⟨fun x hx => hx, fun h => .inl h, ?_⟩
          rintro (h | ⟨x, hx, herror⟩)
          · exact h
          · cases hshipping : shippingPricing db t shippingId published with
            | error e => exact ⟨e, rfl⟩
            | ok shipping =>
                rw [hshipping] at hx
                cases hx
                exact absurd rfl herror
      | some reason =>
          have hstrict : pricing db time t items code shippingId ⟨false, published⟩ =
              .error (.badRequest reason) := by
            rw [pricing, hlines]
            simp only [Bind.bind, Except.bind, couponPricing, hv]
            rfl
          refine ⟨fun x hx => ?_, fun _ => ?_, fun _ => ⟨_, hstrict⟩⟩
          · rw [hstrict] at hx
            cases hx
          · rw [hlenient]
            cases hshipping : shippingPricing db t shippingId published with
            | error e => exact .inl ⟨e, rfl⟩
            | ok shipping => exact .inr ⟨_, rfl, by simp⟩

/-- Run alone, `quote` tells what `pricing` computes. -/
theorem quote_gives {tenant : Tenant} (hclock : ClockShows time answer) (t : Id)
    (htenant : db.row (.tenant t) = some tenant) (dto : QuoteOrder) :
    (quote t dto).Gives (S := shop) answer db
      ((pricing db time t dto.items dto.couponCode dto.shippingId ⟨true, true⟩).map
        fun priced => priced.quoted tenant dto) := by
  have htenant' : shop.eval (.tenant t) db = some tenant := htenant
  refine gives_ask (gives_demand (fun hnone => ?_) fun x hx => ?_)
  · rw [htenant'] at hnone
    cases hnone
  · cases htenant'.symm.trans hx
    have hprice : (priceOrder t dto.items dto.couponCode dto.shippingId ⟨true, true⟩).Gives
        (S := shop) answer db _ := priceOrder_gives hclock t _ _ _ _
    have h := Gives.seq hprice fun priced _ => gives_ret (priced.quoted tenant dto)
    cases hpricing : pricing db time t dto.items dto.couponCode dto.shippingId ⟨true, true⟩ with
    | ok priced =>
        rw [hpricing] at h
        exact h
    | error e =>
        rw [hpricing] at h
        exact h

/-- The amounts of a line, with what it is a line of. -/
structure LineAmounts where
  productId : Option Id
  variantId : Option Id
  unitPrice : Cents
  quantity : Int
  taxAmount : Cents
  lineTotal : Cents

def OrderItem.amounts (i : OrderItem) : LineAmounts :=
  ⟨i.productId, i.variantId, i.unitPrice, i.quantity, i.taxAmount, i.lineTotal⟩

def QuoteLine.amounts (l : QuoteLine) : LineAmounts :=
  ⟨some l.productId, l.variantId, l.unitPrice, l.quantity, l.taxAmount, l.lineTotal⟩

def Order.totals (o : Order) : Totals :=
  ⟨o.subtotal, o.taxTotal, o.discountTotal, o.shippingTotal, o.grandTotal⟩

def CreateOrder.toQuote (dto : CreateOrder) : QuoteOrder where
  items := dto.items
  items_ne := dto.items_ne
  items_le := dto.items_le
  couponCode := dto.couponCode
  shippingId := dto.shippingId

theorem amounts_newItem (t id : Id) (l : OrderLine) :
    (newItem t id l.toPricedLine l.priced).amounts = l.quoted.amounts := rfl

theorem atTime_of_clockShows (h : ClockShows time answer) (n : ℕ) (c : Call) :
    AtTime time c (answer n c) := by
  cases c with
  | now => exact h n
  | _ => exact trivial

/-- A quote and an order of one basket in one store at one time: if the order is
placed, its totals and the amounts of its lines are those of the quote; and the
pricing of the order fails exactly when the quote fails or reports the coupon. -/
theorem quote_agrees {answer answer' : Answers shop} {time : Time} {db : Database} {t : Id}
    {tenant : Tenant} {dto : CreateOrder} (htenant : db.row (.tenant t) = some tenant)
    (hkeys : ForeignKeys db) (hclock : ClockShows time answer) (hclock' : ClockShows time answer') :
    (∀ q, ((quote t dto.toQuote).exec (S := shop) answer 0 (.start db)).value = .ok q →
        Succeeds (S := shop) answer' (create t dto) db →
        ∃ id o, db.row (.order id) = none ∧
          (serve (S := shop) answer' (create t dto) db).row (.order id) = some o ∧
          (∀ id', id' ≠ id → (serve (S := shop) answer' (create t dto) db).row (.order id') =
            db.row (.order id')) ∧
          o.totals = q.totals ∧
          List.Perm ((itemsOf (serve (S := shop) answer' (create t dto) db) id).map
            fun i => i.2.amounts) (q.items.map QuoteLine.amounts)) ∧
      ((∃ e, ((priceOrder t dto.items dto.couponCode dto.shippingId ⟨false, true⟩).exec (S := shop)
          answer' 0 (.start db)).value = .error e) ↔
        (∃ e, ((quote t dto.toQuote).exec (S := shop) answer 0 (.start db)).value = .error e) ∨
          ∃ q, ((quote t dto.toQuote).exec (S := shop) answer 0 (.start db)).value = .ok q ∧
            q.couponError ≠ none) := by
  obtain ⟨hsame, hfails⟩ := pricing_strict db time t dto.items dto.couponCode dto.shippingId true
  have hquote : ((quote t dto.toQuote).exec (S := shop) answer 0 (.start db)).value =
      (pricing db time t dto.items dto.couponCode dto.shippingId ⟨true, true⟩).map
        fun priced => priced.quoted tenant dto.toQuote :=
    (quote_gives hclock t htenant dto.toQuote).value
  have hprice : ((priceOrder t dto.items dto.couponCode dto.shippingId ⟨false, true⟩).exec
      (S := shop) answer' 0 (.start db)).value = _ := (priceOrder_gives hclock' t _ _ _ _).value
  constructor
  · intro q hq hcreate
    obtain ⟨_, id, o, priced, rfl, hplaced⟩ := (create_ensures ⟨time, rfl⟩ t dto db).of_exec
      (atTime_of_clockShows hclock') hcreate
    obtain ⟨tenant', createdAt, status, -, rfl⟩ := hplaced.order
    rw [hquote, hsame priced hplaced.pricing] at hq
    cases hq
    refine ⟨id, _, hplaced.new, hplaced.row, hplaced.others, rfl, ?_⟩
    have hlines := hplaced.lines.map OrderItem.amounts
    rw [hkeys.no_lines hplaced.new, List.map_nil, List.nil_append, List.map_map, List.map_map]
      at hlines
    refine hlines.trans (List.Perm.of_eq ?_)
    simp [PricedOrder.quoted, Function.comp_def, amounts_newItem]
  · rw [hprice, hquote, hfails]
    generalize pricing db time t dto.items dto.couponCode dto.shippingId ⟨true, true⟩ = lenient
    cases lenient with
    | error e => simp [Except.map]
    | ok priced => simp [Except.map, PricedOrder.quoted]

def steady (x : Outside) : Answers shop := fun _ => x.answer

/-- Answers whose fresh ids count up from `first`. -/
def counting (first : Id) : Answers shop := fun n => { fresh := first + n : Outside }.answer

theorem mugStore_foreignKeys : ForeignKeys mugStore := foreignKeys_of_check (by decide +kernel)

/-- Two mugs are quoted and ordered. -/
theorem quote_agrees_mugs : ∃ q id o,
    ((quote 0 twoMugs.toQuote).exec (S := shop) (steady {}) 0 (.start mugStore)).value = .ok q ∧
      (serve (S := shop) (steady {}) (create 0 twoMugs) mugStore).row (.order id) = some o ∧
      o.totals = q.totals := by
  obtain ⟨q, hq⟩ := exists_ok (by decide +kernel :
    ((quote 0 twoMugs.toQuote).exec (S := shop) (steady {}) 0 (.start mugStore)).value.isOk = true)
  have hcreate : Succeeds (S := shop) (steady {}) (create 0 twoMugs) mugStore :=
    succeeds_of_isOk (by decide +kernel)
  obtain ⟨id, o, -, ho, -, htotals, -⟩ := (quote_agrees rfl
    mugStore_foreignKeys (fun _ => rfl) (fun _ => rfl)).1 q hq hcreate
  exact ⟨q, id, o, hq, ho, htotals⟩

end WhatStore
