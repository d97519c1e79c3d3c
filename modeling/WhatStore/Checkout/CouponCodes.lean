import WhatStore.Checkout.Quote
import WhatStore.Services.Coupons

/-!
# Coupon codes

A customer checks a code before the order and sends it again with the order. The check looks
up the upper-cased code, the order the trimmed and upper-cased one, and an order with an
empty code looks up nothing. Whatever the two functions on strings do, the answers agree
when both look up the same code, and otherwise only where neither finds a usable coupon.
-/

namespace WhatStore

open ReadCommitted ReadCommitted.Prog

variable {answer : Answers shop} {time : Time} {db : Database} {tenantId : Id}
  {toUpperCase trim : String → String}

/-- How a request that reads only ends when it is served alone. -/
def result {α : Type} (answer : Answers shop) (p : Prog shop α) (db : Database) : Except Err α :=
  (p.exec (S := shop) answer 0 (.start db)).value

/-! ## Usable coupons -/

/-- The coupon stored under a code, if it can be used. -/
def usable (db : Database) (time : Time) (tenantId : Id) (code : String) : Option (Id × Coupon) :=
  (Query.eval (.couponByCode tenantId code) db).filter fun c => (couponReason (some c) time).isNone

/-- A coupon of the store with this code is active, has not expired and has uses left. -/
def Usable (db : Database) (time : Time) (tenantId : Id) (code : String) : Prop :=
  ∃ c, usable db time tenantId code = some c

theorem code_of_usable {code : String} {c : Id × Coupon}
    (h : usable db time tenantId code = some c) : c.2.code = code := by
  obtain ⟨hfound, -⟩ := Option.filter_eq_some_iff.1 h
  obtain ⟨k, -, hk⟩ := List.exists_of_findSome?_eq_some hfound
  cases k with
  | coupon id =>
      obtain ⟨coupon, hcoupon, rfl⟩ := Option.map_eq_some_iff.1 hk
      have hkept := (Option.filter_eq_some_iff.1 hcoupon).2
      simp only [Bool.and_eq_true, beq_iff_eq] at hkept
      exact hkept.1.2
  | _ => cases hk

theorem usable_of_none {code : String} (h : Query.eval (.couponByCode tenantId code) db = none) :
    usable db time tenantId code = none := by
  simp [usable, h]

theorem usable_of_reason {code : String} {c : Id × Coupon}
    (h : Query.eval (.couponByCode tenantId code) db = some c) :
    usable db time tenantId code =
      match couponReason (some c) time with
      | some _ => none
      | none => some c := by
  unfold usable
  rw [h]
  cases hreason : couponReason (some c) time <;> simp [hreason]

def couponCheck (db : Database) (time : Time) (tenantId : Id) (code : String) :
    Except Err (Id × Coupon) :=
  match Query.eval (.couponByCode tenantId code) db with
  | none => .error (.badRequest "Invalid or inactive coupon")
  | some c => match couponReason (some c) time with
    | some reason => .error (.badRequest reason)
    | none => .ok c

theorem couponCheck_eq_ok {code : String} {c : Id × Coupon} :
    couponCheck db time tenantId code = .ok c ↔ usable db time tenantId code = some c := by
  cases hfound : Query.eval (.couponByCode tenantId code) db with
  | none => simp [couponCheck, usable_of_none hfound, hfound]
  | some found =>
      rw [usable_of_reason hfound]
      cases hreason : couponReason (some found) time <;> simp [couponCheck, hfound, hreason]

theorem couponCheck_bind {β : Type} {code : String} {f : Id × Coupon → β} {v : β} :
    (couponCheck db time tenantId code >>= fun c => .ok (f c)) = (.ok v : Except Err β) ↔
      ∃ c, usable db time tenantId code = some c ∧ v = f c := by
  constructor
  · intro h
    cases hcheck : couponCheck db time tenantId code with
    | error e =>
        rw [hcheck] at h
        cases h
    | ok c =>
        rw [hcheck] at h
        cases h
        exact ⟨c, couponCheck_eq_ok.1 hcheck, rfl⟩
  · rintro ⟨c, hc, rfl⟩
    rw [couponCheck_eq_ok.2 hc]
    rfl

theorem validCoupon_gives (hclock : ClockShows time answer) (code : String) :
    (CouponsService.validCoupon toUpperCase tenantId code).Gives (S := shop) answer db
      (couponCheck db time tenantId (toUpperCase code)) := by
  unfold couponCheck
  apply gives_ask
  apply gives_demand
  · intro hnone
    have hnone' : Query.eval (.couponByCode tenantId (toUpperCase code)) db = none := hnone
    rw [hnone']
  · intro c hc
    have hc' : Query.eval (.couponByCode tenantId (toUpperCase code)) db = some c := hc
    simp only [hc', couponReason]
    refine gives_invoke (fun n => hclock n) (gives_check (fun hexpired => ?_) fun hopen => ?_)
    · simp [hexpired]
    · refine gives_check (fun hfull => ?_) fun hroom => ?_
      · simp [hopen, hfull]
      · simp only [hopen, hroom, Bool.false_eq_true, if_false]
        exact gives_ret c

def validated (subtotal : Cents) (c : Id × Coupon) : CouponsService.Validated :=
  let discount := applyCouponDiscount subtotal c.2.discountType c.2.discountValue
  { code := c.2.code, discountType := c.2.discountType, discountValue := c.2.discountValue
    discountAmount := discount, total := subtotal - discount }

theorem validate_gives (hclock : ClockShows time answer) (code : String) (subtotal : Cents) :
    (CouponsService.validate toUpperCase tenantId code subtotal).Gives (S := shop) answer db
      (couponCheck db time tenantId (toUpperCase code) >>= fun c => .ok (validated subtotal c)) :=
  (validCoupon_gives hclock code).seq fun _ _ => gives_ret _

/-! ## Orders with a coupon -/

variable {items : List OrderItemInput} {shippingId : Option Id} {published : Bool}

/-- An order that would do without a coupon is accepted with it when the coupon can be used. -/
theorem pricing_coupon {code : Option String} {base : PricedOrder}
    (hbase : pricing db time tenantId items none shippingId ⟨false, published⟩ = .ok base)
    {c : Id × Coupon} :
    (∃ priced, pricing db time tenantId items code shippingId ⟨false, published⟩ = .ok priced ∧
      priced.coupon = some c) ↔
      ∃ stored, code = some stored ∧ usable db time tenantId stored = some c := by
  have hparts := pricing_ok hbase
  have hpricing : pricing db time tenantId items code shippingId ⟨false, published⟩ =
      (couponPricing db time tenantId code ⟨false, published⟩).map fun x =>
        { pricedLines := base.pricedLines, coupon := x.1, couponError := x.2
          shipping := base.shipping
          totals := orderTotals base.pricedLines x.1 base.shipping } := by
    have hlines := hparts.lines
    have hshipping := hparts.shipping
    simp only at hlines hshipping
    rw [pricing, hlines]
    cases hcoupon : couponPricing db time tenantId code ⟨false, published⟩ with
    | error e => rfl
    | ok x =>
        simp only [Bind.bind, Except.bind, hshipping]
        rfl
  rw [hpricing]
  cases code with
  | none => simp [couponPricing, couponVerdict, Except.map]
  | some stored =>
      simp only [couponPricing, couponVerdict, Option.some.injEq, exists_eq_left']
      cases hfound : Query.eval (.couponByCode tenantId stored) db with
      | none => simp [usable_of_none hfound, couponReason, Except.map]
      | some found =>
          rw [usable_of_reason hfound]
          cases couponReason (some found) time <;> simp [Except.map]

/-! ## Agreement -/

/-- The check of a code and the pricing of an order with it agree, for one basket: the same
coupon is accepted or none is, and it takes the same discount off the same total. -/
structure Agrees (answer : Answers shop) (db : Database) (toUpperCase trim : String → String)
    (tenantId : Id) (items : List OrderItemInput) (shippingId : Option Id) (published : Bool)
    (couponCode : String) : Prop where
  accepted : ∀ subtotal,
    (∃ v, result answer (CouponsService.validate toUpperCase tenantId couponCode subtotal) db =
      .ok v) ↔ ∃ priced c, result answer (priceOrder tenantId items
        (orderCode toUpperCase trim couponCode) shippingId ⟨false, published⟩) db = .ok priced ∧
          priced.coupon = some c
  coupon : ∀ c, result answer (CouponsService.validCoupon toUpperCase tenantId couponCode) db = .ok c ↔
    ∃ priced, result answer (priceOrder tenantId items (orderCode toUpperCase trim couponCode)
      shippingId ⟨false, published⟩) db = .ok priced ∧ priced.coupon = some c
  discount : ∀ priced v c, result answer (priceOrder tenantId items
      (orderCode toUpperCase trim couponCode) shippingId ⟨false, published⟩) db = .ok priced →
    priced.coupon = some c →
    result answer (CouponsService.validate toUpperCase tenantId couponCode
      (priced.totals.subtotal + priced.totals.taxTotal)) db = .ok v →
    v.discountAmount = priced.totals.discountTotal

/-- For any basket that is fine without a coupon, the check and the order agree on a code
exactly when it is not empty and trimming leaves its upper-cased form alone, or no coupon
that either of them looks up can be used. -/
theorem coupon_check_agrees_iff (hclock : ClockShows time answer) {base : PricedOrder}
    (hbase : result answer (priceOrder tenantId items none shippingId ⟨false, published⟩) db =
      .ok base) (couponCode : String) :
    Agrees answer db toUpperCase trim tenantId items shippingId published couponCode ↔
      (couponCode ≠ "" ∧ toUpperCase (trim couponCode) = toUpperCase couponCode) ∨
        (¬ Usable db time tenantId (toUpperCase couponCode) ∧
          (couponCode = "" ∨ ¬ Usable db time tenantId (toUpperCase (trim couponCode)))) := by
  have hpriced : ∀ code, result answer (priceOrder tenantId items code shippingId
      ⟨false, published⟩) db = pricing db time tenantId items code shippingId ⟨false, published⟩ :=
    fun code => (priceOrder_gives hclock tenantId items code shippingId _).value
  have hchecked : ∀ c, result answer (CouponsService.validCoupon toUpperCase tenantId couponCode) db =
      .ok c ↔ usable db time tenantId (toUpperCase couponCode) = some c := by
    intro c
    rw [result, (validCoupon_gives hclock couponCode).value]
    exact couponCheck_eq_ok
  have hordered : ∀ c, (∃ priced, result answer (priceOrder tenantId items
      (orderCode toUpperCase trim couponCode) shippingId ⟨false, published⟩) db = .ok priced ∧
        priced.coupon = some c) ↔ couponCode ≠ "" ∧
          usable db time tenantId (toUpperCase (trim couponCode)) = some c := by
    intro c
    rw [hpriced] at hbase
    rw [hpriced, pricing_coupon hbase, orderCode]
    by_cases hempty : couponCode = "" <;> simp [hempty]
  constructor
  · intro h
    cases hfound : usable db time tenantId (toUpperCase couponCode) with
    | some c =>
        obtain ⟨hcode, htrimmed⟩ := (hordered c).1 ((h.coupon c).1 ((hchecked c).2 hfound))
        left
        exact ⟨hcode, (code_of_usable htrimmed).symm.trans (code_of_usable hfound)⟩
    | none =>
        right
        refine ⟨by simp [Usable, hfound], or_iff_not_imp_left.2 fun hcode => ?_⟩
        rintro ⟨c, hc⟩
        have hboth := (hchecked c).1 ((h.coupon c).2 ((hordered c).2 ⟨hcode, hc⟩))
        exact nomatch hfound.symm.trans hboth
  · intro h
    have hcoupon : ∀ c, usable db time tenantId (toUpperCase couponCode) = some c ↔
        couponCode ≠ "" ∧ usable db time tenantId (toUpperCase (trim couponCode)) = some c := by
      intro c
      rcases h with ⟨hcode, hsame⟩ | ⟨hchecked, hordered⟩
      · rw [hsame]
        simp [hcode]
      · constructor
        · intro hc
          exact (hchecked ⟨c, hc⟩).elim
        · rintro ⟨hcode, hc⟩
          exact ((hordered.resolve_left hcode) ⟨c, hc⟩).elim
    have hvalid : ∀ subtotal v, result answer (CouponsService.validate toUpperCase tenantId
        couponCode subtotal) db = .ok v ↔
          ∃ c, usable db time tenantId (toUpperCase couponCode) = some c ∧
            v = validated subtotal c := by
      intro subtotal v
      rw [result, (validate_gives hclock couponCode subtotal).value]
      exact couponCheck_bind
    constructor
    · intro subtotal
      constructor
      · rintro ⟨v, hv⟩
        obtain ⟨c, hc, -⟩ := (hvalid subtotal v).1 hv
        obtain ⟨priced, hpriced, hcoupon'⟩ := (hordered c).2 ((hcoupon c).1 hc)
        exact ⟨priced, c, hpriced, hcoupon'⟩
      · rintro ⟨priced, c, hok, hcoupon'⟩
        have hc := (hcoupon c).2 ((hordered c).1 ⟨priced, hok, hcoupon'⟩)
        exact ⟨_, (hvalid subtotal _).2 ⟨c, hc, rfl⟩⟩
    · intro c
      exact (hchecked c).trans ((hcoupon c).trans (hordered c).symm)
    · intro priced v c hok hcoupon' hv
      have hc := (hcoupon c).2 ((hordered c).1 ⟨priced, hok, hcoupon'⟩)
      obtain ⟨c', hc', rfl⟩ := (hvalid _ v).1 hv
      cases hc.symm.trans hc'
      rw [hpriced] at hok
      rw [(pricing_ok hok).totals, hcoupon']
      rfl

/-! ### A store with one coupon -/

def CouponTable (toUpperCase : String → String) : Database → Database → Prop :=
  Relation.ReflTransGen fun db db' => ∃ r, db' = CouponsService.serve toUpperCase db r

def trimBlanks (s : String) : String :=
  String.ofList ((s.toList.dropWhile Char.isWhitespace).reverse.dropWhile Char.isWhitespace).reverse

def tenthOff (code : String) : CouponsService.Request :=
  .create 0 ⟨code, .percentage, 1000, none, none, none⟩ 1

theorem coupon_check_agrees_mugs : ∃ db, CouponTable String.toUpper mugStore db ∧
    Usable db 0 0 "SAVE" ∧
      Agrees (steady {}) db String.toUpper trimBlanks 0 twoMugs.items none true "save" := by
  refine ⟨CouponsService.serve String.toUpper mugStore (tenthOff "save"),
    .single ⟨_, rfl⟩, Option.isSome_iff_exists.1 (by decide +kernel), ?_⟩
  have hbase : ((result (steady {}) (priceOrder 0 twoMugs.items none none ⟨false, true⟩)
      (CouponsService.serve String.toUpper mugStore (tenthOff "save"))).toOption).isSome = true := by
    decide +kernel
  obtain ⟨base, hbase⟩ := Option.isSome_iff_exists.1 hbase
  apply (coupon_check_agrees_iff (fun _ => rfl) (eq_ok_of_toOption hbase) "save").2
  exact .inl ⟨by decide, by decide +kernel⟩

/-- The check accepts a code that starts with a blank, as it was stored, and the order does
not. -/
theorem coupon_check_disagrees : ¬ ∀ db, CouponTable String.toUpper mugStore db →
    ∀ code, Agrees (steady {}) db String.toUpper trimBlanks 0 twoMugs.items none true code := by
  intro hclaim
  have hagrees := hclaim (CouponsService.serve String.toUpper mugStore (tenthOff " save"))
    (.single ⟨_, rfl⟩) " save"
  have hchecked : (result (steady {}) (CouponsService.validate String.toUpper 0 " save" 2000)
      (CouponsService.serve String.toUpper mugStore (tenthOff " save"))).isOk = true := by
    decide +kernel
  have hordered : (result (steady {}) (priceOrder 0 twoMugs.items
      (orderCode String.toUpper trimBlanks " save") none ⟨false, true⟩)
      (CouponsService.serve String.toUpper mugStore (tenthOff " save"))).isOk = false := by
    decide +kernel
  obtain ⟨priced, c, hpriced, -⟩ := (hagrees.accepted 2000).1 (exists_ok hchecked)
  rw [hpriced] at hordered
  cases hordered

end WhatStore
