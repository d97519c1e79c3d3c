import WhatStore.Safety.OrderRule

/-!
# What a paid online order says

An online order that is marked paid should carry the id of its payment, and its
total should be what the provider charged. Settlements establish this. It is
lost when staff mark a PayPal order paid, which `updateDetails` refuses for the
other two providers only, when an edit gives a paid order a new total, when a
settlement writes an order whose total was edited since it compared the
amounts, and when a provider settles without an id or for an order of another
provider. Apart from these, it holds in every run.
-/

namespace WhatStore

open ReadCommitted

/-- What each provider has charged for a payment: minor units and currency. -/
abbrev Charges := Gateway → Id → Option (Int × String)

/-- A paid online order has its payment recorded, and the provider charged its
total for it. -/
def Order.truthful (charges : Charges) (o : Order) : Prop :=
  ∀ g, o.fulfillmentMethod.gateway = some g → o.paymentStatus = .paid →
    ∃ p, o.payment g = some p ∧
      charges g p = some (toMinorUnits o.grandTotal o.currency, o.currency)

def Request.handlesPayment : Request → Bool
  | .create _ _ => true
  | .createStripeCheckout _ _ => true
  | .createMercadoPagoCheckout _ _ => true
  | .createPayPalCheckout _ _ => true
  | .capturePayPalOrder _ _ => true
  | .stripeWebhook _ => true
  | .mercadoPagoWebhook _ => true
  | .payPalWebhook _ => true
  | .confirmZellePayment _ _ => true
  | .updateStatus _ _ _ _ => true
  | .updateDetails _ _ _ => true
  | _ => false

def reportsCharges (charges : Charges) (w : StoreWorld) (i : ℕ) (r : Request)
    (_ : Event shop) : Prop :=
  ∀ g id p amount currency, Reports r (w.own i) g id (some p) (some amount) (some currency) →
    charges g p = some (amount, currency)

/-- A settlement has a payment id, is by the order's own provider, and finds
the total that was reported; an edit does not mark an online order paid and
does not change the total of a paid one. -/
def sparesTruth (w : StoreWorld) (i : ℕ) (r : Request) : Event shop → Prop
  | .update (.settle id g payment) true => payment.isSome = true ∧
      ∀ o, (w.view i).row (.order id) = some o →
        (∀ g', o.fulfillmentMethod.gateway = some g' → g' = g) ∧
        ∀ amount currency,
          Reports r (w.own i) g id payment (some amount) (some currency) →
            amount = toMinorUnits o.grandTotal o.currency
  | .update (.editOrder id edit) true => ∀ o, (w.view i).row (.order id) = some o →
      o.fulfillmentMethod.gateway.isSome = true → edit.paymentStatus ≠ some .paid ∧
        (o.paymentStatus = .paid → edit.paymentStatus = none →
          ∀ totals, edit.totals = some totals → totals.grandTotal = o.grandTotal)
  | _ => True

/-- The rule that the order `id` is truthful; the method and the currency of an
order never change. -/
def truthRule (charges : Charges) (id : Id) : OrderRule where
  ok j o := j = id → o.truthful charges
  rel _ o o' := o'.fulfillmentMethod = o.fulfillmentMethod ∧ o'.currency = o.currency
  refl _ _ := ⟨rfl, rfl⟩
  trans _ _ _ _ h₁₂ h₂₃ := ⟨h₂₃.1.trans h₁₂.1, h₂₃.2.trans h₁₂.2⟩

theorem record_payment (o : Order) (g : Gateway) (p : Id) :
    (o.record g (some p)).payment g = some p := by
  cases g <;> rfl

theorem record_terms (o : Order) (g : Gateway) (payment : Option Id) :
    (o.record g payment).fulfillmentMethod = o.fulfillmentMethod ∧
      (o.record g payment).currency = o.currency ∧
      (o.record g payment).grandTotal = o.grandTotal := by
  cases payment with
  | none => cases g <;> exact ⟨rfl, rfl, rfl⟩
  | some p => cases g <;> exact ⟨rfl, rfl, rfl⟩

theorem truthRule_kept (charges : Charges) (id : Id) {starts : Request → Prop} :
    (truthRule charges id).Kept starts
      (fun w i r e => reportsCharges charges w i r e ∧ sparesTruth w i r e) where
  insert r h j o hlaw _ g _ hpaid := by
    obtain ⟨t, dto, tenant, coupon, totals, time, -, rfl⟩ := hlaw
    cases hpaid
  write w i r u j o o' _ hwrite ho hlaw hallow hfinds := by
    obtain ⟨hcharges, hspares⟩ := hallow
    cases hwrite with
    | confirmMessage => exact ⟨hfinds.ok, rfl, rfl⟩
    | claimStatus _ old new pay =>
        refine ⟨fun hj g hg hpaid => ?_, rfl, rfl⟩
        obtain ⟨-, o₀, -, -, -, -, rfl⟩ := hlaw
        rcases o₀.paymentData_cases new with hdata | hdata
        · rw [hdata] at hpaid
          exact hfinds.ok hj g hg hpaid
        · rw [hdata] at hpaid
          cases hpaid
    | restatus _ status pay =>
        refine ⟨fun hj g hg hpaid => ?_, rfl, rfl⟩
        obtain ⟨-, o₀, -, -, rfl, hsome⟩ := hlaw
        rcases o₀.paymentData_cases status with hdata | hdata
        · rw [hdata] at hsome
          cases hsome
        · rw [hdata] at hpaid
          cases hpaid
    | editOrder _ e =>
        refine ⟨fun hj g hg hpaid => ?_, rfl, rfl⟩
        have honline : o.fulfillmentMethod.gateway = some g := hg
        obtain ⟨hnot, htotals⟩ := hspares o ho (by rw [honline]; rfl)
        obtain ⟨t, dto, -, o₀, -, -, hpay, -⟩ := hlaw
        cases he : e.paymentStatus with
        | some p =>
            simp only [Order.edit, he, Option.getD_some] at hpaid
            exact absurd (hpaid ▸ he) hnot
        | none =>
            simp only [Order.edit, he, Option.getD_none] at hpaid
            have hsame : (o.edit e).grandTotal = o.grandTotal := by
              cases het : e.totals with
              | none => simp [Order.edit, het]
              | some totals => simpa [Order.edit, het] using htotals hpaid he totals het
            rw [hsame]
            exact hfinds.ok hj g hg hpaid
    | settle _ g payment =>
        obtain ⟨hmethod, hcurrency, htotal⟩ := record_terms o g payment
        refine ⟨fun hj g' hg' _ => ?_, hmethod, hcurrency⟩
        obtain ⟨hsome, hrow⟩ := hspares
        obtain ⟨p, rfl⟩ := Option.isSome_iff_exists.1 hsome
        obtain ⟨hown, hamount⟩ := hrow o ho
        obtain ⟨-, o₀, hsaw, -, -, -, hreports⟩ := hlaw
        have hg : g' = g := hown g' (hmethod ▸ hg')
        subst hg
        refine ⟨p, record_payment o g' p, ?_⟩
        -- the charge is the reported amount, which is still the total of the order
        have hcharge := hcharges g' j p _ _ hreports
        rw [hamount _ _ hreports, ← (hfinds.saw o₀ hsaw).2.2] at hcharge
        simpa only [htotal, hcurrency] using hcharge
    | failPayPal => exact ⟨fun _ g _ hpaid => (nomatch hpaid), rfl, rfl⟩
    | sweepCancel => exact ⟨hfinds.ok, rfl, rfl⟩
    | markLost _ lost =>
        cases lost with
        | refunded => exact ⟨fun _ g _ hpaid => (nomatch hpaid), rfl, rfl⟩
        | disputed => exact ⟨fun _ g _ hpaid => (nomatch hpaid), rfl, rfl⟩
    | confirmManual =>
        refine ⟨fun hj g hg hpaid => ?_, rfl, rfl⟩
        obtain ⟨-, o₀, hsaw, hzelle, -⟩ := hlaw
        have hmethod : o.fulfillmentMethod = .zelle := (hfinds.saw o₀ hsaw).2.1.trans hzelle
        simp only [hmethod] at hg
        cases hg
    | rejectManual => exact ⟨hfinds.ok, rfl, rfl⟩
    | submitProof => exact ⟨hfinds.ok, rfl, rfl⟩
    | bindCheckout _ g => cases g <;> exact ⟨hfinds.ok, rfl, rfl⟩
    | hideOrder => exact ⟨hfinds.ok, rfl, rfl⟩

/-- In every run in which the providers report what they charged and the writes
named above do not happen, an order that is truthful stays truthful, whatever
requests run. -/
theorem truthful_of_runs {charges : Charges} {starts : Request → Prop} {db : Database}
    {s : StoreSystem} {id : Id} (hdb : ∀ o, db.row (.order id) = some o → o.truthful charges)
    (hrun : Runs starts (fun w i r e => reportsCharges charges w i r e ∧ sparesTruth w i r e)
      (System.initial db) s) {o : Order} (ho : s.world.db.row (.order id) = some o) :
    o.truthful charges := by
  refine (truthRule_kept charges id).holds ?_ hrun id o ho rfl
  rintro j o' hj rfl
  exact hdb o' hj

/-- No provider has reported anything to the process, and it neither settles
nor edits. -/
def reportsNothing (w : StoreWorld) (i : ℕ) (r : Request) (e : Event shop) : Bool :=
  (match r with
    | .stripeWebhook _ => false
    | .payPalWebhook _ => false
    | _ => true) &&
  ((w.own i).all fun e => match e with
    | .call (.getPayment _) (some _) => false
    | .call (.captureOrder _) (some _) => false
    | _ => true) &&
  (match e with
    | .update (.settle _ _ _) _ => false
    | _ => true)

theorem reportsCharges_of_reportsNothing {charges : Charges} {w : StoreWorld} {i : ℕ}
    {r : Request} {e : Event shop} (h : reportsNothing w i r e = true) :
    reportsCharges charges w i r e := by
  intro g id p amount currency hreports
  simp only [reportsNothing, Bool.and_eq_true, List.all_eq_true] at h
  obtain ⟨⟨hr, hown⟩, -⟩ := h
  rcases hreports.source with ⟨e, rfl⟩ | ⟨e, rfl⟩ | ⟨d, x, hcall⟩ | ⟨d, x, hcall⟩
  · cases hr
  · cases hr
  · cases hown _ hcall
  · cases hown _ hcall

/-- An order that was charged 10 dollars by Stripe as the payment 7. -/
def chargedOrder : Order :=
  { Order.fresh .stripe 1000 with
    status := .confirmed, paymentStatus := .paid, stripePaymentIntentId := some 7 }

def correctsNothing : Event shop → Bool
  | .update (.editOrder _ _) _ => false
  | _ => true

/-- The merchant completes the order. -/
theorem truthful_of_runs_completed : ∃ (s : StoreSystem) (o : Order),
    s.world.db.row (.order 0) = some o ∧ o.status = .completed ∧
      o.truthful fun _ _ => some (1000, "USD") := by
  obtain ⟨s, hs, hstatus⟩ := System.exists_run_of_play handler Request.handlesPayment
    (fun w i r e => reportsNothing w i r e && correctsNothing e)
    (System.initial (storeWith Tenant.plain chargedOrder))
    (arrive 0 (.updateStatus 0 0 .completed true) 5) (StoreSystem.status · 0)
    (by decide +kernel : _ = some (some .completed))
  obtain ⟨o, ho, hcompleted⟩ := Option.map_eq_some_iff.1 hstatus
  refine ⟨s, o, ho, hcompleted, truthful_of_runs ?_ (hs.mono (fun _ h => h) ?_) ho⟩
  · rintro o' ⟨⟩ g ⟨⟩ -
    exact ⟨7, rfl, by decide +kernel⟩
  · intro w i r e hok
    rw [Bool.and_eq_true] at hok
    refine ⟨reportsCharges_of_reportsNothing hok.1, ?_⟩
    unfold sparesTruth
    split
    · simp [reportsNothing] at hok
    · exact absurd hok.2 (by simp [correctsNothing])
    · trivial

def markPaid : UpdateOrder where
  customerName := none
  customerEmail := none
  customerPhone := none
  shippingAddress := none
  items := none
  items_ne := nofun
  shippingId := none
  paymentStatus := some .paid
  paymentStatus_ok := by rintro p ⟨⟩; exact .inr rfl

/-- Staff mark a PayPal order paid that nobody has paid. -/
theorem paid_without_payment : ¬ ∀ (charges : Charges) (db : Database) (s : StoreSystem) (id : Id),
    (∀ o, db.row (.order id) = some o → o.truthful charges) →
    Runs (Request.handlesPayment ·) (reportsCharges charges) (System.initial db) s →
    ∀ o, s.world.db.row (.order id) = some o → o.truthful charges := by
  intro hall
  obtain ⟨s, hs, hfound⟩ := System.exists_run_of_play handler Request.handlesPayment
    reportsNothing (System.initial (storeWith Tenant.plain (Order.fresh .paypal 1000)))
    (arrive 0 (.updateDetails 0 0 markPaid) 5)
    (fun s : StoreSystem => (s.world.db.row (.order 0)).map fun o : Order =>
      (o.fulfillmentMethod, o.paymentStatus, o.paypalCaptureId))
    (by decide +kernel : _ = some (some (.paypal, .paid, none)))
  obtain ⟨o, ho, hpaid⟩ := Option.map_eq_some_iff.1 hfound
  simp only [Prod.mk.injEq] at hpaid
  obtain ⟨hmethod, hpaid, hnone⟩ := hpaid
  obtain ⟨p, hp, -⟩ := hall (fun _ _ => none) _ s 0 (by rintro o ⟨⟩ g - h; cases h)
    (hs.mono (fun _ h => h) fun _ _ _ _ => reportsCharges_of_reportsNothing) o ho .paypal
    (by rw [hmethod]; rfl) hpaid
  cases hnone.symm.trans hp

end WhatStore
