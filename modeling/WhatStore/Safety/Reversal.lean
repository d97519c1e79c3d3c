import WhatStore.Safety.OrderRule

/-!
# Reversed payments

A payment that was refunded or disputed is reversed. A refund also ends the
order, so the status alone keeps a late settlement away from it. A dispute
leaves the order confirmed, and the conditional write of a settlement asks only
that the payment is not `PAID` and the order not terminal: a redelivered
capture event makes a disputed payment paid again. Provider events that never
settle a disputed order keep reversed payments reversed.
-/

namespace WhatStore

open ReadCommitted

def PaymentStatus.reversed : PaymentStatus → Bool
  | .refunded => true
  | .disputed => true
  | _ => false

/-! ## A refunded payment ends its order -/

/-- An order whose payment was refunded is cancelled or refunded. -/
def Order.refundEnds (o : Order) : Prop :=
  o.paymentStatus = .refunded → o.status.terminal = true

/-- The rule that the refund of the order `id` has ended it. -/
def refundRule (id : Id) : OrderRule where
  ok j o := j = id → o.refundEnds
  rel _ _ _ := True
  refl _ _ := trivial
  trans _ _ _ _ _ _ := trivial

theorem refundEnds_newOrder {r : Request} {h : List Ev} {id : Id} {o : Order}
    (hlaw : Justified r h (.insertOrder id o)) : o.refundEnds := by
  intro hrefunded
  obtain ⟨t, dto, tenant, coupon, totals, time, -, rfl⟩ := hlaw
  cases hrefunded

theorem refundEnds_write {r : Request} {h : List Ev} {u : Update} {id : Id} {o o' : Order}
    (hwrite : OrderWrite u id o o') (hlaw : Justified r h u)
    (hwrote : ∀ o₀, Wrote (S := shop) (.insertOrder id o₀) h → o = o₀) (hok : o.refundEnds) :
    o'.refundEnds := by
  intro hrefunded
  cases hwrite with
  | confirmMessage =>
      obtain ⟨-, o₀, hpending, hw⟩ := hlaw
      have hterm := hok hrefunded
      rw [hwrote o₀ hw, hpending] at hterm
      cases hterm
  | claimStatus _ old new pay _ hold =>
      obtain ⟨-, o₀, -, -, -, hopen, rfl⟩ := hlaw
      cases hpay : o₀.paymentData new with
      | none =>
          rw [hpay] at hrefunded
          have hterm := hok hrefunded
          rw [hold, hopen] at hterm
          cases hterm
      | some p => exact terminal_of_paymentData (by rw [hpay]; rfl)
  | restatus _ status pay =>
      obtain ⟨-, o₀, -, -, rfl, hsome⟩ := hlaw
      exact terminal_of_paymentData hsome
  | editOrder _ e =>
      obtain ⟨t, dto, -, o₀, -, -, hpay, -⟩ := hlaw
      cases he : e.paymentStatus with
      | none =>
          simp only [Order.edit, he, Option.getD_none] at hrefunded
          exact hok hrefunded
      | some p =>
          simp only [Order.edit, he, Option.getD_some] at hrefunded
          rcases (hpay p he).1 with rfl | rfl <;> cases hrefunded
  | settle => cases hrefunded
  | failPayPal => cases hrefunded
  | sweepCancel => rfl
  | markLost _ lost =>
      cases lost with
      | refunded => rfl
      | disputed => cases hrefunded
  | confirmManual => cases hrefunded
  | rejectManual => exact hok hrefunded
  | submitProof => exact hok hrefunded
  | bindCheckout _ g => cases g <;> exact hok hrefunded
  | hideOrder => exact hok hrefunded

theorem refundRule_kept (id : Id) {starts : Request → Prop} {allow : StepCondition} :
    (refundRule id).Kept starts allow where
  insert _ _ _ _ hlaw _ := refundEnds_newOrder hlaw
  write _ _ _ _ _ _ _ _ hwrite _ hlaw _ hfinds :=
    ⟨fun hj => refundEnds_write hwrite hlaw hfinds.wrote (hfinds.ok hj), trivial⟩

/-- Whatever requests run and however their steps interleave, a refunded
payment has ended its order. -/
theorem refund_ends {starts : Request → Prop} {allow : StepCondition} {db : Database}
    {s : StoreSystem} {id : Id} (hdb : ∀ o, db.row (.order id) = some o → o.refundEnds)
    (hrun : Runs starts allow (System.initial db) s) {o : Order}
    (ho : s.world.db.row (.order id) = some o) : o.refundEnds := by
  refine (refundRule_kept id).holds ?_ hrun id o ho rfl
  rintro j o' hj rfl
  exact hdb o' hj

/-! ## Provider events and reversed payments -/

/-- The rule that the payment of the order `id`, once reversed, stays so. -/
def reversalRule (id : Id) : OrderRule where
  ok := (refundRule id).ok
  rel j o o' := j = id → o.paymentStatus.reversed = true → o'.paymentStatus.reversed = true
  refl _ _ _ h := h
  trans _ _ _ _ h₁₂ h₂₃ hj h := h₂₃ hj (h₁₂ hj h)

/-- A settlement does not write an order whose payment is disputed. -/
def sparesDisputes (w : StoreWorld) (i : ℕ) (_ : Request) : Event shop → Bool
  | .update (.settle id _ _) true =>
      !(((w.view i).row (.order id)).any fun o : Order => o.paymentStatus == .disputed)
  | _ => true

theorem reversalRule_kept (id : Id) :
    (reversalRule id).Kept (Request.settles ·) (sparesDisputes · · · ·) where
  insert r h j o hlaw _ := refundEnds_newOrder hlaw
  write w i r u j o o' hr hwrite ho hlaw hallow hfinds := by
    refine ⟨fun hj => refundEnds_write hwrite hlaw hfinds.wrote (hfinds.ok hj), ?_⟩
    rintro rfl hreversed
    have hok : o.refundEnds := hfinds.ok rfl
    cases hwrite with
    | confirmMessage => exact hreversed
    | claimStatus =>
        obtain ⟨⟨t, c, rfl⟩, -⟩ := hlaw
        cases hr
    | restatus =>
        obtain ⟨⟨t, c, rfl⟩, -⟩ := hlaw
        cases hr
    | editOrder =>
        obtain ⟨t, dto, rfl, -⟩ := hlaw
        cases hr
    | settle _ g payment _ hpaid hopen =>
        -- a refunded payment has ended the order, a disputed one is excluded
        simp only [sparesDisputes, ho, Option.any_some, Bool.not_eq_true',
          beq_eq_false_iff_ne, ne_eq] at hallow
        have hrefunded : o.paymentStatus = .refunded := by
          cases hp : o.paymentStatus <;> simp_all [PaymentStatus.reversed]
        rw [hok hrefunded] at hopen
        cases hopen
    | failPayPal _ _ hpending =>
        rw [hpending] at hreversed
        cases hreversed
    | sweepCancel => exact hreversed
    | markLost _ lost => cases lost <;> rfl
    | confirmManual =>
        obtain ⟨⟨t, rfl⟩, -⟩ := hlaw
        cases hr
    | rejectManual => exact hreversed
    | submitProof => exact hreversed
    | bindCheckout _ g => cases g <;> exact hreversed
    | hideOrder => exact hreversed

/-- The payment of the order, if it was reversed, still is. -/
def ReversedStays (id : Id) (db db' : Database) : Prop :=
  ∀ o, db.row (.order id) = some o → o.paymentStatus.reversed = true →
    ∃ o', db'.row (.order id) = some o' ∧ o'.paymentStatus.reversed = true

/-- In every run of provider events in which no settlement writes an order with
a disputed payment, a reversed payment stays reversed. -/
theorem reversed_stays {db : Database} {s t : StoreSystem} {id : Id}
    (hdb : ∀ o, db.row (.order id) = some o → o.refundEnds)
    (hrun : Runs (Request.settles ·) (sparesDisputes · · · ·) (System.initial db) s)
    (hlater : Runs (Request.settles ·) (sparesDisputes · · · ·) s t) :
    ReversedStays id s.world.db t.world.db := by
  intro o ho hreversed
  have hholds : (reversalRule id).Holds db := by
    rintro j o' hj rfl
    exact hdb o' hj
  obtain ⟨o', ho', hrel⟩ := (reversalRule_kept id).moves hholds hrun hlater ho
  exact ⟨o', ho', hrel rfl hreversed⟩

def capturedOrder : Order :=
  { Order.fresh .paypal 1000 with
    status := .confirmed, paymentStatus := .paid, paypalOrderId := some 5
    paypalCaptureId := some 7 }

def captureEvent : PayPalEvent := .capture true 7 (some 5) (some 1000) (some "USD")

/-- The capture is refunded at PayPal, and its event is delivered again. -/
theorem reversed_stays_refunded : ∃ s t : StoreSystem,
    s.paymentStatus 0 = some .refunded ∧ ReversedStays 0 s.world.db t.world.db := by
  obtain ⟨s, t, hs, ht, hrefunded, -⟩ := System.exists_runs_of_play handler Request.settles
    sparesDisputes (System.initial (storeWith Tenant.plain capturedOrder))
    (arrive 0 (.payPalWebhook (some (.captureRefunded (some 7)))) 6)
    (arrive 1 (.payPalWebhook (some captureEvent)) 5)
    (StoreSystem.paymentStatus · 0) (StoreSystem.paymentStatus · 0)
    (by decide +kernel : _ = some (some .refunded, some .refunded))
  refine ⟨s, t, hrefunded, reversed_stays ?_ hs ht⟩
  rintro o ⟨⟩ hpay
  cases hpay

/-- The provider's request is about the payment `p`, as far as it names one. -/
def Request.concerns (p : Id) : Request → Bool
  | .capturePayPalOrder _ _ => true
  | .stripeWebhook (some (.sessionCompleted _ session)) => session.paymentIntent == some p
  | .mercadoPagoWebhook (some notification) => notification.dataId == some p
  | .payPalWebhook (some (.orderApproved _)) => true
  | .payPalWebhook (some (.capture _ captureId _ _ _)) => captureId == p
  | .payPalWebhook (some (.captureRefunded captureId)) => captureId == some p
  | .payPalWebhook (some (.captureReversed captureId)) => captureId == p
  | .payPalWebhook (some (.dispute captureId)) => captureId == some p
  | _ => false

/-- What a provider answers is about the payment `p`. -/
def answersConcern (p : Id) (_ : StoreWorld) (_ : ℕ) (_ : Request) : Event shop → Bool
  | .call (.getPayment _) (some payment) => payment.id == p
  | .call (.captureOrder _) (some state) => state.captureId == some p
  | _ => true

/-- A buyer disputes the payment, and the event of the same capture is
delivered again: the disputed payment is paid, by events about the payment that
was recorded alone. -/
theorem reversed_payment_paid : ¬ ∀ (db : Database) (s t : StoreSystem) (id p : Id) (g : Gateway),
    (∀ o, db.row (.order id) = some o → o.refundEnds ∧ o.payment g = some p) →
    Runs (Request.concerns p ·) (answersConcern p · · · ·) (System.initial db) s →
    Runs (Request.concerns p ·) (answersConcern p · · · ·) s t →
    ReversedStays id s.world.db t.world.db := by
  intro hall
  obtain ⟨s, t, hs, ht, hdisputed, hpaid⟩ := System.exists_runs_of_play handler
    (Request.concerns 7) (answersConcern 7)
    (System.initial (storeWith Tenant.plain capturedOrder))
    (arrive 0 (.payPalWebhook (some (.captureReversed 7))) 6)
    (arrive 1 (.payPalWebhook (some captureEvent)) 8)
    (StoreSystem.paymentStatus · 0) (StoreSystem.paymentStatus · 0)
    (by decide +kernel : _ = some (some .disputed, some .paid))
  obtain ⟨o, ho, hstatus⟩ := Option.map_eq_some_iff.1 hdisputed
  have hstays := hall _ s t 0 7 .paypal (by rintro o ⟨⟩; exact ⟨nofun, rfl⟩) hs ht
  obtain ⟨o', ho', hreversed⟩ := hstays o ho (by rw [hstatus]; rfl)
  rw [StoreSystem.paymentStatus, ho', Option.map_some, Option.some.injEq] at hpaid
  rw [hpaid] at hreversed
  cases hreversed

end WhatStore
