import WhatStore.Safety.OrderRule

/-!
# Cancelling an order that is being paid

A cancellation gives the money of a paid online order back, and it decides that
from the order it has read. Its conditional write asks only for the status it
read, so it does not notice a settlement that confirmed an order which the
merchant had confirmed before: the order ends cancelled, paid, and with nothing
refunded. As long as a cancellation that finds a paid online order has also
read it as paid, no online order is cancelled and paid at once.
-/

namespace WhatStore

open ReadCommitted

/-- Cancellations by the merchant and by the sweep, and the settlements. -/
def Request.cancelsOrSettles : Request → Bool
  | .updateStatus _ _ status _ => status.terminal
  | .sweep => true
  | .capturePayPalOrder _ _ => true
  | .stripeWebhook _ => true
  | .mercadoPagoWebhook _ => true
  | .payPalWebhook _ => true
  | _ => false

/-- An online order that is cancelled and whose money was kept. -/
def Order.cancelledPaid (o : Order) : Bool := o.status == .cancelled && o.isPaidGatewayOrder

def NotCancelledPaid (id : Id) (db : Database) : Prop :=
  ∀ o, db.row (.order id) = some o → o.cancelledPaid = false

/-- A cancellation that finds a paid online order has read it as one. -/
def readsPayment (w : StoreWorld) (i : ℕ) (_ : Request) : Event shop → Prop
  | .update (.claimStatus id _ .cancelled _) true => ∀ o, (w.view i).row (.order id) = some o →
      o.isPaidGatewayOrder = true → ∀ o₀, OrderSaw id o₀ (w.own i) → o₀.isPaidGatewayOrder = true
  | _ => True

/-- The rule that the order `id` is not cancelled and paid. -/
def cancelledPaidRule (id : Id) : OrderRule where
  ok j o := j = id → o.cancelledPaid = false
  rel _ _ _ := True
  refl _ _ := trivial
  trans _ _ _ _ _ _ := trivial

/-- A cancellation of a paid online order records that the money goes back. -/
theorem paymentData_cancelled {o : Order} (h : o.isPaidGatewayOrder = true) :
    o.paymentData .cancelled = some .refunded := by
  have hpaid : o.paymentStatus = .paid := by
    simp only [Order.isPaidGatewayOrder, Bool.and_eq_true, beq_iff_eq] at h
    exact h.1
  simp [Order.paymentData, Order.returnsMoney, hpaid, h]

theorem cancelledPaidRule_kept (id : Id) :
    (cancelledPaidRule id).Kept (Request.cancelsOrSettles ·) readsPayment where
  insert r h j o hlaw _ := by
    obtain ⟨t, dto, tenant, coupon, totals, time, -, rfl⟩ := hlaw
    rfl
  write w i r u j o o' hr hwrite ho hlaw hallow hfinds := by
    refine ⟨?_, trivial⟩
    rintro rfl
    have hok : o.cancelledPaid = false := hfinds.ok rfl
    cases hwrite with
    | confirmMessage => rfl
    | claimStatus _ old new pay _ hold =>
        obtain ⟨-, o₀, hsaw, -, -, -, rfl⟩ := hlaw
        by_cases hnew : new = .cancelled
        · subst hnew
          by_cases hpaid : o.isPaidGatewayOrder = true
          · rw [paymentData_cancelled (hallow o ho hpaid o₀ hsaw)]
            rfl
          · rcases o₀.paymentData_cases .cancelled with hdata | hdata
            · rw [hdata]
              simpa [Order.cancelledPaid, Order.isPaidGatewayOrder] using hpaid
            · rw [hdata]
              rfl
        · simp [Order.cancelledPaid, hnew]
    | restatus _ status pay =>
        obtain ⟨-, o₀, -, -, rfl, hsome⟩ := hlaw
        rcases o₀.paymentData_cases status with hdata | hdata
        · rw [hdata] at hsome
          cases hsome
        · rw [hdata]
          simp [Order.cancelledPaid, Order.isPaidGatewayOrder]
    | editOrder =>
        obtain ⟨t, dto, rfl, -⟩ := hlaw
        cases hr
    | settle => rfl
    | failPayPal => simp [Order.cancelledPaid, Order.isPaidGatewayOrder]
    | sweepCancel _ _ _ hpay => simp [Order.cancelledPaid, Order.isPaidGatewayOrder, hpay]
    | markLost _ lost =>
        cases lost with
        | refunded => rfl
        | disputed => simp [Order.cancelledPaid, Order.isPaidGatewayOrder, Order.markLost]
    | confirmManual =>
        obtain ⟨⟨t, rfl⟩, -⟩ := hlaw
        cases hr
    | rejectManual => exact hok
    | submitProof => exact hok
    | bindCheckout _ g => cases g <;> exact hok
    | hideOrder => exact hok

/-- In every run of cancellations and settlements in which a cancellation that
finds a paid online order has read it as paid, an order is never cancelled and
paid. -/
theorem never_cancelled_paid {db : Database} {s : StoreSystem} {id : Id}
    (hdb : NotCancelledPaid id db)
    (hrun : Runs (Request.cancelsOrSettles ·) readsPayment (System.initial db) s) :
    NotCancelledPaid id s.world.db := by
  intro o ho
  refine (cancelledPaidRule_kept id).holds ?_ hrun id o ho rfl
  rintro j o' hj rfl
  exact hdb o' hj

def confirmedOrder : Order := { Order.fresh .stripe 1000 with status := .confirmed }

/-- A cancellation has read the order as it finds it. -/
def readsCurrent (w : StoreWorld) (i : ℕ) (_ : Request) : Event shop → Bool
  | .update (.claimStatus id _ .cancelled _) true =>
      match w.own i with
      | [.query (.orderWithItems t id') x] =>
          id' == id && decide (Query.eval (.orderWithItems t id') (w.view i) = x)
      | _ => false
  | _ => true

theorem readsPayment_of_readsCurrent {w : StoreWorld} {i : ℕ} {r : Request} {e : Event shop}
    (h : readsCurrent w i r e = true) : readsPayment w i r e := by
  unfold readsPayment
  split
  · intro o ho hpaid o₀ hsaw
    simp only [readsCurrent] at h
    split at h
    · next t id' x hown =>
        rw [hown] at hsaw
        simp only [Bool.and_eq_true, decide_eq_true_eq] at h
        rcases hsaw with ⟨hshows, -⟩ | hnone
        · have hsame := hshows (w.view i) h.2
          rw [ho, Option.some.injEq] at hsame
          exact hsame ▸ hpaid
        · exact hnone.elim
    · cases h
  · trivial

/-- Stripe settles a confirmed order, and a cancellation that has read it as paid gives the
money back. -/
theorem never_cancelled_paid_settled : ∃ s : StoreSystem,
    s.atRest 0 = (true, some .cancelled, some .refunded) ∧ NotCancelledPaid 0 s.world.db := by
  obtain ⟨s, hs, hrest⟩ := System.exists_run_of_play handler Request.cancelsOrSettles readsCurrent
    (System.initial (storeWith Tenant.plain confirmedOrder))
    (arrive 1 (.stripeWebhook (some (.sessionCompleted none (.charging 7 1000)))) 7 ++
      arrive 0 (.updateStatus 0 0 .cancelled true) 9)
    (StoreSystem.atRest · 0)
    (by decide +kernel : _ = some (true, some .cancelled, some .refunded))
  refine ⟨s, hrest, never_cancelled_paid ?_
    (hs.mono (fun _ h => h) fun _ _ _ _ => readsPayment_of_readsCurrent)⟩
  rintro o ⟨⟩
  rfl

/-- A cancellation reads a confirmed order that is not paid yet, Stripe settles
the order, and the cancellation goes on: its condition on the status still
holds, so the order rests cancelled and paid. -/
theorem cancelled_paid_reached : ¬ ∀ (db : Database) (s : StoreSystem) (id : Id),
    NotCancelledPaid id db →
    Runs (Request.cancelsOrSettles ·) (anyOrder · · · ·) (System.initial db) s →
    s.Quiescent → NotCancelledPaid id s.world.db := by
  intro hall
  obtain ⟨s, hs, hrest⟩ := System.exists_run_of_play handler Request.cancelsOrSettles anyOrder
    (System.initial (storeWith Tenant.plain confirmedOrder))
    (arrive 0 (.updateStatus 0 0 .cancelled true) 1 ++
      arrive 1 (.stripeWebhook (some (.sessionCompleted none (.charging 7 1000)))) 7 ++
      [steps 0 5])
    (fun s : StoreSystem => (s.atRest 0, (s.world.db.row (.order 0)).all fun o : Order => o.cancelledPaid))
    (by decide +kernel : _ = some ((true, some .cancelled, some .paid), true))
  simp only [StoreSystem.atRest, Prod.mk.injEq] at hrest
  obtain ⟨⟨hquiet, hstatus, -⟩, hpaid⟩ := hrest
  obtain ⟨o, ho, -⟩ := Option.map_eq_some_iff.1 hstatus
  have hnot := hall _ s 0 (by rintro o ⟨⟩; rfl) hs (quiescent_of_runs hs hquiet) o ho
  rw [ho, Option.all_some, hnot] at hpaid
  cases hpaid

end WhatStore
