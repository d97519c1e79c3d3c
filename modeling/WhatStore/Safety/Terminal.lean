import WhatStore.Safety.OrderRule

/-!
# Terminal statuses

An order that is cancelled or refunded has given back what it held, so its
status should never change again. Every conditional write of the services asks
for a status that is not terminal. Two writes do not: the confirmation of a
Zelle payment, which checks the status in an earlier read, and the refund event
of PayPal, which looks at the payment status alone. Orders keep their terminal
status in every run in which these two never meet one.
-/

namespace WhatStore

open ReadCommitted

/-- The requests that may change the status of an order that exists. -/
def Request.changesStatus : Request → Bool
  | .updateStatus _ _ _ _ => true
  | .updateDetails _ _ _ => true
  | .confirmZellePayment _ _ => true
  | .rejectZellePayment _ _ => true
  | .capturePayPalOrder _ _ => true
  | .stripeWebhook _ => true
  | .mercadoPagoWebhook _ => true
  | .payPalWebhook _ => true
  | .sweep => true
  | _ => false

def TerminalStays (id : Id) (db db' : Database) : Prop :=
  ∀ o, db.row (.order id) = some o → o.status.terminal = true →
    ∃ o', db'.row (.order id) = some o' ∧ o'.status = o.status

def terminalRule : OrderRule where
  ok _ _ := True
  rel _ o o' := o.status.terminal = true → o'.status = o.status
  refl _ _ _ := rfl
  trans _ o₁ o₂ o₃ h₁₂ h₂₃ hterm := by
    rw [h₂₃ (by rw [h₁₂ hterm]; exact hterm), h₁₂ hterm]

/-- A Zelle confirmation does not write an order that has become cancelled or
refunded since it was read, and PayPal's refund event does not find a cancelled
order that is still paid. -/
def sparesTerminal (w : StoreWorld) (i : ℕ) (_ : Request) : Event shop → Bool
  | .update (.confirmManual id) true =>
      !(((w.view i).row (.order id)).any fun o : Order => o.status.terminal)
  | .update (.markLost id .refunded) true =>
      !(((w.view i).row (.order id)).any fun o : Order => o.status == .cancelled)
  | _ => true

theorem terminalRule_kept {starts : Request → Prop} :
    terminalRule.Kept starts (sparesTerminal · · · ·) where
  insert _ _ _ _ _ := trivial
  write w i r u id o o' _ hwrite ho hlaw hallow hfinds := by
    refine ⟨trivial, fun hterm => ?_⟩
    cases hwrite with
    | confirmMessage =>
        obtain ⟨-, o₀, hpending, hwrote⟩ := hlaw
        rw [hfinds.wrote o₀ hwrote, hpending] at hterm
        cases hterm
    | claimStatus _ old new pay _ hold =>
        obtain ⟨-, o₀, -, -, -, hopen, -⟩ := hlaw
        rw [hold, hopen] at hterm
        cases hterm
    | restatus _ status pay =>
        -- the row that was read is terminal, so the status written is the one it kept
        obtain ⟨-, o₀, hsaw, hstatus, hpay, hsome⟩ := hlaw
        have hread : o₀.status.terminal = true := by
          rw [hstatus]
          rw [hpay] at hsome
          cases status <;> first | rfl | cases hsome
        exact hstatus.symm.trans ((hfinds.saw o₀ hsaw).2 hread).symm
    | editOrder => rfl
    | settle _ g payment _ hpaid hopen =>
        rw [hopen] at hterm
        cases hterm
    | failPayPal => rfl
    | sweepCancel _ _ hpending =>
        rw [hpending] at hterm
        cases hterm
    | markLost _ lost _ hpay =>
        cases lost with
        | refunded =>
            simp only [sparesTerminal, ho, Option.any_some, Bool.not_eq_true', beq_eq_false_iff_ne,
              ne_eq] at hallow
            cases hs : o.status <;> simp_all [OrderStatus.terminal, Order.markLost]
        | disputed => rfl
    | confirmManual =>
        simp only [sparesTerminal, ho, Option.any_some, Bool.not_eq_true'] at hallow
        rw [hallow] at hterm
        cases hterm
    | rejectManual => rfl
    | submitProof => rfl
    | bindCheckout _ g => cases g <;> rfl
    | hideOrder => rfl

/-- In every run in which a Zelle confirmation never writes a cancelled or
refunded order and PayPal's refund event never finds a cancelled one, whatever
requests it is made of, no order leaves a terminal status. -/
theorem terminal_absorbing {starts : Request → Prop} {db : Database} {s t : StoreSystem}
    (hrun : Runs starts (sparesTerminal · · · ·) (System.initial db) s)
    (hlater : Runs starts (sparesTerminal · · · ·) s t) (id : Id) :
    TerminalStays id s.world.db t.world.db := by
  intro o ho hterm
  obtain ⟨o', ho', hrel⟩ :=
    terminalRule_kept.moves (fun _ _ _ => trivial) hrun hlater ho
  exact ⟨o', ho', hrel hterm⟩

/-- A Zelle order with a proof of payment, which nobody has confirmed yet. -/
def zelleOrder : Order := { Order.fresh .zelle 1000 with paymentProofUrl := some "proof" }

/-- The merchant cancels an order; later a confirmation is refused. -/
theorem terminal_absorbing_cancelled :
    ∃ s t : StoreSystem, s.status 0 = some .cancelled ∧
      TerminalStays 0 s.world.db t.world.db := by
  obtain ⟨s, t, hs, ht, hstatus, -⟩ := System.exists_runs_of_play
    handler Request.changesStatus sparesTerminal
    (System.initial (storeWith Tenant.plain zelleOrder))
    (arrive 1 (.updateStatus 0 0 .cancelled true) 6) (arrive 0 (.confirmZellePayment 0 0) 2)
    (StoreSystem.status · 0) (StoreSystem.status · 0)
    (by decide +kernel : _ = some (some .cancelled, some .cancelled))
  exact ⟨s, t, hstatus, terminal_absorbing hs ht 0⟩

/-- A confirmation reads a pending order, the merchant cancels the order, and
the confirmation goes on to write it: the cancelled order is confirmed. -/
theorem terminal_not_absorbing : ¬ ∀ (db : Database) (s t : StoreSystem) (id : Id),
    Runs (Request.changesStatus ·) (anyOrder · · · ·) (System.initial db) s →
    Runs (Request.changesStatus ·) (anyOrder · · · ·) s t →
    TerminalStays id s.world.db t.world.db := by
  intro hall
  obtain ⟨s, t, hs, ht, hcancelled, hconfirmed⟩ := System.exists_runs_of_play
    handler Request.changesStatus anyOrder
    (System.initial (storeWith Tenant.plain zelleOrder))
    (arrive 0 (.confirmZellePayment 0 0) 1 ++ arrive 1 (.updateStatus 0 0 .cancelled true) 6)
    [steps 0 4] (StoreSystem.status · 0) (StoreSystem.status · 0)
    (by decide +kernel : _ = some (some .cancelled, some .confirmed))
  obtain ⟨o, ho, hstatus⟩ := Option.map_eq_some_iff.1 hcancelled
  obtain ⟨o', ho', hstatus'⟩ := hall _ s t 0 hs ht o ho (by rw [hstatus]; rfl)
  rw [StoreSystem.status, ho', Option.map_some, hstatus', hstatus] at hconfirmed
  cases hconfirmed

end WhatStore
