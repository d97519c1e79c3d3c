import WhatStore.Safety.OrderRule

/-!
# Hidden orders

A merchant may hide an order that is completed, cancelled or refunded, so that
no list shows it any more. No later write asks whether an order is hidden. Of
the three statuses COMPLETED is not terminal: a status change, the settlement of
an online payment or the confirmation of a Zelle payment moves the hidden order
back among the live ones. Hidden orders stay finished in every run in which none
of these finds one, and in which an order is hidden while it is still finished.
-/

namespace WhatStore

open ReadCommitted

def Order.hiddenFinished (o : Order) : Prop := o.hiddenAt.isSome → o.status.hideable = true

def HiddenFinished (db : Database) : Prop :=
  ∀ id o, db.row (.order id) = some o → o.hiddenFinished

/-- The requests that hide an order or move its status later. -/
def Request.hidesOrMoves : Request → Bool
  | .hide _ _ => true
  | .updateStatus _ _ _ _ => true
  | .updateDetails _ _ _ => true
  | .confirmZellePayment _ _ => true
  | .capturePayPalOrder _ _ => true
  | .stripeWebhook _ => true
  | .mercadoPagoWebhook _ => true
  | .payPalWebhook _ => true
  | .sweep => true
  | _ => false

def hiddenRule : OrderRule where
  ok _ o := o.hiddenFinished
  rel _ _ _ := True
  refl _ _ := trivial
  trans _ _ _ _ _ _ := trivial

/-- The order that `w` shows to process `i` is hidden. -/
def hides (w : StoreWorld) (i : ℕ) (id : Id) : Bool :=
  ((w.view i).row (.order id)).any fun o : Order => o.hiddenAt.isSome

/-- The order that `w` shows to process `i` is finished. -/
def finished (w : StoreWorld) (i : ℕ) (id : Id) : Bool :=
  ((w.view i).row (.order id)).any fun o : Order => o.status.hideable

/-- No hidden order is given a live status, settled or confirmed, and the order
that is hidden is still finished. -/
def sparesHidden (w : StoreWorld) (i : ℕ) (_ : Request) : Event shop → Bool
  | .update (.claimStatus id _ new _) true => new.hideable || !hides w i id
  | .update (.settle id _ _) true => !hides w i id
  | .update (.confirmManual id) true => !hides w i id
  | .update (.hideOrder id _) true => finished w i id
  | _ => true

theorem Order.hiddenFinished_of_none {o : Order} (h : o.hiddenAt = none) : o.hiddenFinished := by
  intro hsome
  rw [h] at hsome
  cases hsome

theorem record_hiddenAt (o : Order) (g : Gateway) (payment : Option Id) :
    (o.record g payment).hiddenAt = o.hiddenAt := by
  cases g <;> cases payment <;> rfl

theorem hides_eq {w : StoreWorld} {i : ℕ} {id : Id} {o : Order}
    (ho : (w.view i).row (.order id) = some o) : hides w i id = o.hiddenAt.isSome := by
  rw [hides, ho, Option.any_some]

theorem finished_eq {w : StoreWorld} {i : ℕ} {id : Id} {o : Order}
    (ho : (w.view i).row (.order id) = some o) : finished w i id = o.status.hideable := by
  rw [finished, ho, Option.any_some]

theorem Order.hiddenFinished.shown {o : Order} (h : o.hiddenFinished)
    (hlive : o.status.hideable = false) : o.hiddenAt = none := by
  cases hidden : o.hiddenAt with
  | none => rfl
  | some time =>
      have := h (by rw [hidden]; rfl)
      rw [hlive] at this
      cases this

theorem hiddenRule_kept {starts : Request → Prop} :
    hiddenRule.Kept starts (sparesHidden · · · ·) where
  insert r h id o hlaw := by
    obtain ⟨tenantId, dto, tenant, couponId, totals, time, -, rfl⟩ := hlaw
    exact Order.hiddenFinished_of_none rfl
  write w i r u id o o' _ hwrite ho hlaw hallow hfinds := by
    refine ⟨?_, trivial⟩
    have hok : o.hiddenFinished := hfinds.ok
    cases hwrite with
    | confirmMessage =>
        -- the request confirms the order it has just created, which is pending
        obtain ⟨-, o₀, hpending, hwrote⟩ := hlaw
        have hsame := hfinds.wrote o₀ hwrote
        refine Order.hiddenFinished_of_none (hok.shown ?_)
        rw [hsame, hpending]
        rfl
    | claimStatus _ old new pay =>
        intro hhidden
        simp only [sparesHidden, hides_eq ho, Bool.or_eq_true, Bool.not_eq_true'] at hallow
        rcases hallow with hnew | hshown
        · exact hnew
        · exact absurd hhidden (by simp [hshown])
    | restatus _ status pay =>
        -- only CANCELLED and REFUNDED rewrite the payment status with the status kept
        obtain ⟨-, o₀, -, -, hpay, hsome⟩ := hlaw
        intro _
        rw [hpay] at hsome
        cases status <;> first | rfl | cases hsome
    | editOrder => exact hok
    | settle =>
        simp only [sparesHidden, hides_eq ho, Bool.not_eq_true', Option.isSome_eq_false_iff,
          Option.isNone_iff_eq_none] at hallow
        exact Order.hiddenFinished_of_none ((record_hiddenAt o _ _).trans hallow)
    | failPayPal => exact hok
    | sweepCancel => exact fun _ => rfl
    | markLost _ lost =>
        cases lost with
        | refunded => exact fun _ => rfl
        | disputed => exact hok
    | confirmManual =>
        simp only [sparesHidden, hides_eq ho, Bool.not_eq_true', Option.isSome_eq_false_iff,
          Option.isNone_iff_eq_none] at hallow
        exact Order.hiddenFinished_of_none hallow
    | rejectManual => exact hok
    | submitProof => exact hok
    | bindCheckout _ g => cases g <;> exact hok
    | hideOrder =>
        simp only [sparesHidden, finished_eq ho] at hallow
        exact fun _ => hallow

/-- The condition leaves out nothing that is harmless: a write it excludes turns
the order it finds into a hidden one that is not finished. -/
theorem live_of_not_spares {w : StoreWorld} {i : ℕ} {r : Request} {u : Update} {id : Id}
    {o o' : Order} (hwrite : OrderWrite u id o o') (ho : (w.view i).row (.order id) = some o)
    (hspares : sparesHidden w i r (.update u true) = false) : ¬ o'.hiddenFinished := by
  cases hwrite with
  | claimStatus =>
      simp only [sparesHidden, hides_eq ho, Bool.or_eq_false_iff, Bool.not_eq_false'] at hspares
      intro hok
      have := hok hspares.2
      simp [hspares.1] at this
  | settle _ g =>
      simp only [sparesHidden, hides_eq ho, Bool.not_eq_false'] at hspares
      intro hok
      exact nomatch hok ((congrArg Option.isSome (record_hiddenAt o g _)).trans hspares)
  | confirmManual =>
      simp only [sparesHidden, hides_eq ho, Bool.not_eq_false'] at hspares
      intro hok
      exact nomatch hok hspares
  | hideOrder =>
      simp only [sparesHidden, finished_eq ho] at hspares
      intro hok
      have := hok rfl
      simp [hspares] at this
  | _ => cases hspares

/-- In every run in which no hidden order is given a live status, settled or
confirmed, and in which an order is hidden while it is finished, whatever
requests it is made of and in whatever order their steps come, every hidden order
is completed, cancelled or refunded. -/
theorem hidden_stay_finished {starts : Request → Prop} {db : Database} {s : StoreSystem}
    (hdb : HiddenFinished db)
    (hrun : Runs starts (sparesHidden · · · ·) (System.initial db) s) :
    HiddenFinished s.world.db :=
  hiddenRule_kept.holds (ρ := hiddenRule) hdb hrun

/-- A pending order is not hidden. -/
example : (StoreSystem.play Request.hidesOrMoves sparesHidden
    (System.initial (storeWith Tenant.plain (.fresh .stripe 1000))) (arrive 0 (.hide 0 0) 2)).map
      (fun s : StoreSystem => (s.world.db.row (.order 0)).all fun o : Order => o.hiddenAt.isNone) =
        some true := by
  decide +kernel

def completedOrder : Order :=
  { Order.fresh .stripe 1000 with status := .completed, paymentStatus := .paid }

theorem completedOrder_finished : HiddenFinished (storeWith Tenant.plain completedOrder) := by
  intro id o ho
  by_cases hid : id = 0
  · subst hid
    cases ho
    exact Order.hiddenFinished_of_none rfl
  · rw [storeWith, Store.set_row_of_ne _ _ (by simpa using hid),
      Store.set_row_of_ne _ _ (by simp)] at ho
    cases ho

def StoreSystem.shelved (s : StoreSystem) (id : Id) : Option (OrderStatus × Bool) :=
  (s.world.db.row (.order id)).map fun o : Order => (o.status, o.hiddenAt.isSome)

/-- A completed order is hidden and refunded. -/
theorem hidden_stay_finished_refunded : ∃ s : StoreSystem,
    s.shelved 0 = some (.refunded, true) ∧ HiddenFinished s.world.db := by
  obtain ⟨s, hs, hshelved⟩ := System.exists_run_of_play handler Request.hidesOrMoves sparesHidden
    (System.initial (storeWith Tenant.plain completedOrder))
    (arrive 0 (.hide 0 0) 4 ++ arrive 1 (.updateStatus 0 0 .refunded true) 6)
    (StoreSystem.shelved · 0) (by decide +kernel : _ = some (some (.refunded, true)))
  exact ⟨s, hshelved, hidden_stay_finished completedOrder_finished hs⟩

/-- A completed order is hidden; later the merchant sets it back to PROCESSING. -/
theorem hidden_not_finished : ¬ ∀ (db : Database) (s : StoreSystem), HiddenFinished db →
    Runs (Request.hidesOrMoves ·) (anyOrder · · · ·) (System.initial db) s →
    HiddenFinished s.world.db := by
  intro hall
  obtain ⟨s, hs, hshelved⟩ := System.exists_run_of_play handler Request.hidesOrMoves anyOrder
    (System.initial (storeWith Tenant.plain completedOrder))
    (arrive 0 (.hide 0 0) 4 ++ arrive 1 (.updateStatus 0 0 .processing true) 5)
    (StoreSystem.shelved · 0) (by decide +kernel : _ = some (some (.processing, true)))
  obtain ⟨o, ho, hpair⟩ := Option.map_eq_some_iff.1 hshelved
  have hok : o.hiddenFinished := hall _ s completedOrder_finished hs 0 o ho
  simp only [Prod.mk.injEq] at hpair
  have hlive := hok hpair.2
  rw [hpair.1] at hlive
  cases hlive

end WhatStore
