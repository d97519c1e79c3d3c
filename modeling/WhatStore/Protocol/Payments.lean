import WhatStore.Protocol.Lawful

/-!
# The payment services keep to the protocol
-/

namespace WhatStore

open ReadCommitted ReadCommitted.Prog

variable {α : Type} {r : Request} {h : List Ev} {Q : α → List Ev → Prop}

private theorem permissive (r : Request) : Permissive (Lawful r) := lawful_permissive r

/-- An update by primary key: the row was there, or the request is over. -/
theorem lawful_updateOne {u : Update} {f : Unit → Prog shop α} (hu : Justified r h u)
    (hk : (f ()).Along (Lawful r) (.update u true :: h) Q) :
    (updateOne u >>= f).Along (Lawful r) h Q := by
  refine along_seq.2 ((permissive r).write hu fun hit => ?_)
  cases hit with
  | true => exact hk
  | false => exact trivial

theorem lawful_insertOne {u : Update} {f : Unit → Prog shop α} (hu : Justified r h u)
    (hk : (f ()).Along (Lawful r) (.update u true :: h) Q) :
    (insertOne u >>= f).Along (Lawful r) h Q := by
  refine along_seq.2 ((permissive r).write hu fun hit => ?_)
  cases hit with
  | true => exact hk
  | false => exact trivial

theorem lawful_updateOne_last {u : Update} (hu : Justified r h u) :
    (updateOne u).Along (Lawful r) h fun _ _ => True :=
  (permissive r).write hu fun hit => by cases hit <;> exact trivial

theorem lawful_insertOne_last {u : Update} (hu : Justified r h u) :
    (insertOne u).Along (Lawful r) h fun _ _ => True :=
  (permissive r).write hu fun hit => by cases hit <;> exact trivial

/-- A loop whose body is lawful after any history that extends the first one. -/
theorem lawful_each {β : Type} {body : β → Prog shop Unit} {as : List β}
    (hbody : ∀ a ∈ as, ∀ h', h <:+ h' → (body a).Along (Lawful r) h' fun _ _ => True) :
    (each body as).Along (Lawful r) h fun _ _ => True := by
  refine (along_each (I := fun rest h' => h <:+ h' ∧ ∀ a ∈ rest, a ∈ as)
    ⟨List.suffix_refl h, fun _ ha => ha⟩ fun a rest h' hI => ?_).mono fun _ _ _ => trivial
  refine (hbody a (hI.2 a List.mem_cons_self) h' hI.1).grows.mono fun _ h'' hh => ?_
  exact ⟨hI.1.trans hh.1, fun b hb => hI.2 b (List.mem_cons_of_mem _ hb)⟩

theorem lawful_runHooks (jobs : List Job) :
    (runHooks jobs).Along (Lawful r) h fun _ _ => True :=
  lawful_each fun _ _ _ _ _ => ⟨trivial, trivial⟩

theorem lawful_getTenant (tenantId : Id) :
    (getTenant tenantId).Along (Lawful r) h fun _ _ => True :=
  (permissive r).ask fun _ => along_orThrow.2 ⟨fun _ => trivial, fun _ _ => trivial⟩

/-! ## Digital deliveries -/

/-- The links of a new delivery are written after it. -/
def Update.isInsertGrant : Update → Prop
  | .insertGrant _ _ => True
  | _ => False

theorem key_of_isInsertGrant {u : Update} (hu : u.isInsertGrant) (orderId : Id) :
    u.key ≠ .delivery orderId := by
  cases u <;> first | exact hu.elim | nofun

theorem lawful_createGrant {t : Id} {d : DigitalDelivery} {expiresAt : Time} {assetId : Id}
    (hd : Delivering d h) :
    (createGrant t d.id expiresAt assetId).Along (Lawful r) h fun _ h' => Delivering d h' := by
  have hd' : ∀ id token, Delivering d (.call .uuid token :: .call .uuid id :: h) :=
    fun id token => hd.extends (A := Update.isInsertGrant)
      ⟨[.call .uuid token, .call .uuid id], rfl, by simp [Event.Inside]⟩
      fun u hu => key_of_isInsertGrant hu
  refine (permissive r).invoke fun id => (permissive r).invoke fun token => ?_
  refine (permissive r).write ⟨⟨token, rfl, rfl⟩, Nat.zero_le _, d, hd' id token, rfl⟩
    fun hit => along_throwIf.2 ⟨fun _ => trivial, fun _ => ?_⟩
  exact (hd' id token).extends (A := Update.isInsertGrant) (.cons trivial fun hf => hf)
    fun u hu => key_of_isInsertGrant hu

/-- The delivery is read back right after it was inserted. -/
theorem delivering_of_read {orderId id t : Id} {createdAt time : Time} {d : DigitalDelivery}
    {s : Database} (hd : Query.eval (.delivery orderId) s = some d) :
    Delivering d (.call .now time :: .query (.delivery orderId) (Query.eval (.delivery orderId) s) ::
      .update (.insertDelivery orderId (newDelivery id t createdAt)) true :: h) := by
  refine ⟨orderId, id, t, createdAt, ⟨[], openTx (S := shop) h, rfl, nofun⟩, .inr ⟨trivial, .inl ?_⟩⟩
  exact ⟨fun s' hs' => hs'.trans hd, List.mem_cons_self⟩

theorem lawful_createDeliveryForPaidOrder (tenantId orderId : Id) :
    (createDeliveryForPaidOrder tenantId orderId).Along (Lawful r) h fun _ _ => True := by
  refine (permissive r).ask fun s => ?_
  split
  · exact trivial
  refine (permissive r).ask fun s => ?_
  split
  · exact trivial
  refine (permissive r).invoke fun createdAt => (permissive r).invoke fun id => ?_
  refine (permissive r).write ⟨rfl, rfl⟩ fun created => ?_
  cases created with
  | false => exact trivial
  | true =>
      refine (permissive r).ask fun s => (permissive r).demand fun d hd => ?_
      refine (permissive r).invoke fun time => Permissive.skip ?_ fun _ _ _ => trivial
      exact (along_each (I := fun _ h' => Delivering d h') (delivering_of_read hd)
        fun assetId _ h' hI => lawful_createGrant hI).mono fun _ _ _ => trivial

theorem lawful_revokeForOrder (orderId : Id) (reason : String) :
    (revokeForOrder orderId reason).Along (Lawful r) h fun _ _ => True := by
  refine (permissive r).ask fun s => ?_
  split
  · exact trivial
  split
  · exact trivial
  refine (permissive r).invoke fun time => lawful_updateOne trivial ((permissive r).ask fun s => ?_)
  refine lawful_each fun grantId _ h' _ => ?_
  exact (permissive r).write trivial fun _ => trivial

/-! ## Checkouts and refunds -/

theorem lawful_getDecryptedCredentials (tenantId : Id) (provider : PaymentProvider) :
    (getDecryptedCredentials tenantId provider).Along (Lawful r) h fun _ _ => True := by
  unfold getDecryptedCredentials
  split
  · exact trivial
  refine (permissive r).ask fun s => ?_
  split
  · exact trivial
  split
  · exact trivial
  exact (permissive r).demand fun _ _ => trivial

theorem lawful_refundPaymentIntent (tenantId paymentIntentId : Id) :
    (refundPaymentIntent tenantId paymentIntentId).Along (Lawful r) h fun _ _ => True := by
  refine Permissive.skip (lawful_getDecryptedCredentials _ _) fun _ _ _ => ?_
  exact (permissive r).invoke fun _ => along_throwIf.2 ⟨fun _ => trivial, fun _ => trivial⟩

theorem lawful_refundOrderPayment (tenantId : Id) (o : Order) :
    (refundOrderPayment tenantId o).Along (Lawful r) h fun _ _ => True := by
  unfold refundOrderPayment
  split
  · exact lawful_refundPaymentIntent _ _
  · exact (permissive r).invoke fun _ => along_throwIf.2 ⟨fun _ => trivial, fun _ => trivial⟩
  · exact (permissive r).invoke fun _ => along_throwIf.2 ⟨fun _ => trivial, fun _ => trivial⟩
  · exact trivial

theorem lawful_assertPayable {o : Order} {f : Unit → Prog shop α}
    (hk : o.paymentStatus ≠ .paid → o.status.terminal = false → (f ()).Along (Lawful r) h Q) :
    (assertPayable o >>= f).Along (Lawful r) h Q := by
  refine along_seq.2 ((permissive r).check fun hpaid => ?_)
  refine along_throwIf.2 ⟨fun _ => trivial, fun hterm => hk ?_ hterm⟩
  simpa using hpaid

theorem lawful_assertRedirectUrlsAllowed (tenantId : Id) :
    (assertRedirectUrlsAllowed tenantId).Along (Lawful r) h fun _ _ => True :=
  (permissive r).invoke fun _ => along_throwIf.2 ⟨fun _ => trivial, fun _ => trivial⟩

theorem lawful_openCheckout {id : Id} {g : Gateway} {context : CheckoutContext}
    {o : Order} (ho : OrderSaw id o h) (hg : o.fulfillmentMethod.gateway = some g)
    (hpaid : o.paymentStatus ≠ .paid) (hterm : o.status.terminal = false) :
    (openCheckout g context >>= fun reference => updateOne (.bindCheckout id g reference)).Along
      (Lawful r) h fun _ _ => True := by
  have hopen : (openCheckout g context).Along (Lawful r) h fun _ _ => True :=
    (permissive r).invoke fun _ => along_orThrow.2 ⟨fun _ => trivial, fun _ _ => trivial⟩
  refine Permissive.skip hopen fun reference h' hh => lawful_updateOne_last ?_
  exact ⟨o, Saw.mono ho hh, hg, hpaid, hterm⟩

theorem createStripeCheckout_follows (t id : Id) :
    (createStripeCheckout t id).Follows (Lawful r) := by
  refine (permissive r).ask fun s => (permissive r).demand fun x hx => ?_
  have ho : OrderSaw id x.1 _ := orderSaw_orderWithItems (h := []) hx (by simp [locks])
  refine (permissive r).check fun hmethod => lawful_assertPayable fun hpaid hterm => ?_
  refine Permissive.skip (lawful_assertRedirectUrlsAllowed t) fun _ h₁ hh₁ => ?_
  refine Permissive.skip (lawful_getDecryptedCredentials _ _) fun _ h₂ hh₂ => ?_
  have hmethod' : x.1.fulfillmentMethod.gateway = some .stripe := by
    rw [show x.1.fulfillmentMethod = .stripe by simpa using hmethod]
    rfl
  have ho₂ : OrderSaw id x.1 h₂ := Saw.mono ho (hh₁.trans hh₂)
  split
  · exact lawful_openCheckout ho₂ hmethod' hpaid hterm
  · refine (permissive r).invoke fun _ => ?_
    exact lawful_openCheckout (Saw.mono ho₂ (List.suffix_cons _ _)) hmethod' hpaid hterm

theorem createMercadoPagoCheckout_follows (t id : Id) :
    (createMercadoPagoCheckout t id).Follows (Lawful r) := by
  refine (permissive r).ask fun s => (permissive r).demand fun x hx => ?_
  have ho : OrderSaw id x.1 _ := orderSaw_orderWithItems (h := []) hx (by simp [locks])
  refine (permissive r).check fun hmethod => lawful_assertPayable fun hpaid hterm => ?_
  refine Permissive.skip (lawful_assertRedirectUrlsAllowed t) fun _ h₁ hh₁ => ?_
  refine lawful_openCheckout (o := x.1) (Saw.mono ho hh₁) ?_ hpaid hterm
  rw [show x.1.fulfillmentMethod = .mercadoPago by simpa using hmethod]
  rfl

theorem createPayPalCheckout_follows (t id : Id) :
    (createPayPalCheckout t id).Follows (Lawful r) := by
  refine (permissive r).ask fun s => (permissive r).ask fun s' => ?_
  refine Permissive.skip (lawful_getTenant t) fun _ h₀ hh₀ => ?_
  refine Permissive.finish trivial ((permissive r).demand fun x hx => ?_)
  have ho : OrderSaw id x.1 _ := orderSaw_orderWithItems (h := []) hx (by simp [locks])
  have ho₀ : OrderSaw id x.1 h₀ := Saw.mono ho ((List.suffix_cons _ _).trans hh₀)
  refine (permissive r).check fun hmethod => (permissive r).check fun _ => ?_
  refine lawful_assertPayable fun hpaid hterm => ?_
  refine Permissive.skip (lawful_assertRedirectUrlsAllowed t) fun _ h₁ hh₁ => ?_
  have hopen : (openCheckout .paypal (checkoutContext t id x.1 x.2)).Along (Lawful r) h₁
      fun _ _ => True :=
    (permissive r).invoke fun _ => along_orThrow.2 ⟨fun _ => trivial, fun _ _ => trivial⟩
  refine Permissive.skip hopen fun reference h₂ hh₂ => lawful_updateOne ?_ ⟨trivial, trivial⟩
  refine ⟨x.1, Saw.mono ho₀ ((List.suffix_cons _ _).trans (hh₁.trans hh₂)), ?_, hpaid, hterm⟩
  rw [show x.1.fulfillmentMethod = .paypal by simpa using hmethod]
  rfl

/-! ## Settlements -/

theorem lawful_settled (tenantId orderId : Id) :
    (settled tenantId orderId).Along (Lawful r) h fun _ _ => True :=
  Permissive.skip (lawful_createDeliveryForPaidOrder _ _) fun _ _ _ => trivial

theorem lawful_settle {t id : Id} {g : Gateway} {payment : Option Id}
    {lost : Option Order → Bool} (hu : Justified r h (.settle id g payment)) :
    (do let won ← updateMany (.settle id g payment)
        if !won then do
          let winner : Option Order ← .query (.winner t id) .ret
          .ret (lost winner, [])
        else settled t id : Prog shop (Bool × List Job)).Along (Lawful r) h fun _ _ => True := by
  refine (permissive r).write hu fun won => ?_
  split
  · exact (permissive r).ask fun _ => trivial
  · exact lawful_settled t id

theorem lawful_settleStripe {account : Option Id} {session : StripeSession} {t id : Id}
    (hr : r = .stripeWebhook (some (.sessionCompleted account session)))
    (hid : session.orderId = some id) :
    (settleStripe account session t id).Along (Lawful r) [] fun _ _ => True := by
  refine (permissive r).ask fun s => ?_
  split
  · exact trivial
  · next o ho =>
      split
      · exact trivial
      · next hstatus =>
          refine Permissive.skip (lawful_getDecryptedCredentials _ _) fun _ h' hh' => ?_
          split
          · exact trivial
          split
          · exact trivial
          · next hpaid =>
              split
              · exact trivial
              · next hterm =>
                  split
                  · exact trivial
                  · next hamount =>
                      simp only [Bool.or_eq_true, not_or, bne_iff_ne, ne_eq, not_not] at hamount
                      refine lawful_settle ⟨by rw [hr]; rfl, o, ?_, by simpa using hpaid,
                        by simpa using hterm, nofun, ?_⟩
                      · exact Saw.mono (orderSaw_existing ho (by simp [locks])) hh'
                      · rw [← hamount.1, ← hamount.2]
                        exact .stripe account session id hr (by simpa using hstatus) hid

theorem handleStripeWebhook_follows (event : Option StripeEvent) :
    (handleStripeWebhook event).Follows (Lawful (.stripeWebhook event)) := by
  refine (permissive _).demand fun e he => ?_
  subst he
  split
  · exact trivial
  split
  · exact trivial
  split
  · next t id ht hid =>
      refine Permissive.skip (lawful_settleStripe rfl hid) fun x h₁ _ => ?_
      refine Permissive.finish trivial (Permissive.skip (lawful_runHooks _) fun _ h₂ _ => ?_)
      split
      · refine along_seq.2 (Permissive.attempt ?_ fun _ => ⟨trivial, trivial⟩)
        exact lawful_refundPaymentIntent t _
      · exact trivial
  · exact trivial

theorem lawful_settleMercadoPago (hr : r.settles = true) (dataId : Id)
    {payment : MercadoPagoPayment} {t id : Id}
    (hcall : Event.call (S := shop) (.getPayment dataId) (some payment) ∈ h)
    (hpaid : payment.status = "approved") (hid : payment.orderId = some id)
    (hopen : openTx (S := shop) h = []) :
    (settleMercadoPago payment t id).Along (Lawful r) h fun _ _ => True := by
  refine (permissive r).ask fun s => ?_
  split
  · exact trivial
  · next o ho =>
      split
      · exact trivial
      · next hunpaid =>
          split
          · exact trivial
          · next hterm =>
              split
              · exact trivial
              · next hamount =>
                  simp only [Bool.or_eq_true, not_or, bne_iff_ne, ne_eq, not_not] at hamount
                  refine lawful_settle ⟨hr, o, ?_, by simpa using hunpaid, by simpa using hterm,
                    nofun, ?_⟩
                  · exact orderSaw_existing ho (by simp [hopen, locks])
                  · rw [← hamount.1]
                    exact .mercadoPago dataId payment id o.currency
                      (List.mem_cons_of_mem _ hcall) hpaid hid hamount.2

theorem handleMercadoPagoWebhook_follows (notification : Option MercadoPagoNotification) :
    (handleMercadoPagoWebhook notification).Follows (Lawful (.mercadoPagoWebhook notification)) := by
  refine (permissive _).demand fun n _ => ?_
  split
  · exact trivial
  · next dataId _ =>
      split
      · exact trivial
      refine (permissive _).invoke fun answer => (permissive _).demand fun payment hanswer => ?_
      split
      · next t id _ hid =>
          split
          · exact trivial
          · next hstatus =>
              have hsettle := lawful_settleMercadoPago (r := .mercadoPagoWebhook notification)
                (t := t) rfl dataId
                (h := [.call (.getPayment dataId) answer]) (by simp [← hanswer])
                (by simpa using hstatus) hid rfl
              refine Permissive.skip hsettle fun x h₁ _ => ?_
              refine Permissive.finish trivial (Permissive.skip (lawful_runHooks _) fun _ h₂ _ => ?_)
              split
              · exact (permissive _).invoke fun _ => trivial
              · exact trivial
      · exact trivial

theorem lawful_settlePayPalCapture {t id captureId : Id} {state : PayPalOrderState}
    (hr : r.settles = true)
    (hreport : ∀ e, Reports r (e :: h) .paypal id (some captureId) state.amountMinor state.currency)
    (hopen : openTx (S := shop) h = []) :
    (settlePayPalCapture t id state captureId).Along (Lawful r) h fun _ _ => True := by
  refine (permissive r).ask fun s => ?_
  split
  · exact trivial
  · next o ho =>
      split
      · exact trivial
      · next howner =>
          split
          · exact trivial
          · next hunpaid =>
              split
              · exact trivial
              · next hterm =>
                  split
                  · exact trivial
                  · next hamount =>
                      simp only [Bool.or_eq_true, not_or, bne_iff_ne, ne_eq, not_not]
                        at hamount howner
                      refine lawful_settle ⟨hr, o, ?_, by simpa using hunpaid,
                        by simpa using hterm, fun _ => howner.1, ?_⟩
                      · exact orderSaw_existing ho (by simp [hopen, locks])
                      · rw [← hamount.1, ← hamount.2]
                        exact hreport _

theorem lawful_settlePayPal {t id : Id} {state : PayPalOrderState} (hr : r.settles = true)
    (hreport : state.captureStatus = some .completed → ∀ captureId,
      state.captureId = some captureId → ∀ e,
        Reports r (e :: h) .paypal id (some captureId) state.amountMinor state.currency)
    (hopen : openTx (S := shop) h = []) :
    (settlePayPal t id state).Along (Lawful r) h fun _ _ => True := by
  unfold settlePayPal
  split
  · exact (permissive r).write trivial fun _ => ⟨trivial, trivial⟩
  split
  · exact trivial
  · next hcompleted =>
      split
      · exact trivial
      · next captureId hid =>
          have hsettle := lawful_settlePayPalCapture (t := t) hr
            (hreport (by simpa using hcompleted) captureId hid) hopen
          refine Permissive.skip hsettle fun x h₁ _ => ?_
          refine Permissive.finish trivial (Permissive.skip (lawful_runHooks _) fun _ h₂ _ => ?_)
          split
          · exact (permissive _).invoke fun _ => trivial
          · exact trivial

theorem lawful_settlePayPal_captured {t id : Id} (paypalOrderId : Id) {state : PayPalOrderState}
    (hr : r.settles = true)
    (hcall : Event.call (S := shop) (.captureOrder paypalOrderId) (some state) ∈ h)
    (hopen : openTx (S := shop) h = []) :
    (settlePayPal t id state).Along (Lawful r) h fun _ _ => True :=
  lawful_settlePayPal hr (fun hpaid captureId hid _ =>
    .paypalCapture paypalOrderId id state captureId (List.mem_cons_of_mem _ hcall) hpaid hid) hopen

theorem capturePayPalOrder_follows (t id : Id) :
    (capturePayPalOrder t id).Follows (Lawful (.capturePayPalOrder t id)) := by
  refine (permissive _).ask fun s => Permissive.finish trivial ((permissive _).demand fun o _ => ?_)
  refine (permissive _).check fun _ => (permissive _).demand fun paypalOrderId _ => ?_
  split
  · exact trivial
  refine (permissive _).invoke fun answer => (permissive _).demand fun state hanswer => ?_
  refine Permissive.skipIf (fun _ => ?_) fun h₁ _ => ?_
  · exact lawful_settlePayPal_captured paypalOrderId rfl (by simp [← hanswer]) rfl
  · refine (permissive _).ask fun s => Permissive.finish trivial ?_
    exact (permissive _).demand fun _ _ => trivial

theorem lawful_markPayPalOrderLost (captureId : Id) (lost : Lost) (event : Option PayPalEvent) :
    (markPayPalOrderLost captureId lost).Along (Lawful (.payPalWebhook event)) h
      fun _ _ => True := by
  refine (permissive _).ask fun s => Permissive.finish trivial ?_
  split
  · exact trivial
  · refine (permissive _).write ⟨event, rfl⟩ fun _ => ?_
    exact Permissive.skip (lawful_revokeForOrder _ _) fun _ _ _ => ⟨trivial, trivial⟩

theorem handlePayPalWebhook_follows (event : Option PayPalEvent) :
    (handlePayPalWebhook event).Follows (Lawful (.payPalWebhook event)) := by
  refine (permissive _).demand fun e he => ?_
  subst he
  split
  · refine (permissive _).ask fun s => Permissive.finish trivial ?_
    split
    · exact trivial
    split
    · exact trivial
    refine (permissive _).invoke fun answer => (permissive _).demand fun state hanswer => ?_
    refine along_runIf.2 ⟨fun _ => ?_, fun _ => trivial⟩
    exact (lawful_settlePayPal_captured _ rfl (by simp [← hanswer]; rfl) rfl).mono fun _ _ _ => trivial
  · next completed captureId paypalOrderId amount currency =>
      split
      · exact trivial
      · next paypalOrderId =>
          refine (permissive _).ask fun s => Permissive.finish trivial ?_
          split
          · exact trivial
          · refine lawful_settlePayPal rfl (fun hpaid captureId' hid _ => ?_) rfl
            cases completed with
            | true =>
                cases hid
                exact .paypalEvent captureId paypalOrderId amount currency _ rfl
            | false => cases hpaid
  · split
    · exact trivial
    · exact lawful_markPayPalOrderLost _ _ _
  · exact lawful_markPayPalOrderLost _ _ _
  · split
    · exact trivial
    · exact lawful_markPayPalOrderLost _ _ _
  · exact trivial

/-! ## Zelle -/

theorem lawful_confirmManualPayment (t id : Id) :
    (confirmManualPayment t id).Along (Lawful (.confirmZellePayment t id)) [] fun _ _ => True := by
  refine (permissive _).ask fun s => (permissive _).demand fun o ho => ?_
  refine (permissive _).check fun hmethod => (permissive _).check fun hterm => ?_
  split
  · exact trivial
  · next hpaid =>
      refine (permissive _).check fun _ => lawful_updateOne ?_ ?_
      · exact ⟨⟨t, rfl⟩, o, orderSaw_order ho (by simp [locks]), by simpa using hmethod, hterm,
          by simpa using hpaid⟩
      · exact Permissive.skip (lawful_createDeliveryForPaidOrder _ _) fun _ _ _ => trivial

theorem rejectManualPayment_follows (t id : Id) :
    (rejectManualPayment t id).Follows (Lawful r) := by
  refine (permissive _).ask fun s => (permissive _).demand fun o ho => ?_
  refine (permissive _).check fun hmethod => lawful_updateOne ?_ ?_
  · exact ⟨o, orderSaw_order ho (by simp [locks]), by simpa using hmethod⟩
  · split
    · exact trivial
    · exact fun _ => ⟨trivial, trivial⟩

end WhatStore
