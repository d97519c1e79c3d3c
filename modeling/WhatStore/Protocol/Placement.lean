import WhatStore.Protocol.Whole

/-!
# What leaves a request that creates an order

Nothing but the database hears of a new order until it is written. Then the
Telegram message is queued, then the customer's confirmation, and at last the
merchant's event is emitted. A queue may refuse a job, which is thrown and rolls
the order back.
-/

namespace WhatStore

open ReadCommitted ReadCommitted.Prog

variable {h h' : List Ev} {α : Type}

/-- The order a job is about, for those that name one. -/
def Job.orderId : Job → Option Id
  | .generateInvoice _ orderId => some orderId
  | .orderConfirmation _ orderId => some orderId
  | .telegramMessage _ orderId => some orderId
  | .sendDelivery _ => none
  | .resendDelivery _ => none

/-- A job that a queue took, or an event that was emitted. -/
inductive Departed : Ev → Prop where
  | job (job : Job) : Departed (.call (.enqueue job) true)
  | event (orderId : Id) : Departed (.call (.emitOrderEvent orderId) ())

/-- A job or an event about the order has left the process. -/
inductive Told (orderId : Id) (h : List Ev) : Prop where
  | job (job : Job) (horder : job.orderId = some orderId)
      (hmem : .call (.enqueue job) true ∈ h)
  | event (hmem : .call (.emitOrderEvent orderId) () ∈ h)

def Silent (h : List Ev) : Prop := ∀ e ∈ h, ¬ Departed e

/-- The e-mail queue has refused the confirmation of an order. -/
def Refused (h : List Ev) : Prop :=
  ∃ t orderId, .call (.enqueue (.orderConfirmation t orderId)) false ∈ h

/-- The request sends a Telegram message, and the queue of its confirmation mail
fails. -/
def TelegramUnconfirmed (dto : CreateOrder) (h : List Ev) : Prop :=
  dto.fulfillmentMethod = .telegram ∧ Refused h

def Hushed : Ev → Prop
  | .call (.enqueue _) _ => False
  | .call (.emitOrderEvent _) _ => False
  | .committed _ => False
  | .rolledBack => False
  | .returned _ => False
  | _ => True

def PlacementLaw (dto : CreateOrder) (h : List Ev) : Ev → Prop
  | .committed _ => False
  | .threw _ => (∀ tx, .committed tx ∉ h) ∧
      (Silent h ∧ ¬ TelegramUnconfirmed dto h ∨
        (∃ orderId, Told orderId h) ∧ TelegramUnconfirmed dto h)
  | .returned tx => ¬ Refused h ∧ ∀ orderId, Told orderId h → ∃ o, .insertOrder orderId o ∈ tx
  | _ => True

/-- The protocol of the requests, which asks only something of those that create
an order. -/
def Placing : Protocol shop Request
  | .create _ dto => PlacementLaw dto
  | _ => fun _ _ => True

/-! ## The pieces that tell nobody -/

theorem hushed_threw (e : Err) : Hushed (.threw e) := trivial

theorem hushed_inside (e : Ev) (he : Hushed e) :
    e.Inside (S := shop) (fun _ => True) ∨ e.Final (S := shop) := by
  cases e with
  | query q x => exact .inl trivial
  | update u hit => exact .inl trivial
  | call c a => exact .inl trivial
  | committed tx => exact he.elim
  | rolledBack => exact he.elim
  | returned tx => exact he.elim
  | threw e => exact .inr trivial

abbrev Hush (p : Prog shop α) : Prop := p.Only (S := shop) Hushed

theorem hush_updateOne (u : Update) : Hush (updateOne u) :=
  only_bind (only_update fun _ => trivial) fun _ => only_throwIf hushed_threw

theorem hush_insertOne (u : Update) : Hush (insertOne u) :=
  only_bind (only_update fun _ => trivial) fun _ => only_throwIf hushed_threw

theorem hush_getTenant (t : Id) : Hush (getTenant t) :=
  only_bind (only_query fun _ => trivial) fun _ => only_orThrow hushed_threw

theorem hush_assertZelleConfigured (t : Id) : Hush (assertZelleConfigured t) := by
  refine only_bind ?_ fun _ => only_throwIf hushed_threw
  unfold getDecryptedCredentials
  split
  · exact only_ret
  refine only_bind (only_query fun _ => trivial) fun setting => ?_
  split
  · exact only_ret
  split
  · exact only_ret
  · exact only_bind (only_orThrow hushed_threw) fun _ => only_ret

theorem hush_assertDigitalOrder (dto : CreateOrder) : Hush (assertDigitalOrder dto) := by
  refine only_bind (only_throwIf hushed_threw) fun _ => ?_
  refine only_bind (only_throwIf hushed_threw) fun _ => ?_
  exact only_bind (only_throwIf hushed_threw) fun _ => only_throwIf hushed_threw

theorem hush_priceCoupon (t : Id) (code : Option String) (options : PriceOptions) :
    Hush (priceCoupon t code options) := by
  unfold priceCoupon
  split
  · exact only_ret
  refine only_bind (only_query fun _ => trivial) fun _ => ?_
  refine only_bind (only_call fun _ => trivial) fun _ => ?_
  split
  · split
    · exact only_ret
    · exact fun _ => trivial
  · exact only_ret

theorem hush_priceShipping (t : Id) (id : Option Id) (active : Bool) :
    Hush (priceShipping t id active) := by
  unfold priceShipping
  split
  · exact only_ret
  refine only_bind (only_query fun _ => trivial) fun _ => ?_
  exact only_bind (only_orThrow hushed_threw) fun _ => only_ret

theorem hush_priceOrder (t : Id) (items : List OrderItemInput) (code : Option String)
    (shippingId : Option Id) (options : PriceOptions) :
    Hush (priceOrder t items code shippingId options) := by
  refine only_bind (only_query fun _ => trivial) fun _ => ?_
  refine only_bind (only_ofExcept hushed_threw) fun _ => ?_
  refine only_bind (hush_priceCoupon t code options) fun _ => ?_
  exact only_bind (hush_priceShipping t shippingId _) fun _ => only_ret

theorem hush_reserveStock (lines : List PricedLine) : Hush (reserveStock lines) :=
  only_each fun _ => only_bind (only_update fun _ => trivial) fun _ => only_throwIf hushed_threw

theorem hush_redeemCoupon (id : Id) (coupon : Coupon) : Hush (redeemCoupon id coupon) :=
  only_bind (only_update fun _ => trivial) fun _ => only_throwIf hushed_threw

theorem hush_createItem (t id : Id) (l : OrderLine) : Hush (createItem t id l) :=
  only_bind (only_call fun _ => trivial) fun _ => hush_insertOne _

/-! ## What a history of such pieces leaves -/

theorem silent_of_hushed (hh : ∀ e ∈ h, Hushed e) : Silent h := by
  intro e he hdeparted
  have := hh e he
  cases hdeparted <;> exact this

theorem not_refused_of_hushed (hh : ∀ e ∈ h, Hushed e) : ¬ Refused h := by
  rintro ⟨t, id, hmem⟩
  exact hh _ hmem

theorem uncommitted_of_hushed (hh : ∀ e ∈ h, Hushed e) (tx : List Update) :
    .committed tx ∉ h := fun hmem => hh _ hmem

theorem not_told_of_hushed (hh : ∀ e ∈ h, Hushed e) {orderId : Id} : ¬ Told orderId h := by
  intro htold
  cases htold with
  | job job horder hmem => exact hh _ hmem
  | event hmem => exact hh _ hmem

theorem placement_hushed {dto : CreateOrder} {h : List Ev} (e : Ev) (hh : ∀ x ∈ h, Hushed x)
    (he : Hushed e) : PlacementLaw dto h e := by
  cases e with
  | committed tx => exact he
  | rolledBack => exact he.elim
  | returned tx => exact he.elim
  | threw err =>
      refine ⟨uncommitted_of_hushed hh, .inl ⟨silent_of_hushed hh, ?_⟩⟩
      exact fun hbad => not_refused_of_hushed hh hbad.2
  | _ => exact trivial

theorem Hush.skip {dto : CreateOrder} {β : Type} {p : Prog shop α} {f : α → Prog shop β}
    {Q : β → List Ev → Prop} (hp : Hush p) (hh : ∀ e ∈ h, Hushed e)
    (hk : ∀ a h', (∀ e ∈ h', Hushed e) → openTx (S := shop) h <:+ openTx (S := shop) h' →
      (f a).Along (PlacementLaw dto) h' Q) :
    (p >>= f).Along (PlacementLaw dto) h Q :=
  along_seq.2 ((hp.along (fun _ e => placement_hushed e) hushed_inside hh).mono
    fun a h' hh' => hk a h' hh'.1 hh'.2)

theorem hushed_cons {e : Ev} (he : Hushed e) (hh : ∀ x ∈ h, Hushed x) :
    ∀ x ∈ e :: h, Hushed x := by
  intro x hx
  rcases List.mem_cons.1 hx with rfl | hx
  · exact he
  · exact hh x hx

theorem Hush.insert {dto : CreateOrder} {u : Update} {f : Unit → Prog shop α}
    {Q : α → List Ev → Prop} (hh : ∀ e ∈ h, Hushed e)
    (hk : (∀ e ∈ .update u true :: h, Hushed e) →
      (f ()).Along (PlacementLaw dto) (.update u true :: h) Q) :
    (insertOne u >>= f).Along (PlacementLaw dto) h Q := by
  refine along_seq.2 (along_seq.2 fun hit => ⟨trivial, along_throwIf.2 ⟨fun _ => ?_, fun hhit => ?_⟩⟩)
  · have hh' : ∀ e ∈ (.update u hit :: h : List Ev), Hushed e := hushed_cons trivial hh
    exact placement_hushed (.threw _) hh' trivial
  · cases hit with
    | false => cases hhit
    | true => exact hk (hushed_cons trivial hh)

/-! ## The steps that tell -/

/-- The order is written, and at most the Telegram message of it was queued. -/
structure Written (method : FulfillmentMethod) (orderId : Id) (h : List Ev) : Prop where
  inserted : ∃ o, .insertOrder orderId o ∈ openTx (S := shop) h
  told : (method ≠ .telegram ∧ ∀ e ∈ h, Hushed e) ∨
    (method = .telegram ∧ ∃ t h₀, h = .call (.enqueue (.telegramMessage t orderId)) true :: h₀ ∧
      ∀ e ∈ h₀, Hushed e)

theorem Written.not_refused {method : FulfillmentMethod} {orderId : Id}
    (hw : Written method orderId h) : ¬ Refused h := by
  rcases hw.told with ⟨-, hh⟩ | ⟨-, t, h₀, rfl, hh⟩
  · exact not_refused_of_hushed hh
  · rintro ⟨t', id, hmem⟩
    rcases List.mem_cons.1 hmem with heq | hmem
    · cases heq
    · exact hh _ hmem

theorem Written.uncommitted {method : FulfillmentMethod} {orderId : Id}
    (hw : Written method orderId h) (tx : List Update) : .committed tx ∉ h := by
  rcases hw.told with ⟨-, hh⟩ | ⟨-, t, h₀, rfl, hh⟩
  · exact uncommitted_of_hushed hh tx
  · intro hmem
    rcases List.mem_cons.1 hmem with heq | hmem
    · cases heq
    · exact hh _ hmem

theorem Written.told_eq {method : FulfillmentMethod} {orderId id : Id}
    (hw : Written method orderId h) (htold : Told id h) : id = orderId := by
  rcases hw.told with ⟨-, hh⟩ | ⟨-, t, h₀, rfl, hh⟩
  · exact (not_told_of_hushed hh htold).elim
  · cases htold with
    | job job horder hmem =>
        rcases List.mem_cons.1 hmem with heq | hmem
        · cases heq
          exact (Option.some.inj horder).symm
        · exact (hh _ hmem).elim
    | event hmem =>
        rcases List.mem_cons.1 hmem with heq | hmem
        · cases heq
        · exact (hh _ hmem).elim

theorem placement_dispatch {dto : CreateOrder} {t orderId : Id} {tenant : Tenant}
    (hbyMessage : dto.fulfillmentMethod.byMessage = true) (hh : ∀ e ∈ h, Hushed e)
    (horder : ∃ o, .insertOrder orderId o ∈ openTx (S := shop) h) :
    (dispatchMessageFulfillment t tenant orderId dto.fulfillmentMethod).Along (PlacementLaw dto) h
      fun _ h' => Written dto.fulfillmentMethod orderId h' := by
  have hkeep : ∀ h' : List Ev, openTx (S := shop) h <:+ openTx (S := shop) h' →
      ∃ o, .insertOrder orderId o ∈ openTx (S := shop) h' := by
    intro h' hsuffix
    obtain ⟨o, ho⟩ := horder
    exact ⟨o, hsuffix.subset ho⟩
  refine Hush.skip (hush_updateOne _) hh fun _ h₁ hh₁ htx₁ => ?_
  split
  · next hwhatsapp =>
      have hmethod : dto.fulfillmentMethod = .whatsapp := eq_of_beq hwhatsapp
      refine along_throwIf.2 ⟨fun _ => placement_hushed _ hh₁ trivial, fun _ => ?_⟩
      exact ⟨hkeep _ htx₁, .inl ⟨by simp [hmethod], hh₁⟩⟩
  · next hwhatsapp =>
      have hmethod : dto.fulfillmentMethod = .telegram := by
        simpa [FulfillmentMethod.byMessage, hwhatsapp] using hbyMessage
      refine along_seq.2 (along_throwIf.2 ⟨fun _ => placement_hushed _ hh₁ trivial, fun _ => ?_⟩)
      refine along_invoke (fun _ => trivial) fun queued => ?_
      cases queued with
      | true => exact ⟨hkeep _ htx₁, .inr ⟨hmethod, t, h₁, rfl, hh₁⟩⟩
      | false =>
          -- a message the queue refuses has not left
          refine ⟨fun tx hmem => ?_, .inl ⟨fun e he hdeparted => ?_, fun hbad => ?_⟩⟩
          · rcases List.mem_cons.1 hmem with heq | hmem
            · cases heq
            · exact hh₁ _ hmem
          · rcases List.mem_cons.1 he with rfl | he
            · cases hdeparted
            · exact silent_of_hushed hh₁ e he hdeparted
          · obtain ⟨-, t', id, hmem⟩ := hbad
            rcases List.mem_cons.1 hmem with heq | hmem
            · cases heq
            · exact hh₁ _ hmem

/-- The order is written, and nothing was told of any other one. -/
structure Announced (orderId : Id) (h : List Ev) : Prop where
  inserted : ∃ o, .insertOrder orderId o ∈ openTx (S := shop) h
  not_refused : ¬ Refused h
  told_eq : ∀ id, Told id h → id = orderId

theorem Written.announced {method : FulfillmentMethod} {orderId : Id}
    (hw : Written method orderId h) : Announced orderId h :=
  ⟨hw.inserted, hw.not_refused, fun _ => hw.told_eq⟩

theorem Announced.tell {orderId : Id} (ha : Announced orderId h) {c : Call} {a : c.Answer}
    (hrefused : ∀ t id, (.call (.enqueue (.orderConfirmation t id)) false : Ev) ≠ .call c a)
    (hjob : ∀ job, (.call (.enqueue job) true : Ev) = .call c a → job.orderId = some orderId)
    (hevent : ∀ id, (.call (.emitOrderEvent id) () : Ev) = .call c a → id = orderId) :
    Announced orderId (.call c a :: h) where
  inserted := ha.inserted
  not_refused := by
    rintro ⟨t, id, hmem⟩
    rcases List.mem_cons.1 hmem with heq | hmem
    · exact hrefused t id heq
    · exact ha.not_refused ⟨t, id, hmem⟩
  told_eq id htold := by
    cases htold with
    | job job horder hmem =>
        rcases List.mem_cons.1 hmem with heq | hmem
        · exact Option.some.inj (horder.symm.trans (hjob job heq))
        · exact ha.told_eq id (.job job horder hmem)
    | event hmem =>
        rcases List.mem_cons.1 hmem with heq | hmem
        · exact hevent id heq
        · exact ha.told_eq id (.event hmem)

theorem placement_queueConfirmationEmail {dto : CreateOrder} {t orderId : Id}
    (hw : Written dto.fulfillmentMethod orderId h) :
    (queueConfirmationEmail t orderId).Along (PlacementLaw dto) h
      fun _ h' => Announced orderId h' := by
  refine along_invoke (fun _ => trivial) fun queued => ?_
  cases queued with
  | true =>
      refine hw.announced.tell (by simp) (fun job heq => ?_) (fun id heq => ?_)
      · cases heq
        rfl
      · cases heq
  | false =>
      -- the confirmation is refused; only a Telegram message may have left before
      have hrefused : Refused (.call (.enqueue (.orderConfirmation t orderId)) false :: h) :=
        ⟨t, orderId, List.mem_cons_self⟩
      refine ⟨fun tx hmem => ?_, ?_⟩
      · rcases List.mem_cons.1 hmem with heq | hmem
        · cases heq
        · exact hw.uncommitted tx hmem
      · rcases hw.told with ⟨hmethod, hh⟩ | ⟨hmethod, t', h₀, rfl, hh⟩
        · refine .inl ⟨fun e he hdeparted => ?_, fun hbad => hmethod hbad.1⟩
          rcases List.mem_cons.1 he with rfl | he
          · cases hdeparted
          · exact silent_of_hushed hh e he hdeparted
        · refine .inr ⟨⟨orderId, .job (.telegramMessage t' orderId) rfl ?_⟩, hmethod, hrefused⟩
          simp

theorem placement_emit (dto : CreateOrder) {orderId : Id} (ha : Announced orderId h) :
    PlacementLaw dto (.call (.emitOrderEvent orderId) () :: h)
      (.returned (openTx (S := shop) h)) := by
  have hend : Announced orderId (.call (.emitOrderEvent orderId) () :: h) := by
    refine ha.tell (by simp) (fun job heq => ?_) (fun id heq => ?_)
    · cases heq
    · cases heq
      rfl
  refine ⟨hend.not_refused, fun id htold => ?_⟩
  rw [hend.told_eq id htold]
  exact ha.inserted

/-- **The protocol of a request that creates an order.** -/
theorem create_placement (t : Id) (dto : CreateOrder) :
    (create t dto).Follows (PlacementLaw dto) := by
  have hnil : ∀ e ∈ ([] : List Ev), Hushed e :=
    fun _ he => absurd he List.not_mem_nil
  refine Hush.skip (only_throwIf hushed_threw) hnil fun _ _ hh _ => ?_
  refine Hush.skip (hush_getTenant t) hh fun tenant _ hh _ => ?_
  refine Hush.skip (only_call fun _ => trivial) hh fun _ _ hh _ => ?_
  refine Hush.skip (only_throwIf hushed_threw) hh fun _ _ hh _ => ?_
  refine Hush.skip (only_runIf (hush_assertZelleConfigured t)) hh fun _ _ hh _ => ?_
  refine Hush.skip (only_runIf (hush_assertDigitalOrder dto)) hh fun _ _ hh _ => ?_
  refine Hush.skip (hush_priceOrder t _ _ _ _) hh fun priced _ hh _ => ?_
  refine Hush.skip (only_runIf (hush_reserveStock _)) hh fun _ h₁ hh₁ _ => ?_
  -- the rest is the same whether a coupon was redeemed or not
  have hrest : ∀ h₂ : List Ev, (∀ e ∈ h₂, Hushed e) → (do
      let createdAt ← now
      let orderId ← uuid
      insertOne (.insertOrder orderId
        (newOrder t tenant dto (priced.coupon.map Prod.fst) priced.totals createdAt))
      Prog.each (createItem t orderId) priced.pricedLines
      Prog.runIf dto.fulfillmentMethod.byMessage
        (dispatchMessageFulfillment t tenant orderId dto.fulfillmentMethod)
      Prog.runIf (dto.customerEmail.isSome && !tenant.catalogType == .digital)
        (queueConfirmationEmail t orderId)
      .call (.emitOrderEvent orderId) .ret : Prog shop Unit).Along (PlacementLaw dto) h₂
        fun _ h' => PlacementLaw dto h' (.returned (openTx (S := shop) h')) := by
    intro h₂ hh₂
    refine Hush.skip (only_call fun _ => trivial) hh₂ fun createdAt _ hh _ => ?_
    refine Hush.skip (only_call fun _ => trivial) hh fun orderId h₃ hh₃ _ => ?_
    refine Hush.insert hh₃ fun hh₄ => ?_
    refine Hush.skip (only_each fun l => hush_createItem t orderId l) hh₄ fun _ h₅ hh₅ htx => ?_
    have horder : ∃ o, .insertOrder orderId o ∈ openTx (S := shop) h₅ :=
      ⟨_, htx.subset List.mem_cons_self⟩
    have hdispatch : (runIf dto.fulfillmentMethod.byMessage
        (dispatchMessageFulfillment t tenant orderId dto.fulfillmentMethod)).Along
          (PlacementLaw dto) h₅ fun _ h' => Written dto.fulfillmentMethod orderId h' := by
      refine along_runIf.2 ⟨fun hmessage => placement_dispatch hmessage hh₅ horder, fun hno => ?_⟩
      refine ⟨horder, .inl ⟨fun hmethod => ?_, hh₅⟩⟩
      simp [hmethod, FulfillmentMethod.byMessage] at hno
    refine along_seq.2 (hdispatch.mono fun _ h₆ hw => ?_)
    have hconfirm : (runIf (dto.customerEmail.isSome && !tenant.catalogType == .digital)
        (queueConfirmationEmail t orderId)).Along (PlacementLaw dto) h₆
          fun _ h' => Announced orderId h' :=
      along_runIf.2 ⟨fun _ => placement_queueConfirmationEmail hw, fun _ => hw.announced⟩
    refine along_seq.2 (hconfirm.mono fun _ h₇ ha => ?_)
    exact fun _ => ⟨trivial, placement_emit dto ha⟩
  split
  · exact hrest _ hh₁
  · exact Hush.skip (hush_redeemCoupon _ _) hh₁ fun _ h₂ hh₂ _ => hrest h₂ hh₂

theorem handler_placing (r : Request) : (handler r).Follows (Placing r) := by
  cases r with
  | create t dto => exact create_placement t dto
  | _ => exact follows_anything _

end WhatStore
