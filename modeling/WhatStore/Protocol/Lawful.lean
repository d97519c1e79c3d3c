import WhatStore.Services.Requests

/-!
# What the services may write

`Lawful r` is the protocol of the request `r`: the updates it may issue, each
with the reads that justify it. It says once what every write of the order and
payment services depends on. The invariants of a store are proved from it and
from what the other requests may have done since those reads, and never look at
the programs again.
-/

namespace WhatStore

open ReadCommitted

abbrev Ev := Event shop

def noUpdate (_ : Update) : Prop := False

/-- The process has read the order `id` as `o`. -/
def OrderSaw (id : Id) (o : Order) (h : List Ev) : Prop :=
  Saw (S := shop) (.order id) (some o) h

/-- Every line the process has read has a quantity of at least one. -/
def PositiveLines (h : List Ev) : Prop :=
  ∀ id i, Saw (S := shop) (.item id) (some i) h → 1 ≤ i.quantity

/-- A provider has told the process that `payment` was completed for the order
`id`: how much it charged, in minor units, and in which currency. -/
inductive Reports (r : Request) (h : List Ev) :
    Gateway → Id → Option Id → Option Int → Option String → Prop where
  | stripe (account : Option Id) (session : StripeSession) (id : Id)
      (hr : r = .stripeWebhook (some (.sessionCompleted account session)))
      (hpaid : session.paymentStatus = "paid") (hid : session.orderId = some id) :
      Reports r h .stripe id session.paymentIntent session.amountTotal session.currency
  | mercadoPago (dataId : Id) (payment : MercadoPagoPayment) (id : Id) (currency : String)
      (hcall : Event.call (S := shop) (.getPayment dataId) (some payment) ∈ h)
      (hpaid : payment.status = "approved") (hid : payment.orderId = some id)
      (hcurrency : payment.currencyId = some currency) :
      Reports r h .mercadoPago id (some payment.id)
        (some (toMinorUnits payment.transactionAmount currency)) (some currency)
  | paypalCapture (paypalOrderId id : Id) (state : PayPalOrderState) (captureId : Id)
      (hcall : Event.call (S := shop) (.captureOrder paypalOrderId) (some state) ∈ h)
      (hpaid : state.captureStatus = some .completed) (hid : state.captureId = some captureId) :
      Reports r h .paypal id (some captureId) state.amountMinor state.currency
  | paypalEvent (captureId paypalOrderId : Id) (amount : Option Cents) (currency : Option String)
      (id : Id)
      (hr : r = .payPalWebhook (some (.capture true captureId (some paypalOrderId) amount currency))) :
      Reports r h .paypal id (some captureId)
        (amount.map fun a => toMinorUnits a (currency.getD "USD")) currency

theorem Reports.source {r : Request} {h : List Ev} {g : Gateway} {id : Id} {payment : Option Id}
    {amount : Option Int} {currency : Option String} (hr : Reports r h g id payment amount currency) :
    (∃ e, r = .stripeWebhook e) ∨ (∃ e, r = .payPalWebhook e) ∨
      (∃ dataId answer, Event.call (S := shop) (.getPayment dataId) (some answer) ∈ h) ∨
      ∃ paypalOrderId answer,
        Event.call (S := shop) (.captureOrder paypalOrderId) (some answer) ∈ h := by
  cases hr with
  | stripe account session _ hr => exact .inl ⟨_, hr⟩
  | mercadoPago dataId answer _ _ hcall => exact .inr (.inr (.inl ⟨dataId, answer, hcall⟩))
  | paypalCapture paypalOrderId _ answer _ hcall =>
      exact .inr (.inr (.inr ⟨paypalOrderId, answer, hcall⟩))
  | paypalEvent _ _ _ _ _ hr => exact .inr (.inl ⟨_, hr⟩)

def Request.settles : Request → Bool
  | .capturePayPalOrder _ _ => true
  | .stripeWebhook _ => true
  | .mercadoPagoWebhook _ => true
  | .payPalWebhook _ => true
  | _ => false

/-- The process works on a job of the delivery `deliveryId`. -/
def Request.delivers (r : Request) (deliveryId : Id) : Prop :=
  ∃ resend, r = .processDelivery deliveryId resend

/-- The request replaces the variants of a product, or removes the product. -/
def Request.dropsVariants (r : Request) : Prop :=
  (∃ t id dto, r = .updateProduct t id dto) ∨ ∃ t id, r = .removeProduct t id

/-- The request deletes a file, or a product with its files. -/
def Request.dropsFiles (r : Request) : Prop :=
  (∃ t p id, r = .removeAsset t p id) ∨ ∃ t id, r = .removeProduct t id

/-- The last thing the process did was to draw the random name `name`. -/
def Drew (name : Id) (h : List Ev) : Prop :=
  h.head? = some (.call .uuid name)

/-- The open transaction has inserted the delivery of an order and reads it as `d`. -/
def Delivering (d : DigitalDelivery) (h : List Ev) : Prop := ∃ orderId id tenantId createdAt,
  Wrote (S := shop) (.insertDelivery orderId (newDelivery id tenantId createdAt)) h ∧
    Sees (S := shop) (.delivery orderId) (some d) h

def Justified (r : Request) (h : List Ev) : Update → Prop
  | .insertOrder _ o => ∃ tenantId dto tenant couponId totals time,
      r = .create tenantId dto ∧ o = newOrder tenantId tenant dto couponId totals time
  | .insertItem _ i =>
      ((∃ t dto, r = .create t dto) ∨ ∃ t dto, r = .updateDetails t i.orderId dto) ∧
        1 ≤ i.quantity ∧
        (∃ p, i.productId = some p ∧ ∃ v, Saw (S := shop) (.product p) (some v) h) ∧
        ∀ row, i.stockRow = some row → ∃ v, Saw (S := shop) row.key (some v) h
  | .confirmMessage id => (∃ t dto, r = .create t dto) ∧
      ∃ o, o.status = .pending ∧ Wrote (S := shop) (.insertOrder id o) h
  | .claimStatus id old new pay => (∃ t c, r = .updateStatus t id new c) ∧
      ∃ o, OrderSaw id o h ∧ o.status = old ∧ old ≠ new ∧ old.terminal = false ∧
        pay = o.paymentData new
  | .restatus id status pay => (∃ t c, r = .updateStatus t id status c) ∧
      ∃ o, OrderSaw id o h ∧ o.status = status ∧ pay = o.paymentData status ∧ pay.isSome
  | .editOrder id e => ∃ t dto, r = .updateDetails t id dto ∧
      ∃ o, OrderSaw id o h ∧ o.status.terminal = false ∧
        (∀ p, e.paymentStatus = some p →
          (p = .pending ∨ p = .paid) ∧ o.isGateway = false ∧ p ≠ o.paymentStatus) ∧
        (∀ totals, e.totals = some totals → o.isGateway = true → o.paymentStatus = .paid →
          totals.grandTotal = o.grandTotal) ∧
        ((dto.items = none ∧ dto.shippingId = none) → e.totals = none)
  | .settle id g payment => r.settles = true ∧ ∃ o, OrderSaw id o h ∧ o.paymentStatus ≠ .paid ∧
      o.status.terminal = false ∧ (g = .paypal → o.fulfillmentMethod = .paypal) ∧
      Reports r h g id payment (some (toMinorUnits o.grandTotal o.currency)) (some o.currency)
  | .failPayPal _ => True
  | .sweepCancel _ => r = .sweep
  | .markLost _ _ => ∃ e, r = .payPalWebhook e
  | .confirmManual id => (∃ t, r = .confirmZellePayment t id) ∧
      ∃ o, OrderSaw id o h ∧ o.fulfillmentMethod = .zelle ∧ o.status.terminal = false ∧
        o.paymentStatus ≠ .paid
  | .rejectManual id => ∃ o, OrderSaw id o h ∧ o.fulfillmentMethod = .zelle
  | .submitProof id _ _ => ∃ o, OrderSaw id o h ∧ o.fulfillmentMethod = .zelle ∧
      o.paymentStatus ≠ .paid
  | .bindCheckout id g _ => ∃ o, OrderSaw id o h ∧ o.fulfillmentMethod.gateway = some g ∧
      o.paymentStatus ≠ .paid ∧ o.status.terminal = false
  | .hideOrder id _ => ∃ o, OrderSaw id o h ∧ o.status.hideable = true
  | .take _ n => ((∃ t dto, r = .create t dto) ∨ ∃ t id dto, r = .updateDetails t id dto) ∧
      0 ≤ n
  | .give _ n => PositiveLines h → 0 ≤ n
  | .redeem id limit => (∃ t dto, r = .create t dto) ∧
      ∃ c, Saw (S := shop) (.coupon id) (some c) h ∧ limit = c.usageLimit
  | .releaseCoupon _ => (∃ t id c, r = .updateStatus t id .cancelled c) ∨ r = .sweep
  | .updateItem id read data => (∃ t dto, r = .updateDetails t read.orderId dto) ∧
      Saw (S := shop) (.item id) (some read) h ∧ (PositiveLines h → 1 ≤ data.quantity)
  | .deleteItem id read => (∃ t dto, r = .updateDetails t read.orderId dto) ∧
      Saw (S := shop) (.item id) (some read) h
  | .clearVariant _ _ => r.dropsVariants
  | .insertDelivery _ d => Drew d.id h ∧ d.status = .pending
  | .revokeDelivery _ _ _ => True
  | .insertGrant _ g => (∃ token, Drew token h ∧ g.tokenHash = hashDownloadToken token) ∧
      g.downloadCount ≤ g.maxDownloads ∧ ∃ d, Delivering d h ∧ g.deliveryId = d.id
  | .revokeGrant _ _ => True
  | .mintGrant _ tokenHash _ => (∃ deliveryId, r.delivers deliveryId) ∧
      ∃ token, Drew token h ∧ tokenHash = hashDownloadToken token
  | .takeDownload id limit _ => (∃ token, r = .redeem token) ∧
      ∃ g, Saw (S := shop) (.grant id) (some g) h ∧ limit = g.maxDownloads
  | .noteDelivery _ deliveryId _ _ => r.delivers deliveryId
  | .markSent _ deliveryId _ => r.delivers deliveryId
  | .markFailed _ deliveryId _ _ => r.delivers deliveryId
  | .editTenant id _ => ∃ dto, r = .updateTenant id dto
  | .editProduct id e => ∃ t dto, r = .updateProduct t id dto ∧ e.quantity = dto.quantity
  | .deleteVariant _ => r.dropsVariants
  | .insertVariant _ v => (∃ t id dto, r = .updateProduct t id dto) ∧ 0 ≤ v.quantity
  | .deleteProduct id => ∃ t, r = .removeProduct t id
  | .clearProduct _ productId => ∃ t, r = .removeProduct t productId
  | .deleteAsset _ => r.dropsFiles
  | .deleteGrant _ => r.dropsFiles

theorem Delivering.extends {d : DigitalDelivery} {h h' : List Ev} {A : Update → Prop}
    (hd : Delivering d h) (he : Prog.Extends (S := shop) A h h')
    (hA : ∀ u, A u → ∀ orderId, u.key ≠ .delivery orderId) : Delivering d h' := by
  obtain ⟨orderId, id, t, time, hwrote, hsees⟩ := hd
  exact ⟨orderId, id, t, time, hwrote.extends he fun u hu => hA u hu orderId,
    hsees.extends he fun u hu => hA u hu orderId⟩

def Lawful : Protocol shop Request := fun r h e =>
  match e with
  | .update u true => Justified r h u
  | _ => True

theorem lawful_permissive (r : Request) : Prog.Permissive (Lawful r) where
  query _ _ _ := trivial
  call _ _ _ := trivial
  threw _ _ := trivial
  miss _ _ := trivial

/-! ## What the queries show -/

theorem orderOf_eq_some {s : Database} {t id : Id} {o : Order} (h : orderOf s t id = some o) :
    s.row (.order id) = some o :=
  (Option.filter_eq_some_iff.1 h).1

theorem mem_itemsOf {s : Database} {orderId iid : Id} {i : OrderItem} :
    (iid, i) ∈ itemsOf s orderId ↔ s.row (.item iid) = some i ∧ i.orderId = orderId := by
  rw [itemsOf, List.mem_filterMap]
  constructor
  · rintro ⟨k, -, hk⟩
    cases k with
    | item id =>
        obtain ⟨j, hj, heq⟩ := Option.map_eq_some_iff.1 hk
        obtain ⟨hrow, hid⟩ := Option.filter_eq_some_iff.1 hj
        cases heq
        exact ⟨hrow, by simpa using hid⟩
    | _ => cases hk
  · rintro ⟨hrow, hid⟩
    refine ⟨.item iid, s.mem_keys_of_row hrow, ?_⟩
    simp [hrow, hid]

theorem mem_variantsOf {s : Database} {p vid : Id} {v : ProductVariant}
    (h : (vid, v) ∈ variantsOf s p) : s.row (.variant vid) = some v ∧ v.productId = p := by
  rw [variantsOf, List.mem_filterMap] at h
  obtain ⟨k, -, hk⟩ := h
  cases k with
  | variant id =>
      obtain ⟨j, hj, heq⟩ := Option.map_eq_some_iff.1 hk
      obtain ⟨hrow, hid⟩ := Option.filter_eq_some_iff.1 hj
      cases heq
      exact ⟨hrow, by simpa using hid⟩
  | _ => cases hk

theorem mem_ordersWhere {s : Database} {p : Order → Bool} {id : Id} {o : Order} :
    (id, o) ∈ ordersWhere s p ↔ s.row (.order id) = some o ∧ p o = true := by
  rw [ordersWhere, List.mem_filterMap]
  constructor
  · rintro ⟨k, -, hk⟩
    cases k with
    | order id =>
        obtain ⟨j, hj, heq⟩ := Option.map_eq_some_iff.1 hk
        cases heq
        exact Option.filter_eq_some_iff.1 hj
    | _ => cases hk
  · rintro ⟨hrow, hp⟩
    refine ⟨.order id, s.mem_keys_of_row hrow, ?_⟩
    simp [hrow, hp]

theorem mem_products {s : Database} {t : Id} {ids : List Id} {published : Bool}
    {p : Id × Product × List (Id × ProductVariant)}
    (h : p ∈ Query.eval (.products t ids published) s) :
    s.row (.product p.1) = some p.2.1 ∧ p.2.2 = variantsOf s p.1 := by
  simp only [Query.eval, List.mem_filterMap] at h
  obtain ⟨k, -, hk⟩ := h
  cases k with
  | product id =>
      obtain ⟨j, hj, heq⟩ := Option.map_eq_some_iff.1 hk
      cases heq
      exact ⟨(Option.filter_eq_some_iff.1 hj).1, rfl⟩
  | _ => cases hk

/-! ## What a history has seen -/

theorem Saw.mono {S : Schema} {k : S.Key} {v : Option (S.Row k)} {h h' : List (Event S)}
    (hs : Saw k v h) (hh : h <:+ h') : Saw k v h' := by
  obtain ⟨es, rfl⟩ := hh
  induction es with
  | nil => exact hs
  | cons e es ih => exact .inr ih

theorem saw_query {q : Query} {k : Key} {v : Option (Row k)} {s : Database} {h : List Ev}
    (hshow : ∀ s' : Database, q.eval s' = q.eval s → s'.row k = v)
    (hfree : k ∉ locks (S := shop) (openTx h)) :
    Saw (S := shop) k v (.query q (q.eval s) :: h) :=
  .inl ⟨hshow, hfree⟩

theorem orderSaw_order {s : Database} {t id : Id} {o : Order} {h : List Ev}
    (ho : orderOf s t id = some o) (hfree : Key.order id ∉ locks (S := shop) (openTx h)) :
    OrderSaw id o (.query (.order t id) (Query.eval (.order t id) s) :: h) :=
  saw_query (fun _ hs' => orderOf_eq_some (hs'.trans ho)) hfree

theorem orderSaw_existing {s : Database} {t id : Id} {o : Order} {h : List Ev}
    (ho : orderOf s t id = some o) (hfree : Key.order id ∉ locks (S := shop) (openTx h)) :
    OrderSaw id o (.query (.existing t id) (Query.eval (.existing t id) s) :: h) :=
  saw_query (fun _ hs' => orderOf_eq_some (hs'.trans ho)) hfree

theorem eval_orderWithItems {s : Database} {t id : Id} {x : Order × List (Id × OrderItem)}
    (hx : Query.eval (.orderWithItems t id) s = some x) :
    orderOf s t id = some x.1 ∧ itemsOf s id = x.2 := by
  obtain ⟨o, ho, heq⟩ := Option.map_eq_some_iff.1 hx
  cases heq
  exact ⟨ho, rfl⟩

theorem orderSaw_orderWithItems {s : Database} {t id : Id} {x : Order × List (Id × OrderItem)}
    {h : List Ev} (hx : Query.eval (.orderWithItems t id) s = some x)
    (hfree : Key.order id ∉ locks (S := shop) (openTx h)) :
    OrderSaw id x.1 (.query (.orderWithItems t id) (Query.eval (.orderWithItems t id) s) :: h) :=
  saw_query (fun _ hs' => orderOf_eq_some (eval_orderWithItems (hs'.trans hx)).1) hfree

theorem itemSaw_orderWithItems {s : Database} {t id : Id} {x : Order × List (Id × OrderItem)}
    {h : List Ev} (hx : Query.eval (.orderWithItems t id) s = some x) {i : Id × OrderItem}
    (hi : i ∈ x.2) (hfree : Key.item i.1 ∉ locks (S := shop) (openTx h)) :
    i.2.orderId = id ∧ Saw (S := shop) (.item i.1) (some i.2)
      (.query (.orderWithItems t id) (Query.eval (.orderWithItems t id) s) :: h) := by
  have hmem : ∀ s' : Database, Query.eval (.orderWithItems t id) s' =
      Query.eval (.orderWithItems t id) s → s'.row (.item i.1) = some i.2 ∧ i.2.orderId = id := by
    intro s' hs'
    refine mem_itemsOf.1 ?_
    rw [(eval_orderWithItems (hs'.trans hx)).2]
    exact hi
  exact ⟨(hmem s rfl).2, saw_query (fun s' hs' => (hmem s' hs').1) hfree⟩

end WhatStore
