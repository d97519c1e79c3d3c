import WhatStore.Services.Digital

/-!
# Payments

`PaymentsService`: opening a checkout with a provider, settling what a provider
reports, giving money back, and confirming or rejecting a Zelle payment by
hand.

A webhook runs in transactions of its own (`withTenant`), which end with a
`commit`. The other operations here run in the transaction of their request,
except for the two PayPal ones the buyer calls.
-/

namespace WhatStore

open ReadCommitted

/-! ## Credentials and checks -/

/-- The credentials of a store for a provider. MercadoPago and PayPal charge
through the platform's account. -/
def getDecryptedCredentials (tenantId : Id) (provider : PaymentProvider) :
    Prog shop (Option Credentials) :=
  if provider == .mercadoPago || provider == .paypal then .ret none else do
    let setting : Option TenantPaymentSetting ← .query (.setting tenantId provider) .ret
    match setting with
    | none => .ret none
    | some s =>
      if !s.isEnabled then .ret none else do
        let credentials ← Prog.orThrow s.credentials (.badRequest "Payment credentials corrupted")
        .ret (some credentials)

def assertZelleConfigured (tenantId : Id) : Prog shop Unit := do
  let config ← getDecryptedCredentials tenantId .zelle
  Prog.throwIf config.isNone (.badRequest "Zelle is not configured for this store")

/-- A checkout can only be opened for an order that still owes money. -/
def assertPayable (order : Order) : Prog shop Unit := do
  Prog.throwIf (order.paymentStatus == .paid) (.conflict "Order is already paid")
  Prog.throwIf order.status.terminal (.conflict ("Order is " ++ order.status.name))

def assertRedirectUrlsAllowed (tenantId : Id) : Prog shop Unit := do
  let allowed : Bool ← .call (.returnUrlsAllowed tenantId) .ret
  Prog.throwIf (!allowed) (.badRequest "Redirect URL is not allowed for this store")

def checkoutContext (tenantId orderId : Id) (order : Order) (items : List (Id × OrderItem)) :
    CheckoutContext where
  orderId := orderId
  tenantId := tenantId
  currency := order.currency
  grandTotal := order.grandTotal
  shippingTotal := order.shippingTotal
  taxTotal := order.taxTotal
  discountTotal := order.discountTotal
  items := items.map fun i => (i.2.unitPrice, i.2.quantity)

/-- The provider opens a checkout and answers its reference. -/
def openCheckout (gateway : Gateway) (context : CheckoutContext) : Prog shop Id := do
  let reference : Option Id ← .call (.createCheckout gateway context) .ret
  Prog.orThrow reference (.failure "The provider did not open a checkout")

/-! ## Giving money back -/

def refundPaymentIntent (tenantId paymentIntentId : Id) : Prog shop Unit := do
  let _ ← getDecryptedCredentials tenantId .stripe
  let refunded : Bool ← .call (.refund .stripe paymentIntentId) .ret
  Prog.throwIf (!refunded) (.badRequest "Stripe could not process this refund")

/-- Reverses the charge of a paid order at the provider it was paid through;
nothing to do for an order without an online charge. -/
def refundOrderPayment (tenantId : Id) (order : Order) : Prog shop Unit :=
  match order.fulfillmentMethod, order.stripePaymentIntentId, order.paypalCaptureId,
      order.mercadoPagoPaymentId with
  | .stripe, some paymentIntentId, _, _ => refundPaymentIntent tenantId paymentIntentId
  | .paypal, _, some captureId, _ => do
      let refunded : Bool ← .call (.refund .paypal captureId) .ret
      Prog.throwIf (!refunded) (.badRequest "PayPal could not process this refund")
  | .mercadoPago, _, _, some paymentId => do
      let refunded : Bool ← .call (.refund .mercadoPago paymentId) .ret
      Prog.throwIf (!refunded) (.badRequest "MercadoPago could not process this refund")
  | _, _, _, _ => .ret ()

/-! ## Stripe -/

def createStripeCheckout (tenantId orderId : Id) : Prog shop Unit := do
  let found ← findOrderWithItems tenantId orderId
  let (order, items) ← Prog.orThrow found (.notFound "Order not found")
  Prog.throwIf (order.fulfillmentMethod != .stripe)
    (.badRequest "Order is not configured for card payment")
  assertPayable order
  assertRedirectUrlsAllowed tenantId
  let _ ← getDecryptedCredentials tenantId .stripe
  match order.stripeCheckoutSessionId with
  | none => .ret ()
  | some sessionId => .call (.expireSession sessionId) .ret
  let reference ← openCheckout .stripe (checkoutContext tenantId orderId order items)
  updateOne (.bindCheckout orderId .stripe reference)

structure StripeSession where
  planCheckout : Bool
  tenantId : Option Id
  orderId : Option Id
  paymentIntent : Option Id
  paymentStatus : String
  amountTotal : Option Int
  currency : Option String

inductive StripeEvent where
  | sessionCompleted (account : Option Id) (session : StripeSession)
  | other

/-- The end of every settlement once its conditional write has confirmed the
order: the invoice is queued and digital goods are delivered. Answers that no
refund is needed, with the jobs to queue after the commit. -/
def settled (tenantId orderId : Id) : Prog shop (Bool × List Job) := do
  let jobs ← createDeliveryForPaidOrder tenantId orderId
  .ret (false, .generateInvoice tenantId orderId :: jobs)

/-- The transaction of a Stripe settlement. Answers whether the payment has to
be refunded. -/
def settleStripe (account : Option Id) (session : StripeSession) (tenantId orderId : Id) :
    Prog shop (Bool × List Job) := do
  let found : Option Order ← .query (.existing tenantId orderId) .ret
  match found with
  | none => .ret (false, [])
  | some existing =>
    if session.paymentStatus != "paid" then .ret (false, []) else do
    let credentials ← getDecryptedCredentials tenantId .stripe
    -- a Connect account can create sessions of its own with any metadata
    if account != credentials.bind Credentials.connectedAccountId then .ret (false, []) else
    if existing.paymentStatus == .paid then
      .ret (session.paymentIntent.isSome && existing.stripePaymentIntentId.isSome &&
        session.paymentIntent != existing.stripePaymentIntentId, [])
    else if existing.status.terminal then .ret (existing.status == .cancelled, [])
    else if session.amountTotal != some (toMinorUnits existing.grandTotal existing.currency) ||
        session.currency != some existing.currency then .ret (true, [])
    else do
      let won ← updateMany (.settle orderId .stripe session.paymentIntent)
      if !won then do
        let winner : Option Order ← .query (.winner tenantId orderId) .ret
        .ret (session.paymentIntent.isSome &&
          winner.bind Order.stripePaymentIntentId != session.paymentIntent, [])
      else settled tenantId orderId

/-- `none` is a body whose signature does not verify. -/
def handleStripeWebhook (event : Option StripeEvent) : Prog shop Unit := do
  let event ← Prog.orThrow event (.badRequest "Invalid webhook signature")
  match event with
  | .other => .ret ()
  | .sessionCompleted account session =>
    if session.planCheckout then .ret () else
    match session.tenantId, session.orderId with
    | some tenantId, some orderId => do
      let (refundNeeded, jobs) ← settleStripe account session tenantId orderId
      commit
      runHooks jobs
      match refundNeeded, session.paymentIntent with
      | true, some paymentIntentId => do
        -- a refund that fails is only logged
        let _ ← (refundPaymentIntent tenantId paymentIntentId).attempt
      | _, _ => .ret ()
    | _, _ => .ret ()

/-! ## MercadoPago -/

def createMercadoPagoCheckout (tenantId orderId : Id) : Prog shop Unit := do
  let found ← findOrderWithItems tenantId orderId
  let (order, items) ← Prog.orThrow found (.notFound "Order not found")
  Prog.throwIf (order.fulfillmentMethod != .mercadoPago)
    (.badRequest "Order is not configured for card payment")
  assertPayable order
  assertRedirectUrlsAllowed tenantId
  let reference ← openCheckout .mercadoPago (checkoutContext tenantId orderId order items)
  updateOne (.bindCheckout orderId .mercadoPago reference)

def settleMercadoPago (payment : MercadoPagoPayment) (tenantId orderId : Id) :
    Prog shop (Bool × List Job) := do
  let found : Option Order ← .query (.existing tenantId orderId) .ret
  match found with
  | none => .ret (false, [])
  | some existing =>
    if existing.paymentStatus == .paid then
      .ret (existing.mercadoPagoPaymentId.isSome &&
        existing.mercadoPagoPaymentId != some payment.id, [])
    else if existing.status.terminal then .ret (existing.status == .cancelled, [])
    else if payment.transactionAmount != existing.grandTotal ||
        payment.currencyId != some existing.currency then .ret (true, [])
    else do
      let won ← updateMany (.settle orderId .mercadoPago (some payment.id))
      if !won then do
        let winner : Option Order ← .query (.winner tenantId orderId) .ret
        .ret (winner.bind Order.mercadoPagoPaymentId != some payment.id, [])
      else settled tenantId orderId

structure MercadoPagoNotification where
  type : Option String
  dataId : Option Id

def handleMercadoPagoWebhook (notification : Option MercadoPagoNotification) :
    Prog shop Unit := do
  let notification ← Prog.orThrow notification (.badRequest "Invalid webhook signature")
  match notification.dataId with
  | none => .ret ()
  | some dataId =>
    if notification.type != some "payment" then .ret () else do
    let answer : Option MercadoPagoPayment ← .call (.getPayment dataId) .ret
    let payment ← Prog.orThrow answer (.failure "MercadoPago did not answer")
    match payment.tenantId, payment.orderId with
    | some tenantId, some orderId =>
      if payment.status != "approved" then .ret () else do
      let (refundNeeded, jobs) ← settleMercadoPago payment tenantId orderId
      commit
      runHooks jobs
      if refundNeeded then do
        let _ : Bool ← .call (.refund .mercadoPago payment.id) .ret
      else .ret ()
    | _, _ => .ret ()

/-! ## PayPal -/

/-- Two short transactions, one before and one after the PayPal call. -/
def createPayPalCheckout (tenantId orderId : Id) : Prog shop Unit := do
  let found ← findOrderWithItems tenantId orderId
  let setting : Option TenantPaymentSetting ← .query (.setting tenantId .paypal) .ret
  let _ ← getTenant tenantId
  commit
  let (order, items) ← Prog.orThrow found (.notFound "Order not found")
  Prog.throwIf (order.fulfillmentMethod != .paypal)
    (.badRequest "Order is not configured for PayPal payment")
  Prog.throwIf (!setting.any TenantPaymentSetting.isEnabled)
    (.badRequest "PayPal is not enabled for this store")
  assertPayable order
  assertRedirectUrlsAllowed tenantId
  let reference ← openCheckout .paypal (checkoutContext tenantId orderId order items)
  updateOne (.bindCheckout orderId .paypal reference)
  commit

/-- The transaction of a PayPal settlement of a completed capture. -/
def settlePayPalCapture (tenantId orderId : Id) (state : PayPalOrderState) (captureId : Id) :
    Prog shop (Bool × List Job) := do
  let found : Option Order ← .query (.existing tenantId orderId) .ret
  match found with
  | none => .ret (false, [])
  | some existing =>
    -- never settle an order through a PayPal order it does not own
    if existing.fulfillmentMethod != .paypal ||
        existing.paypalOrderId != some state.paypalOrderId then .ret (false, [])
    else if existing.paymentStatus == .paid then
      .ret (existing.paypalCaptureId.isSome && existing.paypalCaptureId != some captureId, [])
    else if existing.status.terminal then .ret (existing.status == .cancelled, [])
    else if state.amountMinor != some (toMinorUnits existing.grandTotal existing.currency) ||
        state.currency != some existing.currency then .ret (true, [])
    else do
      let won ← updateMany (.settle orderId .paypal (some captureId))
      if !won then do
        let winner : Option Order ← .query (.winner tenantId orderId) .ret
        .ret ((winner.bind Order.paypalCaptureId).isSome &&
          winner.bind Order.paypalCaptureId != some captureId, [])
      else settled tenantId orderId

/-- The one place a PayPal payment becomes a paid order, for the buyer's return
and for webhooks alike. -/
def settlePayPal (tenantId orderId : Id) (state : PayPalOrderState) : Prog shop Unit :=
  if state.captureStatus == some .declined || state.captureStatus == some .failed then do
    let _ ← updateMany (.failPayPal orderId)
    commit
  -- a pending capture is not money yet
  else if state.captureStatus != some .completed then .ret ()
  else match state.captureId with
  | none => .ret ()
  | some captureId => do
    let (refundNeeded, jobs) ← settlePayPalCapture tenantId orderId state captureId
    commit
    runHooks jobs
    if refundNeeded then do
      let _ : Bool ← .call (.refund .paypal captureId) .ret
    else .ret ()

/-- The buyer is back from PayPal: the order is captured, and settled if PayPal
says the capture completed. -/
def capturePayPalOrder (tenantId orderId : Id) : Prog shop Unit := do
  let found ← findOrder tenantId orderId
  commit
  let order ← Prog.orThrow found (.notFound "Order not found")
  Prog.throwIf (order.fulfillmentMethod != .paypal) (.notFound "Order not found")
  let paypalOrderId ← Prog.orThrow order.paypalOrderId (.notFound "Order not found")
  if order.paymentStatus != .pending then .ret () else do
    let answer : Option PayPalOrderState ← .call (.captureOrder paypalOrderId) .ret
    let state ← Prog.orThrow answer (.failure "PayPal did not answer")
    Prog.runIf (state.orderStatus != .notApproved) (settlePayPal tenantId orderId state)
    let fresh ← findOrder tenantId orderId
    commit
    let _ ← Prog.orThrow fresh .recordNotFound

/-- A refund or dispute happened on PayPal's side: it is reflected on the order
and the download links are switched off. -/
def markPayPalOrderLost (captureId : Id) (lost : Lost) : Prog shop Unit := do
  let found : Option OrderRef ← .query (.orderByPayPalCapture captureId) .ret
  commit
  match found with
  | none => .ret ()
  | some ref => do
    let _ ← updateMany (.markLost ref.id lost)
    revokeForOrder ref.id (match lost with | .refunded => "refunded" | .disputed => "dispute")
    commit

/-- A PayPal event whose signature PayPal has verified. `amount` is in
hundredths. -/
inductive PayPalEvent where
  | orderApproved (paypalOrderId : Id)
  | capture (completed : Bool) (captureId : Id) (paypalOrderId : Option Id)
      (amount : Option Cents) (currency : Option String)
  | captureRefunded (captureId : Option Id)
  | captureReversed (captureId : Id)
  | dispute (captureId : Option Id)
  | other

def captureState (completed : Bool) (captureId paypalOrderId : Id) (amount : Option Cents)
    (currency : Option String) : PayPalOrderState where
  paypalOrderId := paypalOrderId
  orderStatus := .completed
  captureId := some captureId
  captureStatus := some (if completed then .completed else .declined)
  amountMinor := amount.map fun a => toMinorUnits a (currency.getD "USD")
  currency := currency

def handlePayPalWebhook (event : Option PayPalEvent) : Prog shop Unit := do
  let event ← Prog.orThrow event (.badRequest "Invalid webhook signature")
  match event with
  | .orderApproved paypalOrderId => do
    let found : Option OrderRef ← .query (.orderByPayPalOrder paypalOrderId) .ret
    commit
    match found with
    | none => .ret ()
    | some ref =>
      if ref.paymentStatus != .pending then .ret () else do
      let answer : Option PayPalOrderState ← .call (.captureOrder paypalOrderId) .ret
      let state ← Prog.orThrow answer (.failure "PayPal did not answer")
      Prog.runIf (state.orderStatus != .notApproved) (settlePayPal ref.tenantId ref.id state)
  | .capture completed captureId paypalOrderId amount currency =>
    match paypalOrderId with
    | none => .ret ()
    | some paypalOrderId => do
      let found : Option OrderRef ← .query (.orderByPayPalOrder paypalOrderId) .ret
      commit
      match found with
      | none => .ret ()
      | some ref =>
        settlePayPal ref.tenantId ref.id
          (captureState completed captureId paypalOrderId amount currency)
  | .captureRefunded captureId =>
    match captureId with
    | none => .ret ()
    | some captureId => markPayPalOrderLost captureId .refunded
  | .captureReversed captureId => markPayPalOrderLost captureId .disputed
  | .dispute captureId =>
    match captureId with
    | none => .ret ()
    | some captureId => markPayPalOrderLost captureId .disputed
  | .other => .ret ()

/-! ## Zelle -/

/-- A person has looked at the submitted proof and confirms the payment.
Answers the jobs to queue after the commit. -/
def confirmManualPayment (tenantId orderId : Id) : Prog shop (List Job) := do
  let found ← findOrder tenantId orderId
  let order ← Prog.orThrow found (.notFound "Order not found")
  Prog.throwIf (order.fulfillmentMethod != .zelle)
    (.badRequest "Only Zelle orders can be confirmed this way")
  Prog.throwIf order.status.terminal (.conflict ("Order is already " ++ order.status.name))
  if order.paymentStatus == .paid then .ret [] else do
    Prog.throwIf order.paymentProofUrl.isNone
      (.badRequest "No payment proof has been submitted for this order yet")
    updateOne (.confirmManual orderId)
    let jobs ← createDeliveryForPaidOrder tenantId orderId
    .ret (.generateInvoice tenantId orderId :: jobs)

/-- Clears a rejected submission, not the order itself. -/
def rejectManualPayment (tenantId orderId : Id) : Prog shop Unit := do
  let found ← findOrder tenantId orderId
  let order ← Prog.orThrow found (.notFound "Order not found")
  Prog.throwIf (order.fulfillmentMethod != .zelle)
    (.badRequest "Only Zelle orders can be rejected this way")
  updateOne (.rejectManual orderId)
  match order.paymentProofUrl with
  | none => .ret ()
  | some url => .call (.deleteUploadedFile url) .ret

end WhatStore
