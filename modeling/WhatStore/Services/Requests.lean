import WhatStore.Services.Orders
import WhatStore.Services.Sweep
import WhatStore.Services.Downloads
import WhatStore.Services.Files
import WhatStore.ReadCommitted.Schedule

/-!
# Requests

Everything that reaches the services from outside: the customer's and the
merchant's routes, the providers' webhooks, the jobs of the delivery queue and
the scheduled sweeps. `handler`
is the program each of them runs, and a store is any run of these programs
under READ COMMITTED.
-/

namespace WhatStore

open ReadCommitted

inductive Request where
  | create (tenantId : Id) (dto : CreateOrder)
  | updateStatus (tenantId id : Id) (status : OrderStatus) (canRefund : Bool)
  | updateDetails (tenantId id : Id) (dto : UpdateOrder)
  | hide (tenantId id : Id)
  | submitPaymentProof (tenantId id : Id) (proofUrl : String) (safeProofUrl : Bool)
      (reference : Option String)
  | confirmZellePayment (tenantId id : Id)
  | rejectZellePayment (tenantId id : Id)
  | createStripeCheckout (tenantId id : Id)
  | createMercadoPagoCheckout (tenantId id : Id)
  | createPayPalCheckout (tenantId id : Id)
  | capturePayPalOrder (tenantId id : Id)
  | stripeWebhook (event : Option StripeEvent)
  | mercadoPagoWebhook (notification : Option MercadoPagoNotification)
  | payPalWebhook (event : Option PayPalEvent)
  | sweep
  | updateTenant (tenantId : Id) (dto : UpdateTenant)
  | updateProduct (tenantId id : Id) (dto : UpdateProduct)
  | processDelivery (deliveryId : Id) (resend : Bool)
  | requeueUnsent
  | resend (tenantId orderId : Id)
  | redeem (token : Id)
  | removeAsset (tenantId productId assetId : Id)
  | removeProduct (tenantId id : Id)

/-- A request whose `afterCommit` hooks run once its transaction has committed. -/
def thenHooks (p : Prog shop (List Job)) : Prog shop Unit := do
  let jobs ← p
  commit
  runHooks jobs

def handler : Request → Prog shop Unit
  | .create tenantId dto => create tenantId dto
  | .updateStatus tenantId id status canRefund => updateStatus tenantId id status canRefund
  | .updateDetails tenantId id dto => thenHooks (updateDetails tenantId id dto)
  | .hide tenantId id => hide tenantId id
  | .submitPaymentProof tenantId id proofUrl safeProofUrl reference =>
      submitPaymentProof tenantId id proofUrl safeProofUrl reference
  | .confirmZellePayment tenantId id => thenHooks (confirmManualPayment tenantId id)
  | .rejectZellePayment tenantId id => rejectManualPayment tenantId id
  | .createStripeCheckout tenantId id => createStripeCheckout tenantId id
  | .createMercadoPagoCheckout tenantId id => createMercadoPagoCheckout tenantId id
  | .createPayPalCheckout tenantId id => createPayPalCheckout tenantId id
  | .capturePayPalOrder tenantId id => capturePayPalOrder tenantId id
  | .stripeWebhook event => handleStripeWebhook event
  | .mercadoPagoWebhook notification => handleMercadoPagoWebhook notification
  | .payPalWebhook event => handlePayPalWebhook event
  | .sweep => sweep
  | .updateTenant tenantId dto => updateTenant tenantId dto
  | .updateProduct tenantId id dto => updateProduct tenantId id dto
  | .processDelivery deliveryId resend => processDelivery deliveryId resend
  | .requeueUnsent => requeueUnsent
  | .resend tenantId orderId => thenHooks (resend tenantId orderId)
  | .redeem token => do let _ ← redeem token
  | .removeAsset tenantId productId assetId => removeAsset tenantId productId assetId
  | .removeProduct tenantId id => do
    let storedFiles ← removeProduct tenantId id
    commit
    removeStoredFiles storedFiles

/-- A running store: its database, its open transactions and its requests. -/
abbrev StoreSystem := System shop Request

abbrev StoreWorld := World shop Request

abbrev StepCondition := StoreWorld → ℕ → Request → Event shop → Prop

def anyOrder : StoreWorld → ℕ → Request → Event shop → Bool := fun _ _ _ _ => true

/-- The runs of the requests that satisfy `starts`, all of whose steps satisfy
`allow`. -/
abbrev Runs (starts : Request → Prop) (allow : StepCondition) : StoreSystem → StoreSystem → Prop :=
  System.Runs handler starts allow

/-! ## Playing a store step by step -/

/-- What the world outside answers for a while: the ids and references it
issues, what the providers say of payments and captures, whether refunds and
queues work, and what becomes of a mail. -/
structure Outside where
  fresh : Id := 0
  time : Time := 0
  payment : Option MercadoPagoPayment := none
  captured : Option PayPalOrderState := none
  refunds : Bool := true
  queues : Bool := true
  hasInvoice : Bool := false
  mail : Except String Bool := .ok true

def Outside.answer (x : Outside) : (c : Call) → c.Answer
  | .now => x.time
  | .uuid => x.fresh
  | .fulfillmentMethods _ => [.whatsapp, .telegram, .stripe, .mercadoPago, .zelle, .paypal]
  | .returnUrlsAllowed _ => true
  | .underLiveProductLimit _ => true
  | .expireSession _ => ()
  | .createCheckout _ _ => some x.fresh
  | .getPayment _ => x.payment
  | .captureOrder _ => x.captured
  | .refund _ _ => x.refunds
  | .enqueue _ => x.queues
  | .emitOrderEvent _ => ()
  | .deleteUploadedFile _ => ()
  | .invoiceExists _ => x.hasInvoice
  | .deliverEmail _ => x.mail
  | .signedDownloadUrl _ _ => some "url"
  | .removeObject _ => ()

/-- Process `i` makes `n` steps while the outside answers as `x`. -/
def stepsWith (x : Outside) (i n : ℕ) : Turn shop Request := .steps i n x.answer

/-- The request `r` arrives as process `i`, which makes `n` steps. -/
def arriveWith (x : Outside) (i : ℕ) (r : Request) (n : ℕ) : List (Turn shop Request) :=
  [.start i r, stepsWith x i n]

def steps (i n : ℕ) : Turn shop Request := stepsWith {} i n

def arrive (i : ℕ) (r : Request) (n : ℕ) : List (Turn shop Request) := arriveWith {} i r n

abbrev StoreSystem.play (starts : Request → Bool)
    (ok : StoreWorld → ℕ → Request → Event shop → Bool) (s : StoreSystem)
    (turns : List (Turn shop Request)) : Option StoreSystem :=
  System.play handler starts ok s turns

def StoreSystem.status (s : StoreSystem) (id : Id) : Option OrderStatus :=
  (s.world.db.row (.order id)).map fun o : Order => o.status

def StoreSystem.paymentStatus (s : StoreSystem) (id : Id) : Option PaymentStatus :=
  (s.world.db.row (.order id)).map fun o : Order => o.paymentStatus

def storeWith (tenant : Tenant) (order : Order) : Database :=
  (Store.empty.set (.tenant 0) (some tenant)).set (.order 0) (some order)

/-- Whether the store is at rest, with the two statuses of an order. -/
def StoreSystem.atRest (s : StoreSystem) (id : Id) : Bool × Option OrderStatus ×
    Option PaymentStatus :=
  (s.quiet, s.status id, s.paymentStatus id)

/-- A session of a Stripe checkout for the order 0 that charged `amount` cents. -/
def StripeSession.charging (payment : Id) (amount : Int) : StripeSession where
  planCheckout := false
  tenantId := some 0
  orderId := some 0
  paymentIntent := some payment
  paymentStatus := "paid"
  amountTotal := some amount
  currency := some "USD"

/-- A new order that is paid with `method`. -/
def Order.fresh (method : FulfillmentMethod) (grandTotal : Cents) : Order where
  tenantId := 0
  customerName := "Ana"
  customerEmail := none
  customerPhone := none
  status := .pending
  paymentStatus := .pending
  fulfillmentMethod := method
  currency := "USD"
  subtotal := grandTotal
  taxTotal := 0
  discountTotal := 0
  shippingTotal := 0
  grandTotal := grandTotal
  couponId := none
  shippingId := none
  shippingAddress := none
  hiddenAt := none
  stripePaymentIntentId := none
  stripeCheckoutSessionId := none
  mercadoPagoPreferenceId := none
  mercadoPagoPaymentId := none
  paypalOrderId := none
  paypalCaptureId := none
  paymentProofUrl := none
  paymentReference := none
  createdAt := 0

def Product.plain (price : Cents) (quantity : Int) : Product where
  tenantId := 0
  name := "Mug"
  price := price
  quantity := quantity
  hasVariants := false
  isActive := true
  isPublished := true
  taxes := []

def CreateOrder.basket (items : List OrderItemInput) (items_ne : items ≠ [])
    (items_le : items.length ≤ 100) (couponCode : Option String) : CreateOrder where
  customerName := "Ana"
  customerEmail := none
  customerPhone := none
  items := items
  items_ne := items_ne
  items_le := items_le
  couponCode := couponCode
  shippingId := none
  fulfillmentMethod := .stripe
  shippingAddress := none
  paymentProofUrl := none
  safeProofUrl := true
  paymentReference := none

def OrderItemInput.one : OrderItemInput := ⟨0, none, 1, by decide, by decide⟩

def OrderItemInput.three : OrderItemInput := ⟨0, none, 3, by decide, by decide⟩

def CreateOrder.single (couponCode : Option String) : CreateOrder :=
  .basket [.one] (by simp) (by decide) couponCode

/-- A store that takes payments by every method and does not track inventory. -/
def Tenant.plain : Tenant where
  slug := "mugs"
  isActive := true
  currency := "USD"
  tracksInventory := false
  catalogType := .physical
  whatsappEnabled := true
  whatsappNumber := some "1"
  telegramEnabled := false
  telegramBotToken := none
  telegramChatId := none

end WhatStore
