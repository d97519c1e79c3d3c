import WhatStore.Services.Payments
import WhatStore.Services.Stock

/-!
# Orders

`OrdersService`: pricing and creating an order, moving it through its statuses,
and the merchant's corrections of its lines, shipping and payment status. Each
operation runs in the transaction of its request.
-/

namespace WhatStore

open ReadCommitted

/-! ## Pricing -/

/-- A line of a request, within the bounds the DTO checks. -/
structure OrderItemInput where
  productId : Id
  variantId : Option Id
  quantity : Int
  quantity_pos : 1 ≤ quantity
  quantity_le : quantity ≤ 10000

structure OrderLine extends PricedLine where
  priced : Priced
  priced_quantity : priced.quantity = toPricedLine.quantity

abbrev Catalog := List (Id × Product × List (Id × ProductVariant))

/-- Prices one line of a new order from the catalog. -/
def priceLine (products : Catalog) (item : OrderItemInput) : Except Err OrderLine :=
  match products.find? fun p => p.1 == item.productId with
  | none => .error (.badRequest ("Product " ++ toString item.productId ++ " not found"))
  | some (productId, product, variants) =>
    let variant := item.variantId.bind fun v => variants.find? fun x => x.1 == v
    if item.variantId.isSome && variant.isNone then
      .error (.badRequest ("Variant " ++ toString (item.variantId.getD 0) ++ " not found"))
    -- a product sold in variants is priced and stocked per variant
    else if variant.isNone && product.hasVariants && !variants.isEmpty then
      .error (.badRequest ("Choose a variant for " ++ product.name))
    else
      let unitPrice := (variant.map fun v => v.2.price).getD product.price
      .ok { productId, product, variant, quantity := item.quantity
            priced := priceLineItem unitPrice item.quantity product.taxes
            priced_quantity := rfl }

structure PriceOptions where
  lenientCoupon : Bool
  onlyPublished : Bool

/-- Why a coupon cannot be used, if it cannot. -/
def couponReason (found : Option (Id × Coupon)) (time : Time) : Option String :=
  match found with
  | none => some "Invalid or expired coupon"
  | some (_, coupon) =>
    if coupon.expiresAt.any fun t => decide (t < time) then some "Coupon expired"
    else if coupon.usageLimit.any fun limit => decide (limit ≤ coupon.usageCount) then
      some "Coupon usage limit reached"
    else none

structure PricedOrder where
  pricedLines : List OrderLine
  coupon : Option (Id × Coupon)
  couponError : Option String
  shipping : Option Shipping
  totals : Totals

/-- The coupon a code stands for, and the reason it is refused when
`lenientCoupon` reports it instead of rejecting the order. Codes are given
trimmed and upper-cased; an empty code is no code. -/
def priceCoupon (tenantId : Id) (couponCode : Option String) (options : PriceOptions) :
    Prog shop (Option (Id × Coupon) × Option String) :=
  match couponCode with
  | none => .ret (none, none)
  | some code => do
    let found : Option (Id × Coupon) ← .query (.couponByCode tenantId code) .ret
    let time ← now
    match couponReason found time with
    | some reason =>
      if options.lenientCoupon then .ret (none, some reason)
      else .throw (.badRequest reason)
    | none => .ret (found, none)

/-- The shipping method of an order, if one was chosen. -/
def priceShipping (tenantId : Id) (shippingId : Option Id) (onlyActive : Bool) :
    Prog shop (Option Shipping) :=
  match shippingId with
  | none => .ret none
  | some id => do
    let found : Option Shipping ← .query (.shipping tenantId id onlyActive) .ret
    let shipping ← Prog.orThrow found (.badRequest "Invalid shipping option")
    .ret (some shipping)

/-- Prices a basket: the single place the totals of a new order are computed. -/
def priceOrder (tenantId : Id) (items : List OrderItemInput) (couponCode : Option String)
    (shippingId : Option Id) (options : PriceOptions) : Prog shop PricedOrder := do
  let products : Catalog ←
    .query (.products tenantId (items.map OrderItemInput.productId) options.onlyPublished) .ret
  let pricedLines ← Prog.ofExcept (items.mapM (priceLine products))
  let subtotal := (pricedLines.map fun l => l.priced.lineSubtotal).sum
  let taxTotal := (pricedLines.map fun l => l.priced.taxAmount).sum
  let (coupon, couponError) ← priceCoupon tenantId couponCode options
  let discountTotal := (coupon.map fun c =>
    applyCouponDiscount (subtotal + taxTotal) c.2.discountType c.2.discountValue).getD 0
  let shipping ← priceShipping tenantId shippingId options.onlyPublished
  let shippingTotal := (shipping.map Shipping.cost).getD 0
  .ret { pricedLines, coupon, couponError, shipping
         totals := { subtotal, taxTotal, discountTotal, shippingTotal
                     grandTotal := subtotal + taxTotal - discountTotal + shippingTotal } }

structure QuoteOrder where
  items : List OrderItemInput
  items_ne : items ≠ []
  items_le : items.length ≤ 100
  couponCode : Option String
  shippingId : Option Id

/-- A line of a basket that the shelf cannot serve. -/
structure StockIssue where
  productId : Id
  variantId : Option Id
  name : String
  requested : Int
  available : Int

structure QuoteLine where
  productId : Id
  variantId : Option Id
  name : String
  variantName : Option String
  unitPrice : Cents
  quantity : Int
  taxAmount : Cents
  lineTotal : Cents

structure Quote where
  currency : String
  stockIssues : List StockIssue
  totals : Totals
  coupon : Option (String × DiscountType)
  couponError : Option String
  shipping : Option (Option Id × Cents)
  items : List QuoteLine

def OrderLine.quoted (line : OrderLine) : QuoteLine where
  productId := line.productId
  variantId := line.variant.map Prod.fst
  name := line.product.name
  variantName := line.variant.map fun v => v.2.name
  unitPrice := line.priced.unitPrice
  quantity := line.priced.quantity
  taxAmount := line.priced.taxAmount
  lineTotal := line.priced.lineTotal

/-- The units the line's row had when it was read. -/
def PricedLine.available (line : PricedLine) : Int :=
  (line.variant.map fun v => v.2.quantity).getD line.product.quantity

def PricedLine.stockIssue (line : PricedLine) : StockIssue where
  productId := line.productId
  variantId := line.variant.map Prod.fst
  name := match line.variant with
    | some v => line.product.name ++ " (" ++ v.2.name ++ ")"
    | none => line.product.name
  requested := line.quantity
  available := line.available

def stockIssues (tenant : Tenant) (lines : List PricedLine) : List StockIssue :=
  if tenant.tracksInventory then
    (lines.filter fun l => decide (l.available < l.quantity)).map PricedLine.stockIssue
  else []

def PricedOrder.quoted (priced : PricedOrder) (tenant : Tenant) (dto : QuoteOrder) : Quote where
  currency := tenant.currency
  stockIssues := stockIssues tenant (priced.pricedLines.map OrderLine.toPricedLine)
  totals := priced.totals
  coupon := priced.coupon.map fun c => (c.2.code, c.2.discountType)
  couponError := priced.couponError
  shipping := priced.shipping.map fun s => (dto.shippingId, s.cost)
  items := priced.pricedLines.map OrderLine.quoted

/-- Prices a basket for the checkout page, without writing anything. -/
def quote (tenantId : Id) (dto : QuoteOrder) : Prog shop Quote := do
  let tenant ← getTenant tenantId
  let priced ← priceOrder tenantId dto.items dto.couponCode dto.shippingId
    { lenientCoupon := true, onlyPublished := true }
  .ret (priced.quoted tenant dto)

/-! ## Creating an order -/

structure CreateOrder where
  customerName : String
  customerEmail : Option String
  customerPhone : Option String
  items : List OrderItemInput
  items_ne : items ≠ []
  items_le : items.length ≤ 100
  couponCode : Option String
  shippingId : Option Id
  fulfillmentMethod : FulfillmentMethod
  shippingAddress : Option Address
  paymentProofUrl : Option String
  /-- Whether `assertSafeImageUrl` accepts the proof. -/
  safeProofUrl : Bool
  paymentReference : Option String

def newOrder (tenantId : Id) (tenant : Tenant) (dto : CreateOrder) (couponId : Option Id)
    (totals : Totals) (createdAt : Time) : Order where
  tenantId := tenantId
  customerName := dto.customerName
  customerEmail := dto.customerEmail
  customerPhone := dto.customerPhone
  status := .pending
  paymentStatus := .pending
  fulfillmentMethod := dto.fulfillmentMethod
  currency := tenant.currency
  subtotal := totals.subtotal
  taxTotal := totals.taxTotal
  discountTotal := totals.discountTotal
  shippingTotal := totals.shippingTotal
  grandTotal := totals.grandTotal
  couponId := couponId
  shippingId := dto.shippingId
  shippingAddress := if tenant.catalogType == .digital then none else dto.shippingAddress
  hiddenAt := none
  stripePaymentIntentId := none
  stripeCheckoutSessionId := none
  mercadoPagoPreferenceId := none
  mercadoPagoPaymentId := none
  paypalOrderId := none
  paypalCaptureId := none
  paymentProofUrl := dto.paymentProofUrl
  paymentReference := dto.paymentReference
  createdAt := createdAt

def newItem (tenantId orderId : Id) (line : PricedLine) (priced : Priced) : OrderItem where
  tenantId := tenantId
  orderId := orderId
  productId := some line.productId
  variantId := line.variant.map Prod.fst
  unitPrice := priced.unitPrice
  quantity := priced.quantity
  taxAmount := priced.taxAmount
  lineTotal := priced.lineTotal
  taxBreakdown := priced.taxBreakdown

def createItem (tenantId orderId : Id) (line : OrderLine) : Prog shop Unit := do
  let id ← uuid
  insertOne (.insertItem id (newItem tenantId orderId line.toPricedLine line.priced))

/-- WhatsApp and Telegram orders are confirmed at once, by the message that
sends them. -/
def dispatchMessageFulfillment (tenantId : Id) (tenant : Tenant) (orderId : Id)
    (method : FulfillmentMethod) : Prog shop Unit := do
  updateOne (.confirmMessage orderId)
  if method == .whatsapp then
    Prog.throwIf (!tenant.whatsappEnabled || tenant.whatsappNumber.isNone)
      (.badRequest "This store has not enabled WhatsApp checkout")
  else do
    Prog.throwIf (!tenant.telegramEnabled || tenant.telegramBotToken.isNone ||
      tenant.telegramChatId.isNone) (.badRequest "This store has not enabled Telegram checkout")
    let queued : Bool ← .call (.enqueue (.telegramMessage tenantId orderId)) .ret
    Prog.throwIf (!queued) (.failure "The queue is not available")

def queueConfirmationEmail (tenantId orderId : Id) : Prog shop Unit := do
  let queued : Bool ← .call (.enqueue (.orderConfirmation tenantId orderId)) .ret
  Prog.throwIf (!queued) (.failure "The queue is not available")

def FulfillmentMethod.byMessage (method : FulfillmentMethod) : Bool :=
  method == .whatsapp || method == .telegram

/-- What a digital store asks of an order. -/
def assertDigitalOrder (dto : CreateOrder) : Prog shop Unit := do
  Prog.throwIf dto.customerEmail.isNone
    (.badRequest "An email address is required to deliver digital products")
  Prog.throwIf dto.fulfillmentMethod.byMessage (.badRequest "Digital products are paid online")
  Prog.throwIf dto.shippingId.isSome (.badRequest "Digital products have no shipping")
  Prog.throwIf (dto.items.any fun i => i.quantity != 1)
    (.badRequest "Digital products are sold one copy at a time")

def create (tenantId : Id) (dto : CreateOrder) : Prog shop Unit := do
  Prog.throwIf (!dto.safeProofUrl) (.badRequest "paymentProofUrl must be one of your own uploads")
  let tenant ← getTenant tenantId
  let methods : List FulfillmentMethod ← .call (.fulfillmentMethods tenantId) .ret
  Prog.throwIf (!methods.contains dto.fulfillmentMethod)
    (.badRequest "This checkout method is not available for this store")
  Prog.runIf (dto.fulfillmentMethod == .zelle) (assertZelleConfigured tenantId)
  let isDigitalStore := tenant.catalogType == .digital
  Prog.runIf isDigitalStore (assertDigitalOrder dto)
  let priced ← priceOrder tenantId dto.items dto.couponCode dto.shippingId
    { lenientCoupon := false, onlyPublished := true }
  Prog.runIf (tenant.tracksInventory && !isDigitalStore)
    (reserveStock (priced.pricedLines.map OrderLine.toPricedLine))
  match priced.coupon with
  | none => .ret ()
  | some (couponId, coupon) => redeemCoupon couponId coupon
  let createdAt ← now
  let orderId ← uuid
  insertOne (.insertOrder orderId
    (newOrder tenantId tenant dto (priced.coupon.map Prod.fst) priced.totals createdAt))
  Prog.each (createItem tenantId orderId) priced.pricedLines
  Prog.runIf dto.fulfillmentMethod.byMessage
    (dispatchMessageFulfillment tenantId tenant orderId dto.fulfillmentMethod)
  Prog.runIf (dto.customerEmail.isSome && !isDigitalStore)
    (queueConfirmationEmail tenantId orderId)
  .call (.emitOrderEvent orderId) .ret

/-! ## Status changes -/

/-- The order was charged online. -/
def Order.isPaidGatewayOrder (order : Order) : Bool :=
  order.paymentStatus == .paid && order.fulfillmentMethod.gateway.isSome

/-- The status change gives the customer's money back. -/
def Order.returnsMoney (order : Order) (status : OrderStatus) : Bool :=
  order.paymentStatus == .paid &&
    (status == .refunded || (status == .cancelled && order.isPaidGatewayOrder))

/-- The payment status that goes with a status change. -/
def Order.paymentData (order : Order) (status : OrderStatus) : Option PaymentStatus :=
  if (status == .refunded && order.paymentStatus == .paid) ||
      (status == .cancelled && order.returnsMoney status) then some .refunded
  else none

theorem Order.paymentData_cases (order : Order) (status : OrderStatus) :
    order.paymentData status = none ∨ order.paymentData status = some .refunded := by
  unfold Order.paymentData
  split
  · exact .inr rfl
  · exact .inl rfl

/-- The status change that refunds a payment ends the order. -/
theorem terminal_of_paymentData {o : Order} {status : OrderStatus}
    (h : (o.paymentData status).isSome = true) : status.terminal = true := by
  cases status <;> first | rfl | cases h

def updateStatus (tenantId id : Id) (status : OrderStatus) (canRefund : Bool) :
    Prog shop Unit := do
  let found ← findOrderWithItems tenantId id
  let (order, items) ← Prog.orThrow found (.notFound "Order not found")
  Prog.throwIf (order.status.terminal && status != order.status)
    (.conflict ("Order is already " ++ order.status.name ++ " and cannot move to " ++ status.name))
  Prog.throwIf ((order.returnsMoney status || status == .refunded) && !canRefund)
    (.forbidden "Only the store owner can refund an order")
  let pay := order.paymentData status
  -- claim the transition first, conditional on the status that was read
  Prog.runIf (status != order.status) do
    let claimed ← updateMany (.claimStatus id order.status status pay)
    Prog.throwIf (!claimed)
      (.conflict "The order changed while you were editing it; reload and try again")
  Prog.runIf (status == order.status && pay.isSome) (updateOne (.restatus id status pay))
  Prog.runIf (status.terminal && order.paymentStatus == .paid)
    (revokeForOrder id (if status == .refunded then "refunded" else "cancelled"))
  Prog.runIf (status == .cancelled && order.status != .cancelled) do
    let tenant ← getTenant tenantId
    Prog.runIf tenant.tracksInventory (releaseStock (items.map fun i => i.2.released))
    releaseCoupon order
  -- after the writes, so a provider failure rolls them back
  Prog.runIf (order.returnsMoney status && order.status != status)
    (refundOrderPayment tenantId order)
  let updated ← findOrderWithItems tenantId id
  let _ ← Prog.orThrow updated (.notFound "Order not found")
  .call (.emitOrderEvent id) .ret

/-! ## Corrections -/

/-- A merchant's correction of an order. A field that is `none` was not sent;
`shippingId` may be sent as null. -/
structure UpdateOrder where
  customerName : Option String
  customerEmail : Option (Option String)
  customerPhone : Option (Option String)
  shippingAddress : Option Address
  items : Option (List OrderItemInput)
  items_ne : items ≠ some []
  shippingId : Option (Option Id)
  paymentStatus : Option PaymentStatus
  paymentStatus_ok : ∀ p ∈ paymentStatus, p = .pending ∨ p = .paid

/-- `keyOf`: what makes two lines of an order the same line. -/
abbrev LineKey := Option Id × Option Id

def OrderItem.lineKey (i : OrderItem) : LineKey := (i.productId, i.variantId)

def OrderItemInput.lineKey (i : OrderItemInput) : LineKey := (some i.productId, i.variantId)

/-- The lines of the order in a `Map` by key: of lines with one key the last
is kept. -/
def existingLine (items : List (Id × OrderItem)) (key : LineKey) : Option (Id × OrderItem) :=
  (items.filter fun i => i.2.lineKey == key).getLast?

/-- Adds a wanted line to those before it, merging repeated ones. -/
def addWanted (wanted : List (LineKey × Int)) (line : LineKey × Int) : List (LineKey × Int) :=
  if wanted.any fun w => w.1 == line.1 then
    wanted.map fun w => if w.1 == line.1 then (w.1, w.2 + line.2) else w
  else wanted ++ [line]

/-- The lines the order should have: those of the request, or else its own. -/
def wantedLines (items : List (Id × OrderItem)) (requested : Option (List OrderItemInput)) :
    List (LineKey × Int) :=
  let lines : List (LineKey × Int) := match requested with
    | some inputs => inputs.map fun i => (i.lineKey, i.quantity)
    | none => items.map fun i => (i.2.lineKey, i.2.quantity)
  lines.foldl addWanted []

/-- A line of the order after a correction: one it has, or a new one. -/
inductive RepricedLine where
  | kept (itemId : Id) (item : OrderItem) (priced : Priced)
  | added (line : OrderLine)

def RepricedLine.priced : RepricedLine → Priced
  | .kept _ _ priced => priced
  | .added line => line.priced

/-- A line already on the order keeps the unit price and tax rates it was sold
at; only a new line is priced from the catalog. -/
def repriceLine (items : List (Id × OrderItem)) (products : Catalog) (wanted : LineKey × Int) :
    Except Err RepricedLine :=
  match existingLine items wanted.1 with
  | some (itemId, item) =>
    let rates := item.taxBreakdown.map fun t => { name := t.name, rate := t.rate : TaxLine }
    .ok (.kept itemId item (priceLineItem item.unitPrice wanted.2 rates))
  | none =>
    let productId := wanted.1.1.getD 0
    match products.find? fun p => p.1 == productId with
    | none => .error (.badRequest ("Product " ++ toString productId ++ " not found"))
    | some (productId, product, variants) =>
      let variant := wanted.1.2.bind fun v => variants.find? fun x => x.1 == v
      if wanted.1.2.isSome && variant.isNone then
        .error (.badRequest ("Variant " ++ toString (wanted.1.2.getD 0) ++ " not found"))
      else
        let unitPrice := (variant.map fun v => v.2.price).getD product.price
        .ok (.added { productId, product, variant, quantity := wanted.2
                      priced := priceLineItem unitPrice wanted.2 product.taxes
                      priced_quantity := rfl })

structure Repriced where
  lines : List RepricedLine
  removed : List (Id × OrderItem)
  totals : Totals
  shippingId : Option (Option Id)

def newProducts (tenantId : Id) (items : List (Id × OrderItem)) (wanted : List (LineKey × Int)) :
    Prog shop Catalog :=
  let added := wanted.filter fun w => (existingLine items w.1).isNone
  if added.isEmpty then .ret []
  else .query (.products tenantId (added.map fun w => w.1.1.getD 0) false) .ret

/-- The coupon the customer already redeemed keeps applying, to the new amount. -/
def repriceDiscount (tenantId : Id) (order : Order) (taxedTotal : Cents) : Prog shop Cents :=
  match order.couponId with
  | none => .ret order.discountTotal
  | some couponId => do
    let found : Option Coupon ← .query (.coupon tenantId couponId) .ret
    match found with
    | none => .ret order.discountTotal
    | some coupon =>
      .ret (applyCouponDiscount taxedTotal coupon.discountType coupon.discountValue)

def repriceShipping (tenantId : Id) (order : Order) (shippingId : Option (Option Id)) :
    Prog shop Cents :=
  match shippingId with
  | none => .ret order.shippingTotal
  | some none => .ret 0
  | some (some id) => do
    let found : Option Shipping ← .query (.shipping tenantId id false) .ret
    let shipping ← Prog.orThrow found (.badRequest "Invalid shipping option")
    .ret shipping.cost

/-- Works out the order's new lines and totals without writing anything. -/
def reprice (tenantId : Id) (order : Order) (items : List (Id × OrderItem))
    (requested : Option (List OrderItemInput)) (shippingId : Option (Option Id)) :
    Prog shop Repriced := do
  let wanted := wantedLines items requested
  let products ← newProducts tenantId items wanted
  let lines ← Prog.ofExcept (wanted.mapM (repriceLine items products))
  let subtotal := (lines.map fun l => l.priced.lineSubtotal).sum
  let taxTotal := (lines.map fun l => l.priced.taxAmount).sum
  let discountTotal ← repriceDiscount tenantId order (subtotal + taxTotal)
  let shippingTotal ← repriceShipping tenantId order shippingId
  .ret { lines, shippingId
         removed := items.filter fun i => !wanted.any fun w => w.1 == i.2.lineKey
         totals := { subtotal, taxTotal, discountTotal, shippingTotal
                     grandTotal := subtotal + taxTotal - discountTotal + shippingTotal } }

/-- A stock-reservation entry for a line already on the order, with the live
stock. None when the product was deleted since. -/
def stockLine (productId variantId : Option Id) (quantity : Int) :
    Prog shop (Option PricedLine) :=
  match variantId, productId with
  | some v, _ => do
    let found : Option (ProductVariant × Option Product) ← .query (.stockVariant v) .ret
    match found with
    | none => .ret none
    | some (variant, product) => do
      let product ← Prog.orThrow product (.failure "Field product is required to return data")
      .ret (some { productId := variant.productId, product, variant := some (v, variant), quantity })
  | none, none => .ret none
  | none, some p => do
    let found : Option Product ← .query (.stockProduct p) .ret
    .ret (found.map fun product => { productId := p, product, variant := none, quantity })

/-- What a line change does to the stock: lines to reserve and items to
release. -/
structure StockMoves where
  toReserve : List PricedLine
  toRelease : List ReleasedItem

def applyLine (tenantId orderId : Id) (line : RepricedLine) : Prog shop StockMoves :=
  match line with
  | .kept itemId item priced =>
    let delta := priced.quantity - item.quantity
    if delta = 0 then .ret ⟨[], []⟩ else do
    updateOne (.updateItem itemId item
      { quantity := priced.quantity, taxAmount := priced.taxAmount
        lineTotal := priced.lineTotal, taxBreakdown := priced.taxBreakdown })
    if 0 < delta then do
      let line ← stockLine item.productId item.variantId delta
      .ret ⟨line.toList, []⟩
    else .ret ⟨[], [⟨item.productId, item.variantId, -delta⟩]⟩
  | .added line => do
    let id ← uuid
    insertOne (.insertItem id (newItem tenantId orderId line.toPricedLine line.priced))
    .ret ⟨[line.toPricedLine], []⟩

/-- Writes the line changes and moves stock by the difference, never by the
whole quantity. -/
def applyItemChanges (tenantId orderId : Id) (repriced : Repriced) (tracksInventory : Bool) :
    Prog shop Unit := do
  let moves ← Prog.collect (applyLine tenantId orderId) repriced.lines
  Prog.each (fun i => updateOne (.deleteItem i.1 i.2)) repriced.removed
  Prog.runIf tracksInventory do
    reserveStock (moves.flatMap StockMoves.toReserve)
    releaseStock (moves.flatMap StockMoves.toRelease ++ repriced.removed.map fun i => i.2.released)

/-- An address merged over the stored one, so that editing one field does not
wipe the others. -/
def mergeAddress (stored : Option Address) (sent : Address) : Address :=
  (stored.getD []).filter (fun f => !sent.any fun g => g.1 == f.1) ++ sent

/-- The notion of a card order that `updateDetails` has. -/
def Order.isGateway (order : Order) : Bool :=
  order.fulfillmentMethod == .stripe || order.fulfillmentMethod == .mercadoPago

/-- The lines and totals part of a correction, when the request has one. -/
def correctLines (tenantId id : Id) (order : Order) (items : List (Id × OrderItem))
    (dto : UpdateOrder) : Prog shop (Option Repriced) :=
  if dto.items.isNone && dto.shippingId.isNone then .ret none else do
  let repriced ← reprice tenantId order items dto.items dto.shippingId
  Prog.throwIf (order.isGateway && order.paymentStatus == .paid &&
      repriced.totals.grandTotal != order.grandTotal)
    (.conflict "This order was paid by card; its items and shipping can no longer change")
  let tenant ← getTenant tenantId
  applyItemChanges tenantId id repriced tenant.tracksInventory
  .ret (some repriced)

/-- The data `updateDetails` writes to the order. -/
def orderEdit (order : Order) (dto : UpdateOrder) (repriced : Option Repriced) : OrderEdit where
  customerName := dto.customerName
  customerEmail := dto.customerEmail
  customerPhone := dto.customerPhone
  shippingAddress :=
    if dto.shippingId == some none then some none
    else dto.shippingAddress.map fun a => some (mergeAddress order.shippingAddress a)
  paymentStatus := dto.paymentStatus.filter fun p => p != order.paymentStatus
  totals := repriced.map Repriced.totals
  shippingId := repriced.bind Repriced.shippingId

/-- Answers the jobs to queue after the commit. -/
def updateDetails (tenantId id : Id) (dto : UpdateOrder) : Prog shop (List Job) := do
  let found ← findOrderWithItems tenantId id
  let (order, items) ← Prog.orThrow found (.notFound "Order not found")
  Prog.throwIf order.status.terminal
    (.conflict ("Order is " ++ order.status.name ++ " and can no longer be edited"))
  Prog.throwIf ((dto.paymentStatus.any fun p => p != order.paymentStatus) && order.isGateway)
    (.conflict "Payment status of a card order is set by the payment provider")
  let repriced ← correctLines tenantId id order items dto
  updateOne (.editOrder id (orderEdit order dto repriced))
  let totalsChanged := repriced.any fun r => r.totals.grandTotal != order.grandTotal
  -- an invoice that already exists would keep showing the old lines and total
  let hasInvoice : Bool ←
    if totalsChanged then .call (.invoiceExists id) .ret else .ret false
  .call (.emitOrderEvent id) fun _ => .ret ()
  .ret (if hasInvoice then [.generateInvoice tenantId id] else [])

/-! ## Proofs of payment and hiding -/

def submitPaymentProof (tenantId orderId : Id) (proofUrl : String) (safeProofUrl : Bool)
    (reference : Option String) : Prog shop Unit := do
  Prog.throwIf (!safeProofUrl) (.badRequest "proofUrl must be one of your own uploads")
  let found ← findOrder tenantId orderId
  let before ← Prog.orThrow found (.notFound "Order not found")
  Prog.throwIf (before.fulfillmentMethod != .zelle) (.badRequest "This order is not a Zelle order")
  Prog.throwIf (before.paymentStatus == .paid) (.conflict "This order has already been paid")
  updateOne (.submitProof orderId proofUrl reference)
  match before.paymentProofUrl with
  | some url => if url != proofUrl then .call (.deleteUploadedFile url) .ret else .ret ()
  | none => .ret ()
  .call (.emitOrderEvent orderId) .ret

/-- "Delete" from the merchant's point of view: hides a finished order from the
list. -/
def hide (tenantId id : Id) : Prog shop Unit := do
  let found ← findOrderWithItems tenantId id
  let (order, _) ← Prog.orThrow found (.notFound "Order not found")
  Prog.throwIf (!order.status.hideable)
    (.conflict "Only completed, cancelled or refunded orders can be deleted")
  let time ← now
  updateOne (.hideOrder id time)

end WhatStore
