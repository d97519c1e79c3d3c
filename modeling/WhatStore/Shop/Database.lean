import WhatStore.Shop.Pricing
import WhatStore.ReadCommitted.Discipline

/-!
# The database of the store and its statements

The schema `shop` of the order and payment services: the keys of their tables,
and one query or update for each Prisma statement they issue. An update on
several rows (`updateMany` on the grants of a delivery, the deletion of all
variants of a product) is issued row by row.

`findUnique` inside `withTenant` and `findFirst` with a `tenantId` see the same
rows, since row-level security hides the other tenants' rows; both are queries
that take the tenant.
-/

namespace WhatStore

open ReadCommitted

inductive PaymentProvider where
  | stripe | mercadoPago | zelle | paypal
  deriving DecidableEq

/-! ## Keys and rows -/

inductive Key where
  | tenant (id : Id)
  | setting (tenantId : Id) (provider : PaymentProvider)
  | product (id : Id)
  | variant (id : Id)
  | coupon (id : Id)
  | shipping (id : Id)
  | order (id : Id)
  | item (id : Id)
  | asset (id : Id)
  | delivery (orderId : Id)
  | grant (id : Id)
  deriving DecidableEq

@[reducible] def Row : Key → Type
  | .tenant _ => Tenant
  | .setting _ _ => TenantPaymentSetting
  | .product _ => Product
  | .variant _ => ProductVariant
  | .coupon _ => Coupon
  | .shipping _ => Shipping
  | .order _ => Order
  | .item _ => OrderItem
  | .asset _ => DigitalAsset
  | .delivery _ => DigitalDelivery
  | .grant _ => DownloadGrant

abbrev Database := Store Key Row

def StockRow.key : StockRow → Key
  | .product id => .product id
  | .variant id => .variant id

/-! ## Queries -/

/-- The read statements. `existing` and `winner` are the two reads of a
settlement, before its conditional write and after losing a race on it. -/
inductive Query where
  | tenant (id : Id)
  | setting (tenantId : Id) (provider : PaymentProvider)
  | order (tenantId id : Id)
  | orderWithItems (tenantId id : Id)
  | existing (tenantId id : Id)
  | winner (tenantId id : Id)
  | products (tenantId : Id) (ids : List Id) (onlyPublished : Bool)
  | couponByCode (tenantId : Id) (code : String)
  | coupon (tenantId id : Id)
  | shipping (tenantId id : Id) (onlyActive : Bool)
  | stockVariant (id : Id)
  | stockProduct (id : Id)
  | staleOrders (cutoff : Time)
  | orderByPayPalOrder (paypalOrderId : Id)
  | orderByPayPalCapture (paypalCaptureId : Id)
  | itemProducts (orderId : Id)
  | assets (tenantId : Id) (productIds : List Id)
  | delivery (orderId : Id)
  | openGrants (deliveryId : Id)
  | variantsOf (productId : Id)
  | itemsOfVariant (variantId : Id)
  | itemsOfProduct (productId : Id)
  | productCount (tenantId : Id)
  | tenantBySlug (slug : String)
  | enabledGateways (tenantId : Id)
  | deliveryById (deliveryId : Id)
  | deliveryOf (tenantId orderId : Id)
  | staleDeliveries (maxAttempts : Nat) (cutoff : Time)
  | grantByToken (tokenHash : TokenHash)
  | asset (tenantId productId assetId : Id)
  | grantsOfAsset (assetId : Id)
  | assetsOf (tenantId productId : Id)
  | dependants (productId : Id)

/-- The columns `findOrderByPayPal` selects. -/
structure OrderRef where
  id : Id
  tenantId : Id
  paymentStatus : PaymentStatus

structure DeliveryToSend where
  orderId : Id
  delivery : DigitalDelivery
  grants : List (Id × DownloadGrant × Option DigitalAsset)
  order : Option Order

/-- A grant with its file, and the states of its delivery and order. -/
structure GrantToRedeem where
  id : Id
  grant : DownloadGrant
  asset : Option DigitalAsset
  delivery : Option (DeliveryStatus × PaymentStatus)

@[reducible] def Query.Result : Query → Type
  | .tenant _ => Option Tenant
  | .setting _ _ => Option TenantPaymentSetting
  | .order _ _ => Option Order
  | .orderWithItems _ _ => Option (Order × List (Id × OrderItem))
  | .existing _ _ => Option Order
  | .winner _ _ => Option Order
  | .products _ _ _ => List (Id × Product × List (Id × ProductVariant))
  | .couponByCode _ _ => Option (Id × Coupon)
  | .coupon _ _ => Option Coupon
  | .shipping _ _ _ => Option Shipping
  | .stockVariant _ => Option (ProductVariant × Option Product)
  | .stockProduct _ => Option Product
  | .staleOrders _ => List (Id × Id)
  | .orderByPayPalOrder _ => Option OrderRef
  | .orderByPayPalCapture _ => Option OrderRef
  | .itemProducts _ => List Id
  | .assets _ _ => List Id
  | .delivery _ => Option DigitalDelivery
  | .openGrants _ => List Id
  | .variantsOf _ => List Id
  | .itemsOfVariant _ => List Id
  | .itemsOfProduct _ => List Id
  | .productCount _ => Nat
  | .tenantBySlug _ => Option (Id × Tenant)
  | .enabledGateways _ => List PaymentProvider
  | .deliveryById _ => Option DeliveryToSend
  | .deliveryOf _ _ => Option (DigitalDelivery × PaymentStatus)
  | .staleDeliveries _ _ => List Id
  | .grantByToken _ => Option GrantToRedeem
  | .asset _ _ _ => Option DigitalAsset
  | .grantsOfAsset _ => List Id
  | .assetsOf _ _ => List (Id × DigitalAsset)
  | .dependants _ => Nat

/-- The row of an order, hidden from other tenants. -/
def orderOf (s : Database) (tenantId id : Id) : Option Order :=
  (s.row (.order id)).filter fun o => o.tenantId == tenantId

def itemsOf (s : Database) (orderId : Id) : List (Id × OrderItem) :=
  s.keys.filterMap fun k => match k with
    | .item id => ((s.row (.item id)).filter fun i => i.orderId == orderId).map (Prod.mk id)
    | _ => none

def variantsOf (s : Database) (productId : Id) : List (Id × ProductVariant) :=
  s.keys.filterMap fun k => match k with
    | .variant id => ((s.row (.variant id)).filter fun v => v.productId == productId).map (Prod.mk id)
    | _ => none

def ordersWhere (s : Database) (p : Order → Bool) : List (Id × Order) :=
  s.keys.filterMap fun k => match k with
    | .order id => ((s.row (.order id)).filter p).map (Prod.mk id)
    | _ => none

/-- An order the sweep may cancel: an online payment that never started. -/
def Order.stale (cutoff : Time) (o : Order) : Bool :=
  o.fulfillmentMethod.gateway.isSome && o.status == .pending && o.paymentStatus == .pending &&
    decide (o.createdAt < cutoff)

/-- The deliveries that satisfy a condition, with the ids of their orders. -/
def deliveriesWhere (s : Database) (p : Id → DigitalDelivery → Bool) :
    List (Id × DigitalDelivery) :=
  s.keys.filterMap fun k => match k with
    | .delivery orderId => ((s.row (.delivery orderId)).filter (p orderId)).map (Prod.mk orderId)
    | _ => none

def grantsWhere (s : Database) (p : DownloadGrant → Bool) : List (Id × DownloadGrant) :=
  s.keys.filterMap fun k => match k with
    | .grant id => ((s.row (.grant id)).filter p).map (Prod.mk id)
    | _ => none

def assetsOf (s : Database) (tenantId productId : Id) : List (Id × DigitalAsset) :=
  s.keys.filterMap fun k => match k with
    | .asset id => ((s.row (.asset id)).filter fun a =>
        a.tenantId == tenantId && a.productId == productId).map (Prod.mk id)
    | _ => none

def paymentStatusOf (s : Database) (orderId : Id) : Option PaymentStatus :=
  (s.row (.order orderId)).map Order.paymentStatus

/-- `status: { in: ['PENDING', 'CONFIRMED', 'PROCESSING'] }`. -/
def OrderStatus.isOpen : OrderStatus → Bool
  | .pending => true
  | .confirmed => true
  | .processing => true
  | _ => false

def dependsOnFiles (s : Database) (orderId : Id) : Bool :=
  (s.row (.delivery orderId)).isSome || (s.row (.order orderId)).any fun o => o.status.isOpen

def Query.eval : (q : Query) → Database → q.Result
  | .tenant id, s => s.row (.tenant id)
  | .setting tenantId provider, s => s.row (.setting tenantId provider)
  | .order tenantId id, s => orderOf s tenantId id
  | .orderWithItems tenantId id, s => (orderOf s tenantId id).map fun o => (o, itemsOf s id)
  | .existing tenantId id, s => orderOf s tenantId id
  | .winner tenantId id, s => orderOf s tenantId id
  | .products tenantId ids onlyPublished, s =>
      s.keys.filterMap fun k => match k with
        | .product id => ((s.row (.product id)).filter fun p =>
            ids.contains id && p.tenantId == tenantId &&
              (!onlyPublished || (p.isActive && p.isPublished))).map
            fun p => (id, p, WhatStore.variantsOf s id)
        | _ => none
  | .couponByCode tenantId code, s =>
      s.keys.findSome? fun k => match k with
        | .coupon id => ((s.row (.coupon id)).filter fun c =>
            c.tenantId == tenantId && c.code == code && c.isActive).map (Prod.mk id)
        | _ => none
  | .coupon tenantId id, s => (s.row (.coupon id)).filter fun c => c.tenantId == tenantId
  | .shipping tenantId id onlyActive, s =>
      (s.row (.shipping id)).filter fun x => x.tenantId == tenantId && (!onlyActive || x.isActive)
  | .stockVariant id, s => (s.row (.variant id)).map fun v => (v, s.row (.product v.productId))
  | .stockProduct id, s => s.row (.product id)
  | .staleOrders cutoff, s =>
      ((ordersWhere s (Order.stale cutoff)).map fun x => (x.1, x.2.tenantId)).take 500
  | .orderByPayPalOrder paypalOrderId, s =>
      (ordersWhere s fun o => o.paypalOrderId == some paypalOrderId).head?.map
        fun x => ⟨x.1, x.2.tenantId, x.2.paymentStatus⟩
  | .orderByPayPalCapture paypalCaptureId, s =>
      (ordersWhere s fun o => o.paypalCaptureId == some paypalCaptureId).head?.map
        fun x => ⟨x.1, x.2.tenantId, x.2.paymentStatus⟩
  | .itemProducts orderId, s => (itemsOf s orderId).filterMap fun x => x.2.productId
  | .assets tenantId productIds, s =>
      s.keys.filterMap fun k => match k with
        | .asset id => ((s.row (.asset id)).filter fun a =>
            a.tenantId == tenantId && productIds.contains a.productId).map fun _ => id
        | _ => none
  | .delivery orderId, s => s.row (.delivery orderId)
  | .openGrants deliveryId, s =>
      s.keys.filterMap fun k => match k with
        | .grant id => ((s.row (.grant id)).filter fun g =>
            g.deliveryId == deliveryId && g.revokedAt.isNone).map fun _ => id
        | _ => none
  | .variantsOf productId, s => (WhatStore.variantsOf s productId).map Prod.fst
  | .itemsOfVariant variantId, s =>
      s.keys.filterMap fun k => match k with
        | .item id => ((s.row (.item id)).filter fun i => i.variantId == some variantId).map
            fun _ => id
        | _ => none
  | .itemsOfProduct productId, s =>
      s.keys.filterMap fun k => match k with
        | .item id => ((s.row (.item id)).filter fun i => i.productId == some productId).map
            fun _ => id
        | _ => none
  | .productCount tenantId, s =>
      (s.keys.filter fun k => match k with
        | .product id => (s.row (.product id)).any fun p => p.tenantId == tenantId
        | _ => false).length
  | .tenantBySlug slug, s =>
      s.keys.findSome? fun k => match k with
        | .tenant id => ((s.row (.tenant id)).filter fun t => t.slug == slug && t.isActive).map
            (Prod.mk id)
        | _ => none
  | .enabledGateways tenantId, s =>
      [.stripe, .mercadoPago, .paypal].filter fun provider =>
        (s.row (.setting tenantId provider)).any TenantPaymentSetting.isEnabled
  | .deliveryById deliveryId, s =>
      (deliveriesWhere s fun _ d => d.id == deliveryId).head?.map fun x =>
        { orderId := x.1, delivery := x.2, order := s.row (.order x.1)
          grants := (grantsWhere s fun g => g.deliveryId == deliveryId).map fun g =>
            (g.1, g.2, s.row (.asset g.2.assetId)) }
  | .deliveryOf tenantId orderId, s =>
      ((s.row (.delivery orderId)).filter fun d => d.tenantId == tenantId).bind fun d =>
        (paymentStatusOf s orderId).map (Prod.mk d)
  | .staleDeliveries maxAttempts cutoff, s =>
      ((deliveriesWhere s fun orderId d => d.status == .pending &&
        decide (d.emailAttempts < maxAttempts) && decide (d.updatedAt < cutoff) &&
        paymentStatusOf s orderId == some .paid).map fun x => x.2.id).take 200
  | .grantByToken tokenHash, s =>
      (grantsWhere s fun g => g.tokenHash == tokenHash).head?.map fun g =>
        { id := g.1, grant := g.2, asset := s.row (.asset g.2.assetId)
          delivery := (deliveriesWhere s fun _ d => d.id == g.2.deliveryId).head?.bind fun x =>
            (paymentStatusOf s x.1).map (Prod.mk x.2.status) }
  | .asset tenantId productId assetId, s =>
      (s.row (.asset assetId)).filter fun a =>
        a.tenantId == tenantId && a.productId == productId
  | .grantsOfAsset assetId, s => (grantsWhere s fun g => g.assetId == assetId).map Prod.fst
  | .assetsOf tenantId productId, s => WhatStore.assetsOf s tenantId productId
  | .dependants productId, s =>
      (s.keys.filter fun k => match k with
        | .item id => (s.row (.item id)).any fun i =>
            i.productId == some productId && dependsOnFiles s i.orderId
        | _ => false).length

/-! ## Updates -/

/-- What `updateDetails` writes; a field that is `none` is left alone. -/
structure OrderEdit where
  customerName : Option String
  customerEmail : Option (Option String)
  customerPhone : Option (Option String)
  shippingAddress : Option (Option Address)
  paymentStatus : Option PaymentStatus
  totals : Option Totals
  shippingId : Option (Option Id)

/-- The columns of a line that `applyItemChanges` rewrites. -/
structure ItemData where
  quantity : Int
  taxAmount : Cents
  lineTotal : Cents
  taxBreakdown : List AppliedTax

/-- The settings of a store that matter here; `none` is left alone. -/
structure TenantEdit where
  tracksInventory : Option Bool
  catalogType : Option CatalogType

/-- The columns of a product `ProductsService.update` may write. -/
structure ProductEdit where
  name : Option String
  price : Option Cents
  quantity : Option Int
  isActive : Option Bool
  isPublished : Option Bool
  hasVariants : Option Bool

inductive Lost where
  | refunded | disputed
  deriving DecidableEq

/-- The write statements. `updateItem` and `deleteItem` carry the line as the
service had read it, which the statements themselves do not use. -/
inductive Update where
  | insertOrder (id : Id) (order : Order)
  | insertItem (id : Id) (item : OrderItem)
  | confirmMessage (id : Id)
  | claimStatus (id : Id) (old new : OrderStatus) (pay : Option PaymentStatus)
  | restatus (id : Id) (status : OrderStatus) (pay : Option PaymentStatus)
  | editOrder (id : Id) (edit : OrderEdit)
  | settle (id : Id) (gateway : Gateway) (payment : Option Id)
  | failPayPal (id : Id)
  | sweepCancel (id : Id)
  | markLost (id : Id) (lost : Lost)
  | confirmManual (id : Id)
  | rejectManual (id : Id)
  | submitProof (id : Id) (proofUrl : String) (reference : Option String)
  | bindCheckout (id : Id) (gateway : Gateway) (reference : Id)
  | hideOrder (id : Id) (now : Time)
  | take (row : StockRow) (n : Int)
  | give (row : StockRow) (n : Int)
  | redeem (id : Id) (usageLimit : Option Int)
  | releaseCoupon (id : Id)
  | updateItem (id : Id) (read : OrderItem) (data : ItemData)
  | deleteItem (id : Id) (read : OrderItem)
  | clearVariant (itemId variantId : Id)
  | insertDelivery (orderId : Id) (delivery : DigitalDelivery)
  | revokeDelivery (orderId : Id) (now : Time) (reason : String)
  | insertGrant (id : Id) (grant : DownloadGrant)
  | revokeGrant (id : Id) (now : Time)
  | mintGrant (id : Id) (tokenHash : TokenHash) (expiresAt : Time)
  | takeDownload (id : Id) (maxDownloads : Nat) (now : Time)
  | noteDelivery (orderId deliveryId : Id) (error : String) (now : Time)
  | markSent (orderId deliveryId : Id) (now : Time)
  | markFailed (orderId deliveryId : Id) (error : String) (now : Time)
  | editTenant (id : Id) (edit : TenantEdit)
  | editProduct (id : Id) (edit : ProductEdit)
  | deleteVariant (id : Id)
  | insertVariant (id : Id) (variant : ProductVariant)
  | deleteProduct (id : Id)
  | clearProduct (itemId productId : Id)
  | deleteAsset (id : Id)
  | deleteGrant (id : Id)

@[reducible] def Update.key : Update → Key
  | .insertOrder id _ => .order id
  | .insertItem id _ => .item id
  | .confirmMessage id => .order id
  | .claimStatus id _ _ _ => .order id
  | .restatus id _ _ => .order id
  | .editOrder id _ => .order id
  | .settle id _ _ => .order id
  | .failPayPal id => .order id
  | .sweepCancel id => .order id
  | .markLost id _ => .order id
  | .confirmManual id => .order id
  | .rejectManual id => .order id
  | .submitProof id _ _ => .order id
  | .bindCheckout id _ _ => .order id
  | .hideOrder id _ => .order id
  | .take (.product id) _ => .product id
  | .take (.variant id) _ => .variant id
  | .give (.product id) _ => .product id
  | .give (.variant id) _ => .variant id
  | .redeem id _ => .coupon id
  | .releaseCoupon id => .coupon id
  | .updateItem id _ _ => .item id
  | .deleteItem id _ => .item id
  | .clearVariant itemId _ => .item itemId
  | .insertDelivery orderId _ => .delivery orderId
  | .revokeDelivery orderId _ _ => .delivery orderId
  | .insertGrant id _ => .grant id
  | .revokeGrant id _ => .grant id
  | .mintGrant id _ _ => .grant id
  | .takeDownload id _ _ => .grant id
  | .noteDelivery orderId _ _ _ => .delivery orderId
  | .markSent orderId _ _ => .delivery orderId
  | .markFailed orderId _ _ _ => .delivery orderId
  | .editTenant id _ => .tenant id
  | .editProduct id _ => .product id
  | .deleteVariant id => .variant id
  | .insertVariant id _ => .variant id
  | .deleteProduct id => .product id
  | .clearProduct itemId _ => .item itemId
  | .deleteAsset id => .asset id
  | .deleteGrant id => .grant id

/-- The provider's id of a payment, recorded on the order; `undefined` leaves
the column alone. -/
def Order.record (o : Order) (gateway : Gateway) (payment : Option Id) : Order :=
  match gateway, payment with
  | _, none => o
  | .stripe, some p => { o with stripePaymentIntentId := some p }
  | .mercadoPago, some p => { o with mercadoPagoPaymentId := some p }
  | .paypal, some p => { o with paypalCaptureId := some p }

/-- The data of `updateDetails` applied to an order. -/
def Order.edit (o : Order) (e : OrderEdit) : Order :=
  { o with
    customerName := e.customerName.getD o.customerName
    customerEmail := e.customerEmail.getD o.customerEmail
    customerPhone := e.customerPhone.getD o.customerPhone
    shippingAddress := e.shippingAddress.getD o.shippingAddress
    paymentStatus := e.paymentStatus.getD o.paymentStatus
    subtotal := (e.totals.map Totals.subtotal).getD o.subtotal
    taxTotal := (e.totals.map Totals.taxTotal).getD o.taxTotal
    discountTotal := (e.totals.map Totals.discountTotal).getD o.discountTotal
    shippingTotal := (e.totals.map Totals.shippingTotal).getD o.shippingTotal
    grandTotal := (e.totals.map Totals.grandTotal).getD o.grandTotal
    shippingId := e.shippingId.getD o.shippingId }

/-- The provider's reference of an open checkout, recorded on the order. -/
def Order.bind (o : Order) (gateway : Gateway) (reference : Id) : Order :=
  match gateway with
  | .stripe => { o with stripeCheckoutSessionId := some reference }
  | .mercadoPago => { o with mercadoPagoPreferenceId := some reference }
  | .paypal => { o with paypalOrderId := some reference }

/-- `where: { paymentStatus: { in: ... } }` of `markPayPalOrderLost`. -/
def Lost.applies : Lost → PaymentStatus → Bool
  | .refunded, p => p == .paid
  | .disputed, p => p == .paid || p == .refunded

def Order.markLost (o : Order) : Lost → Order
  | .refunded => { o with paymentStatus := .refunded, status := .refunded }
  | .disputed => { o with paymentStatus := .disputed }

/-- The `where` clause of each update on the row it names. An `update` by id
asks only for the row to be there, an insert for it not to be. -/
def Update.guard : (u : Update) → Option (Row u.key) → Bool
  | .insertOrder _ _, v => v.isNone
  | .insertItem _ _, v => v.isNone
  | .confirmMessage _, v => v.isSome
  | .claimStatus _ old _ _, v => v.any fun o : Order => o.status == old
  | .restatus _ _ _, v => v.isSome
  | .editOrder _ _, v => v.isSome
  | .settle _ _ _, v => v.any fun o : Order => o.paymentStatus != .paid && !o.status.terminal
  | .failPayPal _, v => v.any fun o : Order => o.paymentStatus == .pending
  | .sweepCancel _, v => v.any fun o : Order => o.status == .pending && o.paymentStatus == .pending
  | .markLost _ lost, v => v.any fun o : Order => lost.applies o.paymentStatus
  | .confirmManual _, v => v.isSome
  | .rejectManual _, v => v.isSome
  | .submitProof _ _ _, v => v.isSome
  | .bindCheckout _ _ _, v => v.isSome
  | .hideOrder _ _, v => v.isSome
  | .take (.product _) n, v => v.any fun p : Product => decide (n ≤ p.quantity)
  | .take (.variant _) n, v => v.any fun x : ProductVariant => decide (n ≤ x.quantity)
  | .give (.product _) _, v => v.isSome
  | .give (.variant _) _, v => v.isSome
  | .redeem _ limit, v => v.any fun c : Coupon =>
      c.usageLimit.isNone || decide (c.usageCount < limit.getD 0)
  | .releaseCoupon _, v => v.any fun c : Coupon => decide (0 < c.usageCount)
  | .updateItem _ _ _, v => v.isSome
  | .deleteItem _ _, v => v.isSome
  | .clearVariant _ variantId, v => v.any fun i : OrderItem => i.variantId == some variantId
  | .insertDelivery _ _, v => v.isNone
  | .revokeDelivery _ _ _, v => v.isSome
  | .insertGrant _ _, v => v.isNone
  | .revokeGrant _ _, v => v.any fun g : DownloadGrant => g.revokedAt.isNone
  | .mintGrant _ _ _, v => v.isSome
  | .takeDownload _ maxDownloads now, v => v.any fun g : DownloadGrant =>
      g.revokedAt.isNone && decide (now < g.expiresAt) && decide (g.downloadCount < maxDownloads)
  | .noteDelivery _ deliveryId _ _, v => v.any fun d : DigitalDelivery => d.id == deliveryId
  | .markSent _ deliveryId _, v => v.any fun d : DigitalDelivery =>
      d.id == deliveryId && d.status != .revoked
  | .markFailed _ deliveryId _ _, v => v.any fun d : DigitalDelivery =>
      d.id == deliveryId && d.status != .revoked
  | .editTenant _ _, v => v.isSome
  | .editProduct _ _, v => v.isSome
  | .deleteVariant _, v => v.isSome
  | .insertVariant _ _, v => v.isNone
  | .deleteProduct _, v => v.isSome
  | .clearProduct _ productId, v => v.any fun i : OrderItem => i.productId == some productId
  | .deleteAsset _, v => v.isSome
  | .deleteGrant _, v => v.isSome

/-- The row each update leaves where its `where` clause holds. -/
def Update.change : (u : Update) → Option (Row u.key) → Option (Row u.key)
  | .insertOrder _ order, _ => some order
  | .insertItem _ item, _ => some item
  | .confirmMessage _, v => v.map fun o : Order => { o with status := .confirmed }
  | .claimStatus _ _ new pay, v => v.map fun o : Order =>
      { o with status := new, paymentStatus := pay.getD o.paymentStatus }
  | .restatus _ status pay, v => v.map fun o : Order =>
      { o with status := status, paymentStatus := pay.getD o.paymentStatus }
  | .editOrder _ edit, v => v.map fun o : Order => o.edit edit
  | .settle _ gateway payment, v => v.map fun o : Order =>
      { o.record gateway payment with paymentStatus := .paid, status := .confirmed }
  | .failPayPal _, v => v.map fun o : Order => { o with paymentStatus := .failed }
  | .sweepCancel _, v => v.map fun o : Order => { o with status := .cancelled }
  | .markLost _ lost, v => v.map fun o : Order => o.markLost lost
  | .confirmManual _, v => v.map fun o : Order =>
      { o with paymentStatus := .paid, status := .confirmed }
  | .rejectManual _, v => v.map fun o : Order =>
      { o with paymentProofUrl := none, paymentReference := none }
  | .submitProof _ proofUrl reference, v => v.map fun o : Order =>
      { o with paymentProofUrl := some proofUrl
               paymentReference := reference.orElse fun _ => o.paymentReference }
  | .bindCheckout _ gateway reference, v => v.map fun o : Order => o.bind gateway reference
  | .hideOrder _ now, v => v.map fun o : Order => { o with hiddenAt := some now }
  | .take (.product _) n, v => v.map fun p : Product => { p with quantity := p.quantity - n }
  | .take (.variant _) n, v => v.map fun x : ProductVariant => { x with quantity := x.quantity - n }
  | .give (.product _) n, v => v.map fun p : Product => { p with quantity := p.quantity + n }
  | .give (.variant _) n, v => v.map fun x : ProductVariant => { x with quantity := x.quantity + n }
  | .redeem _ _, v => v.map fun c : Coupon => { c with usageCount := c.usageCount + 1 }
  | .releaseCoupon _, v => v.map fun c : Coupon => { c with usageCount := c.usageCount - 1 }
  | .updateItem _ _ data, v => v.map fun i : OrderItem =>
      { i with quantity := data.quantity, taxAmount := data.taxAmount
               lineTotal := data.lineTotal, taxBreakdown := data.taxBreakdown }
  | .deleteItem _ _, _ => none
  | .clearVariant _ _, v => v.map fun i : OrderItem => { i with variantId := none }
  | .insertDelivery _ delivery, _ => some delivery
  | .revokeDelivery _ now reason, v => v.map fun d : DigitalDelivery =>
      { d with status := .revoked, revokedAt := some now, revokedReason := some reason
               updatedAt := now }
  | .insertGrant _ grant, _ => some grant
  | .revokeGrant _ now, v => v.map fun g : DownloadGrant => { g with revokedAt := some now }
  | .mintGrant _ tokenHash expiresAt, v => v.map fun g : DownloadGrant =>
      { g with tokenHash := tokenHash, expiresAt := expiresAt, downloadCount := 0
               revokedAt := none }
  | .takeDownload _ _ _, v => v.map fun g : DownloadGrant =>
      { g with downloadCount := g.downloadCount + 1 }
  | .noteDelivery _ _ error now, v => v.map fun d : DigitalDelivery =>
      { d with lastError := some error, updatedAt := now }
  | .markSent _ _ now, v => v.map fun d : DigitalDelivery =>
      { d with status := .sent, sentAt := some now, lastError := none
               emailAttempts := d.emailAttempts + 1, updatedAt := now }
  | .markFailed _ _ error now, v => v.map fun d : DigitalDelivery =>
      { d with lastError := some error, emailAttempts := d.emailAttempts + 1, updatedAt := now }
  | .editTenant _ edit, v => v.map fun t : Tenant =>
      { t with tracksInventory := edit.tracksInventory.getD t.tracksInventory
               catalogType := edit.catalogType.getD t.catalogType }
  | .editProduct _ edit, v => v.map fun p : Product =>
      { p with name := edit.name.getD p.name, price := edit.price.getD p.price
               quantity := edit.quantity.getD p.quantity
               isActive := edit.isActive.getD p.isActive
               isPublished := edit.isPublished.getD p.isPublished
               hasVariants := edit.hasVariants.getD p.hasVariants }
  | .deleteVariant _, _ => none
  | .insertVariant _ variant, _ => some variant
  | .deleteProduct _, _ => none
  | .clearProduct _ _, v => v.map fun i : OrderItem => { i with productId := none }
  | .deleteAsset _, _ => none
  | .deleteGrant _, _ => none

/-! ## Outside calls -/

inductive PayPalOrderStatus where
  | notApproved | approved | completed | other
  deriving DecidableEq

inductive CaptureStatus where
  | completed | declined | failed | pending | other
  deriving DecidableEq

/-- A PayPal order reduced to what settling a payment needs. -/
structure PayPalOrderState where
  paypalOrderId : Id
  orderStatus : PayPalOrderStatus
  captureId : Option Id
  captureStatus : Option CaptureStatus
  amountMinor : Option Int
  currency : Option String

/-- A payment as MercadoPago answers it; `transactionAmount` is in hundredths. -/
structure MercadoPagoPayment where
  id : Id
  status : String
  tenantId : Option Id
  orderId : Option Id
  transactionAmount : Cents
  currencyId : Option String

structure CheckoutContext where
  orderId : Id
  tenantId : Id
  currency : String
  grandTotal : Cents
  shippingTotal : Cents
  taxTotal : Cents
  discountTotal : Cents
  items : List (Cents × Int)

/-- The delivery email: where it goes, and a link for each file, which is its
label with the token of the link. -/
structure Mail where
  tenantId : Id
  recipient : String
  customerName : String
  links : List (String × Id)

inductive Job where
  | generateInvoice (tenantId orderId : Id)
  | sendDelivery (deliveryId : Id)
  | resendDelivery (deliveryId : Id)
  | orderConfirmation (tenantId orderId : Id)
  | telegramMessage (tenantId orderId : Id)

/-- Calls that leave the database: the clock, fresh uuids and tokens, the
providers' APIs, the queues, the event stream, the mail transport, the stored
files, and three answers of services that are not part of this development. -/
inductive Call where
  | now
  | uuid
  | fulfillmentMethods (tenantId : Id)
  | returnUrlsAllowed (tenantId : Id)
  | underLiveProductLimit (tenantId : Id)
  | expireSession (sessionId : Id)
  | createCheckout (gateway : Gateway) (context : CheckoutContext)
  | getPayment (dataId : Id)
  | captureOrder (paypalOrderId : Id)
  | refund (gateway : Gateway) (payment : Id)
  | enqueue (job : Job)
  | emitOrderEvent (orderId : Id)
  | deleteUploadedFile (url : String)
  | invoiceExists (orderId : Id)
  | deliverEmail (mail : Mail)
  | signedDownloadUrl (storageKey : Id) (fileName : String)
  | removeObject (storageKey : Id)

/-- What a call answers; a provider or queue that fails answers `none` or
`false`. Sending a mail may fail with an error, or answer that it was not sent. -/
@[reducible] def Call.Answer : Call → Type
  | .now => Time
  | .uuid => Id
  | .fulfillmentMethods _ => List FulfillmentMethod
  | .returnUrlsAllowed _ => Bool
  | .underLiveProductLimit _ => Bool
  | .expireSession _ => Unit
  | .createCheckout _ _ => Option Id
  | .getPayment _ => Option MercadoPagoPayment
  | .captureOrder _ => Option PayPalOrderState
  | .refund _ _ => Bool
  | .enqueue _ => Bool
  | .emitOrderEvent _ => Unit
  | .deleteUploadedFile _ => Unit
  | .invoiceExists _ => Bool
  | .deliverEmail _ => Except String Bool
  | .signedDownloadUrl _ _ => Option String
  | .removeObject _ => Unit

/-- The exceptions of the services, with the texts the client is shown. -/
inductive Err where
  | badRequest (message : String)
  | forbidden (message : String)
  | notFound (message : String)
  | conflict (message : String)
  | gone (message : String)
  /-- Prisma's error for an `update` or `findUniqueOrThrow` without a row. -/
  | recordNotFound
  /-- A call outside of the database failed. -/
  | failure (message : String)

@[reducible] def shop : Schema where
  Key := Key
  Row := Row
  Query := Query
  Result := Query.Result
  eval := Query.eval
  Update := Update
  key := Update.key
  guard := Update.guard
  change := Update.change
  Call := Call
  Answer := Call.Answer
  Err := Err

/-! ## Statements -/

def findTenant (id : Id) : Prog shop (Option Tenant) := .query (.tenant id) .ret

/-- `findUniqueOrThrow` on a tenant. -/
def getTenant (id : Id) : Prog shop Tenant := do
  let tenant ← findTenant id
  Prog.orThrow tenant .recordNotFound

def findOrder (tenantId id : Id) : Prog shop (Option Order) := .query (.order tenantId id) .ret

def findOrderWithItems (tenantId id : Id) : Prog shop (Option (Order × List (Id × OrderItem))) :=
  .query (.orderWithItems tenantId id) .ret

/-- An `updateMany` or `createMany` on one row; answers whether it changed. -/
def updateMany (u : Update) : Prog shop Bool := .update u .ret

/-- An `update` or `delete` by primary key, which fails without its row. -/
def updateOne (u : Update) : Prog shop Unit := do
  let hit ← updateMany u
  Prog.throwIf (!hit) .recordNotFound

/-- A `create`, which fails on a key that is taken. -/
def insertOne (u : Update) : Prog shop Unit := do
  let hit ← updateMany u
  Prog.throwIf (!hit) (.failure "Unique constraint failed")

def now : Prog shop Time := .call .now .ret

def uuid : Prog shop Id := .call .uuid .ret

/-- The end of a transaction that was opened by the service itself. -/
def commit : Prog shop Unit := .commit (.ret ())

/-- `afterCommit` hooks: jobs put on their queues after the commit, whatever
becomes of them. -/
def runHooks : List Job → Prog shop Unit :=
  Prog.each fun job => .call (.enqueue job) fun _ => .ret ()

end WhatStore
