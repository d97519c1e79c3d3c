import Mathlib.Data.List.Basic
import Mathlib.Tactic.Common

/-!
# The rows of a store

The tables the order and payment services read and write, one structure a
table, with the columns those services use. A row does not hold its own primary
key: that is the key it is stored under. Money is in hundredths of the currency
unit (`Decimal(12, 2)`), tax rates in thousandths of a per cent
(`Decimal(6, 3)`). Currency codes are kept upper-cased, since every comparison
of the source upper-cases both sides.
-/

namespace WhatStore

/-- A uuid, or an identifier issued by a payment provider. -/
abbrev Id := Nat

/-- Milliseconds since the epoch. -/
abbrev Time := Nat

/-- An amount of money with two decimals, in hundredths. -/
abbrev Cents := Int

/-- A postal address as stored: field names with their values. -/
abbrev Address := List (String × String)

inductive FulfillmentMethod where
  | whatsapp | telegram | stripe | mercadoPago | zelle | paypal
  deriving DecidableEq

inductive OrderStatus where
  | pending | confirmed | processing | completed | cancelled | refunded
  deriving DecidableEq

inductive PaymentStatus where
  | pending | paid | failed | refunded | disputed
  deriving DecidableEq

inductive DiscountType where
  | percentage | flat
  deriving DecidableEq

inductive CatalogType where
  | physical | digital
  deriving DecidableEq

inductive DeliveryStatus where
  | pending | sent | revoked
  deriving DecidableEq

inductive Gateway where
  | stripe | mercadoPago | paypal
  deriving DecidableEq

def OrderStatus.name : OrderStatus → String
  | .pending => "PENDING"
  | .confirmed => "CONFIRMED"
  | .processing => "PROCESSING"
  | .completed => "COMPLETED"
  | .cancelled => "CANCELLED"
  | .refunded => "REFUNDED"

/-- `TERMINAL_ORDER_STATUSES`: no later status change walks them back. -/
def OrderStatus.terminal : OrderStatus → Bool
  | .cancelled => true
  | .refunded => true
  | _ => false

/-- `HIDEABLE_ORDER_STATUSES`: orders with nothing left to resolve. -/
def OrderStatus.hideable : OrderStatus → Bool
  | .completed => true
  | .cancelled => true
  | .refunded => true
  | _ => false

/-- The provider behind a checkout method, when there is one. -/
def FulfillmentMethod.gateway : FulfillmentMethod → Option Gateway
  | .stripe => some .stripe
  | .mercadoPago => some .mercadoPago
  | .paypal => some .paypal
  | .whatsapp => none
  | .telegram => none
  | .zelle => none

/-- A named tax rate, in thousandths of a per cent. -/
structure TaxLine where
  name : String
  rate : Int

structure AppliedTax where
  name : String
  rate : Int
  amount : Cents
  deriving DecidableEq

structure Tenant where
  slug : String
  isActive : Bool
  currency : String
  tracksInventory : Bool
  catalogType : CatalogType
  whatsappEnabled : Bool
  whatsappNumber : Option String
  telegramEnabled : Bool
  telegramBotToken : Option String
  telegramChatId : Option String

/-- Decrypted provider credentials; a Stripe Connect store has an account of
its own. -/
structure Credentials where
  connectedAccountId : Option Id

/-- A payment method of a store. `credentials` is `none` when the stored
secret is missing. -/
structure TenantPaymentSetting where
  isEnabled : Bool
  credentials : Option Credentials

structure Product where
  tenantId : Id
  name : String
  price : Cents
  quantity : Int
  hasVariants : Bool
  isActive : Bool
  isPublished : Bool
  taxes : List TaxLine

structure ProductVariant where
  tenantId : Id
  productId : Id
  name : String
  price : Cents
  quantity : Int

/-- `discountValue` is in hundredths: of the currency unit for a flat discount,
of a per cent for a percentage. -/
structure Coupon where
  tenantId : Id
  code : String
  discountType : DiscountType
  discountValue : Int
  usageLimit : Option Int
  usageCount : Int
  expiresAt : Option Time
  isActive : Bool

structure Shipping where
  tenantId : Id
  cost : Cents
  isActive : Bool

structure Order where
  tenantId : Id
  customerName : String
  customerEmail : Option String
  customerPhone : Option String
  status : OrderStatus
  paymentStatus : PaymentStatus
  fulfillmentMethod : FulfillmentMethod
  currency : String
  subtotal : Cents
  taxTotal : Cents
  discountTotal : Cents
  shippingTotal : Cents
  grandTotal : Cents
  couponId : Option Id
  shippingId : Option Id
  shippingAddress : Option Address
  hiddenAt : Option Time
  stripePaymentIntentId : Option Id
  stripeCheckoutSessionId : Option Id
  mercadoPagoPreferenceId : Option Id
  mercadoPagoPaymentId : Option Id
  paypalOrderId : Option Id
  paypalCaptureId : Option Id
  paymentProofUrl : Option String
  paymentReference : Option String
  createdAt : Time
  deriving DecidableEq

structure OrderItem where
  tenantId : Id
  orderId : Id
  productId : Option Id
  variantId : Option Id
  unitPrice : Cents
  quantity : Int
  taxAmount : Cents
  lineTotal : Cents
  taxBreakdown : List AppliedTax
  deriving DecidableEq

/-- A file of a product; `storageKey` names the object it is stored as. -/
structure DigitalAsset where
  tenantId : Id
  productId : Id
  label : String
  fileName : String
  storageKey : Id

/-- What was delivered for a paid order. It is stored under the id of its
order, which is unique. -/
structure DigitalDelivery where
  id : Id
  tenantId : Id
  status : DeliveryStatus
  emailAttempts : Nat
  lastError : Option String
  sentAt : Option Time
  revokedAt : Option Time
  revokedReason : Option String
  updatedAt : Time

/-- The SHA-256 digest of a random token, taken to be free of collisions: the
digest is known by the token it was computed from. -/
structure TokenHash where
  ofToken : Id
  deriving DecidableEq

/-- A link to one file. Only the hash of its token is stored. -/
structure DownloadGrant where
  tenantId : Id
  deliveryId : Id
  assetId : Id
  tokenHash : TokenHash
  expiresAt : Time
  maxDownloads : Nat
  downloadCount : Nat
  revokedAt : Option Time

/-- The id a provider gave the payment recorded on the order. -/
def Order.payment (o : Order) : Gateway → Option Id
  | .stripe => o.stripePaymentIntentId
  | .mercadoPago => o.mercadoPagoPaymentId
  | .paypal => o.paypalCaptureId

structure Totals where
  subtotal : Cents
  taxTotal : Cents
  discountTotal : Cents
  shippingTotal : Cents
  grandTotal : Cents

/-- A row that has stock: a product, or one of its variants. -/
inductive StockRow where
  | product (id : Id)
  | variant (id : Id)
  deriving DecidableEq

/-- The stock row units are taken from and given back to: the variant, else the
product, else none (both were deleted since). -/
def stockRowOf (productId variantId : Option Id) : Option StockRow :=
  match variantId, productId with
  | some v, _ => some (.variant v)
  | none, some p => some (.product p)
  | none, none => none

def OrderItem.stockRow (i : OrderItem) : Option StockRow := stockRowOf i.productId i.variantId

end WhatStore
