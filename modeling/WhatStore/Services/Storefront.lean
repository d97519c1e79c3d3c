import WhatStore.Services.Payments

/-!
# The public storefront

`TenantsService.findPublicBySlug`: what a visitor of a store is shown, with the
payment methods the store offers. The lookup of the store is no tenant-scoped
request, so the two reads of its payment settings run in transactions of their
own.
-/

namespace WhatStore

open ReadCommitted

structure PublicStore where
  id : Id
  slug : String
  tracksInventory : Bool
  catalogType : CatalogType
  currency : String
  whatsappEnabled : Bool
  telegramEnabled : Bool
  zellePaymentInfo : Option Credentials
  checkoutMethods : List FulfillmentMethod

def configured (whatsapp telegram : Bool) (zelle : Option Credentials)
    (enabledGateways : List PaymentProvider) : FulfillmentMethod → Bool
  | .whatsapp => whatsapp
  | .telegram => telegram
  | .zelle => zelle.isSome
  | .stripe => enabledGateways.contains .stripe
  | .mercadoPago => enabledGateways.contains .mercadoPago
  | .paypal => enabledGateways.contains .paypal

/-- A channel is offered only when the store configured it and its plan includes
it. -/
def publicStore (id : Id) (tenant : Tenant) (zelleCredentials : Option Credentials)
    (enabledGateways : List PaymentProvider) (allowed : List FulfillmentMethod) : PublicStore :=
  let whatsappEnabled := tenant.whatsappEnabled && allowed.contains .whatsapp
  let telegramEnabled := tenant.telegramEnabled && allowed.contains .telegram
  let zellePaymentInfo := if allowed.contains .zelle then zelleCredentials else none
  { id, slug := tenant.slug, tracksInventory := tenant.tracksInventory
    catalogType := tenant.catalogType, currency := tenant.currency
    whatsappEnabled, telegramEnabled, zellePaymentInfo
    checkoutMethods :=
      allowed.filter (configured whatsappEnabled telegramEnabled zellePaymentInfo enabledGateways) }

/-- The Zelle credentials in a transaction of their own. -/
def zelleCredentials (tenantId : Id) : Prog shop (Option Credentials) := do
  let credentials ← getDecryptedCredentials tenantId .zelle
  commit
  .ret credentials

def findPublicBySlug (slug : String) : Prog shop PublicStore := do
  let found : Option (Id × Tenant) ← .query (.tenantBySlug slug) .ret
  let (id, tenant) ← Prog.orThrow found (.notFound "Store not found")
  -- one unreadable payment row must not take the whole storefront down
  let credentials ← (zelleCredentials id).attempt
  let enabledGateways : List PaymentProvider ← .query (.enabledGateways id) .ret
  commit
  let allowed : List FulfillmentMethod ← .call (.fulfillmentMethods id) .ret
  .ret (publicStore id tenant credentials.join enabledGateways allowed)

end WhatStore
