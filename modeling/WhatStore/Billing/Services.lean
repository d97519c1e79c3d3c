import WhatStore.Billing.Database
import WhatStore.Reports.Calendar

/-!
# Plans, billing and the lifecycle of subscriptions

`PlansService`, the Stripe webhook of `BillingService`, the hourly sweep of
`SubscriptionLifecycleService`, and the two requests that open a store. A request
for a tenant runs in one transaction (`inTx`); otherwise each statement commits
by itself.
-/

namespace WhatStore.Billing

open ReadCommitted

/-! ## Statements -/

/-- An `updateMany` on one row; answers whether it changed. -/
def updateMany (u : Update) : Prog billing Bool := .update u .ret

/-- An `update` by primary key, which fails without its row. -/
def updateOne (u : Update) : Prog billing Unit := do
  let hit ← updateMany u
  Prog.throwIf (!hit) .recordNotFound

def now : Prog billing Time := .call .now .ret

def uuid : Prog billing Id := .call .uuid .ret

/-- The end of a statement: outside of a transaction it is committed. -/
def settle (inTx : Bool) : Prog billing Unit := Prog.runIf (!inTx) (.commit (.ret ()))

/-- A write of the client a request uses. -/
def write (inTx : Bool) (u : Update) : Prog billing Unit := do
  updateOne u
  settle inTx

/-- A `create`, which fails on a key that is taken. -/
def insertOne (u : Update) : Prog billing Unit := do
  let hit ← updateMany u
  Prog.throwIf (!hit) (.failure "Unique constraint failed")

/-- A `create` on the subscriptions: the tenant and the plan must exist. -/
def createSubscription (row : Subscription) : Prog billing Id := do
  let tenant : Option Tenant ← .query (.tenant row.tenantId) .ret
  let plan : Option Plan ← .query (.plan row.planId) .ret
  Prog.throwIf (tenant.isNone || plan.isNone) (.failure "Foreign key constraint failed")
  let id ← uuid
  insertOne (.insertSubscription id row)
  .ret id

def newSubscription (tenantId planId : Id) (expiresAt : Option Time) (createdAt : Time) :
    Subscription where
  tenantId := tenantId
  planId := planId
  requestedPlanId := none
  status := .active
  expiresAt := expiresAt
  createdAt := createdAt
  requestedPaymentReference := none
  billingProvider := .manual
  stripeCustomerId := none
  stripeSubscriptionId := none
  cancelAtPeriodEnd := false
  expiryNoticesSent := []

/-! ## Dates -/

def dayMs : Nat := 24 * 60 * 60 * 1000

/-- Days a paid plan keeps working after `expiresAt`. -/
def graceDays : Nat := 7

/-- `setMonth` of the date `months` later, in UTC: a day the month does not have
runs over into the next one. -/
def addMonths (months : Nat) (t : Time) : Time :=
  let date := Calendar.ofDay (t / dayMs : Nat)
  (Calendar.firstOf (date.index + months) + (date.day - 1)).toNat * dayMs + t % dayMs

def computeExpiry (duration : PlanDuration) (from_ : Time) : Option Time :=
  match duration with
  | .monthly => some (addMonths 1 from_)
  | .yearly => some (addMonths 12 from_)
  | .lifetime => none

def graceEndsAt (expiresAt : Option Time) : Option Time :=
  expiresAt.map fun t => t + graceDays * dayMs

/-- Past expiry and grace: only the free limits hold. -/
def isLapsed (current : Current) (time : Time) : Bool :=
  isPaidPlan current.plan &&
    (graceEndsAt current.subscription.expiresAt).any fun graceEnd => decide (graceEnd ≤ time)

/-- A card subscription Stripe will charge again on its own. -/
def Subscription.autoRenews (sub : Subscription) : Bool :=
  sub.billingProvider == .stripe && sub.stripeSubscriptionId.isSome && !sub.cancelAtPeriodEnd

/-- The reminder a subscription is due, if one is. -/
def dueExpiryNotice (current : Current) (time : Time) : Option ExpiryNotice :=
  if !isPaidPlan current.plan then none
  else
    match current.subscription.expiresAt with
    | none => none
    | some expiresAt =>
      if isLapsed current time then some .downgraded
      else if expiresAt ≤ time then some .d0
      else if current.subscription.autoRenews then none
      else if expiresAt - time ≤ dayMs then some .d1
      else if expiresAt - time ≤ 7 * dayMs then some .d7
      else none

/-! ## PlansService -/

structure PlanEntitlements where
  planId : Option Id
  planName : Option String
  maxStores : Int
  maxProducts : Int
  fulfillmentMethods : List FulfillmentMethod

def fallbackEntitlements : PlanEntitlements := ⟨none, none, 1, 20, [.whatsapp]⟩

/-- A limit of the override counts when it is at least -1. -/
def applyLimitsOverride (base : PlanEntitlements) (override : Option LimitsOverride) :
    PlanEntitlements :=
  match override with
  | none => base
  | some o =>
    { base with
      maxStores := (o.maxStores.filter fun n => decide (-1 ≤ n)).getD base.maxStores
      maxProducts := (o.maxProducts.filter fun n => decide (-1 ≤ n)).getD base.maxProducts
      fulfillmentMethods := (o.fulfillmentMethods.map List.eraseDups).getD base.fulfillmentMethods }

def currentSubscription (tenantId : Id) : Prog billing (Option Current) :=
  .query (.currentSubscription tenantId) .ret

def findFreePlan : Prog billing (Option Id) := .query .freePlan .ret

/-- The limits of the plan of a subscription, or the fallback without one. -/
def planEntitlements (subscription : Option Current) : PlanEntitlements :=
  match subscription with
  | some ⟨_, sub, some plan⟩ =>
    { planId := some sub.planId
      planName := some plan.name
      maxStores := plan.maxStores
      maxProducts := plan.maxProducts
      fulfillmentMethods := plan.fulfillmentMethods }
  | _ => fallbackEntitlements

def getEntitlements (tenantId : Id) : Prog billing PlanEntitlements := do
  let current ← currentSubscription tenantId
  let tenant : Option Tenant ← .query (.tenant tenantId) .ret
  let time ← now
  let subscription := current.filter fun c => !isLapsed c time
  .ret (applyLimitsOverride (planEntitlements subscription) (tenant.bind Tenant.limitsOverride))

/-- Unpublishes the newest live products over the limit of the plan, in a
transaction of its own, or within the one of its request. -/
def hideProductsOverLimit (inTx : Bool) (tenantId : Id) : Prog billing Nat := do
  let entitlements ← getEntitlements tenantId
  if entitlements.maxProducts == -1 then .ret 0
  else do
    -- a negative `skip` is refused
    Prog.throwIf (decide (entitlements.maxProducts < 0)) (.failure "Invalid value for skip argument")
    let live : List Id ← .query (.liveProducts tenantId) .ret
    let excess := live.drop entitlements.maxProducts.toNat
    Prog.each (fun id => do let _ ← updateMany (.unpublish id)) excess
    settle inTx
    .ret excess.length

def assertUnderNewProductLimit (tenantId : Id) (maxProducts : Int) : Prog billing Unit :=
  if maxProducts == -1 then .ret ()
  else do
    let currentCount : Nat ← .query (.productCount tenantId) .ret
    Prog.throwIf (decide (maxProducts < currentCount))
      (.conflict ("This store has " ++ toString currentCount ++ " products, over the " ++
        toString maxProducts ++ " allowed by this plan. " ++
        "Deactivate or delete products before switching."))

/-- The store's own switch, to free plans only. -/
def subscribe (tenantId planId : Id) : Prog billing Unit := do
  let found : Option Plan ← .query (.activePlan planId) .ret
  let plan ← Prog.orThrow found (.notFound "Plan not found")
  Prog.throwIf (decide (0 < plan.price))
    (.forbidden "Paid plans must be requested as an upgrade and approved by the platform")
  assertUnderNewProductLimit tenantId plan.maxProducts
  let current ← currentSubscription tenantId
  Prog.throwIf (current.any fun c => c.subscription.stripeSubscriptionId.isSome)
    (.conflict "Cancel the card subscription from the billing portal before switching to a free plan")
  let time ← now
  let expiresAt := computeExpiry plan.duration time
  let existing : Option Current ← .query (.openSubscription tenantId) .ret
  match existing with
  | some existing => updateOne (.switchFree existing.id planId expiresAt)
  | none => do let _ ← createSubscription (newSubscription tenantId planId expiresAt time)

/-- The row a request is attached to: stores from before registration started a free
subscription have none. -/
def subscriptionToUpgrade (tenantId : Id) (current : Option Current) : Prog billing Id :=
  match current with
  | some current => .ret current.id
  | none => do
    let freePlan ← findFreePlan
    let freePlanId ← Prog.orThrow freePlan (.badRequest "No subscription to upgrade from")
    let time ← now
    createSubscription (newSubscription tenantId freePlanId none time)

def requestUpgrade (tenantId planId : Id) (paymentReference : Option String) :
    Prog billing Unit := do
  let found : Option Plan ← .query (.activePlan planId) .ret
  let plan ← Prog.orThrow found (.notFound "Plan not found")
  Prog.throwIf (!isPaidPlan (some plan))
    (.badRequest "Free plans are switched to directly, without a request")
  let current ← currentSubscription tenantId
  Prog.throwIf (current.any fun c => c.subscription.stripeSubscriptionId.isSome)
    (.conflict "This store pays by card — change or renew the plan from the billing portal")
  let id ← subscriptionToUpgrade tenantId current
  updateOne (.requestUpgrade id planId paymentReference)

def findSubscription (id : Id) : Prog billing Current := do
  let found : Option Current ← .query (.subscription id) .ret
  Prog.orThrow found .recordNotFound

/-- A renewal of a plan that has not lapsed extends from the current expiry; anything
else starts a period today. -/
def approveUpgrade (inTx : Bool) (subscriptionId : Id) : Prog billing Unit := do
  let current ← findSubscription subscriptionId
  let subscription := current.subscription
  Prog.throwIf (subscription.status != .pendingUpgrade) (.badRequest "No pending upgrade request")
  let planId ← Prog.orThrow subscription.requestedPlanId (.badRequest "No pending upgrade request")
  let found : Option Plan ← .query (.plan planId) .ret
  let plan ← Prog.orThrow found .recordNotFound
  let time ← now
  let renewed := subscription.expiresAt.filter fun t =>
    subscription.planId == planId && decide (time < t) && !isLapsed current time
  write inTx (.approveUpgrade subscriptionId planId
    (computeExpiry plan.duration (renewed.getD time)))
  Prog.runIf (plan.maxProducts != -1) do
    let _ ← hideProductsOverLimit inTx subscription.tenantId

def rejectUpgrade (inTx : Bool) (subscriptionId : Id) : Prog billing Unit := do
  let current ← findSubscription subscriptionId
  Prog.throwIf (current.subscription.status != .pendingUpgrade)
    (.badRequest "No pending upgrade request")
  write inTx (.rejectUpgrade subscriptionId)

/-- `stripeSubscriptionId` is unique. -/
def assertBilledOnce (period : PaidPeriod) (id : Option Id) : Prog billing Unit :=
  match period.stripeSubscriptionId with
  | none => .ret ()
  | some stripeSubscriptionId => do
    let holders : List Id ← .query (.billedAs stripeSubscriptionId) .ret
    Prog.throwIf (holders.any fun holder => some holder != id) (.failure "Unique constraint failed")

/-- Records a paid period confirmed by a payment provider. The plan must exist. -/
def activatePlan (inTx : Bool) (tenantId planId : Id) (period : PaidPeriod) :
    Prog billing Unit := do
  let current ← currentSubscription tenantId
  assertBilledOnce period (current.map Current.id)
  match current with
  | some current => do
    let plan : Option Plan ← .query (.plan planId) .ret
    Prog.throwIf plan.isNone (.failure "Foreign key constraint failed")
    write inTx (.activatePlan current.id planId period)
  | none => do
    let time ← now
    let _ ← createSubscription { newSubscription tenantId planId period.expiresAt time with
      billingProvider := period.billingProvider
      stripeCustomerId := period.stripeCustomerId.getD none
      stripeSubscriptionId := period.stripeSubscriptionId
      cancelAtPeriodEnd := period.cancelAtPeriodEnd }
    settle inTx

/-! ## Opening a store -/

def register (email storeSlug : String) : Prog billing Unit := do
  let existing : Option Id ← .query (.userByEmail email) .ret
  Prog.throwIf existing.isSome (.conflict "Email already registered")
  let slugTaken : Option Id ← .query (.tenantBySlug storeSlug) .ret
  Prog.throwIf slugTaken.isSome (.conflict "Store slug already taken")
  let userId ← uuid
  insertOne (.insertUser userId { email })
  let tenantId ← uuid
  insertOne (.insertTenant tenantId { slug := storeSlug, ownerId := userId, limitsOverride := none })
  let defaultPlan : Option Id ← .query .cheapestPlan .ret
  match defaultPlan with
  | none => .ret ()
  | some planId => do
    let time ← now
    let _ ← createSubscription (newSubscription tenantId planId none time)
  settle false
  let issued : Bool ← .call (.issueTokens userId tenantId) .ret
  Prog.throwIf (!issued) (.failure "No tokens")

/-- The best store limit among the plans the owner holds. -/
def bestMaxStores (live : List Current) : Int :=
  let limits := live.filterMap fun c => c.plan.map Plan.maxStores
  if live.isEmpty then fallbackEntitlements.maxStores
  else if limits.contains (-1) then -1
  else limits.foldl max (limits.headD 0)

def createAdditional (userId : Id) (slug : String) : Prog billing Unit := do
  let owned : Nat ← .query (.ownedCount userId) .ret
  let subscriptions : List Current ← .query (.ownedSubscriptions userId) .ret
  let time ← now
  let maxStores := bestMaxStores (subscriptions.filter fun c => !isLapsed c time)
  Prog.throwIf (maxStores != -1 && decide (maxStores ≤ owned))
    (.forbidden "Store limit reached for your current plan")
  let slugTaken : Option Id ← .query (.tenantBySlug slug) .ret
  Prog.throwIf slugTaken.isSome (.conflict "Store slug already taken")
  let freePlan ← findFreePlan
  let tenantId ← uuid
  insertOne (.insertTenant tenantId { slug, ownerId := userId, limitsOverride := none })
  match freePlan with
  | none => .ret ()
  | some planId => do let _ ← createSubscription (newSubscription tenantId planId none time)

/-! ## The Stripe webhook -/

def planCheckoutKind : String := "plan_subscription"

structure CheckoutSession where
  kind : Option String
  tenantId : Option Id
  planId : Option Id
  paymentStatus : String
  mode : String
  subscription : Option Id
  customer : Option Id

inductive StripeEvent where
  | checkoutCompleted (session : CheckoutSession)
  | invoicePaid (subscription : Option Id)
  | subscriptionUpdated (subscription : StripeSubscription)
  | subscriptionDeleted (subscription : StripeSubscription)
  | other

def requireStripe : Prog billing Unit := do
  let enabled : Bool ← .call .cardBillingEnabled .ret
  Prog.throwIf (!enabled) (.unavailable "Card billing is not configured on this platform")

def planCurrency : String := "usd"

def adminPlansLink (baseUrl : String) : String := baseUrl ++ "/admin/plans"

/-- Stripe needs absolute return URLs. -/
def requirePlansLink : Prog billing String := do
  let baseUrl : Option String ← .call .publicWebUrl .ret
  let baseUrl ← Prog.orThrow (baseUrl.filter fun url => url != "")
    (.unavailable "PUBLIC_WEB_URL is not configured")
  .ret (adminPlansLink baseUrl)

/-- What Checkout is asked for: a recurring subscription, or a one-off payment for a
lifetime plan. -/
def checkoutParams (tenantId planId : Id) (plan : Plan) (customerId : Option Id)
    (email plansLink : String) : CheckoutParams :=
  let lifetime := plan.duration == .lifetime
  { mode := if lifetime then "payment" else "subscription"
    customer := customerId
    customerEmail := if customerId.isSome then none else some email
    customerCreation := if lifetime && customerId.isNone then some "always" else none
    clientReferenceId := tenantId
    quantity := 1
    currency := planCurrency
    unitAmount := plan.price
    productName := "Yorde What Store — " ++ plan.name
    recurringInterval :=
      if lifetime then none else some (if plan.duration == .yearly then "year" else "month")
    kind := planCheckoutKind
    tenantId
    planId
    successUrl := plansLink ++ "?billing=success"
    cancelUrl := plansLink ++ "?billing=cancelled" }

def createCheckout (tenantId planId : Id) : Prog billing (Option String) := do
  requireStripe
  let found : Option Plan ← .query (.activePlan planId) .ret
  let plan ← Prog.orThrow found (.notFound "Plan not found")
  Prog.throwIf (!isPaidPlan (some plan))
    (.badRequest "Free plans are switched to directly, without payment")
  assertUnderNewProductLimit tenantId plan.maxProducts
  let current ← currentSubscription tenantId
  Prog.throwIf (current.any fun c => c.subscription.stripeSubscriptionId.isSome &&
      c.subscription.planId == planId && !c.subscription.cancelAtPeriodEnd)
    (.conflict "This store is already paying for this plan by card")
  let owner : Option String ← .query (.ownerEmail tenantId) .ret
  let email ← Prog.orThrow owner .recordNotFound
  let plansLink ← requirePlansLink
  let customerId := current.bind fun c => c.subscription.stripeCustomerId
  let session : Option (Option String) ←
    .call (.createCheckoutSession (checkoutParams tenantId planId plan customerId email plansLink)) .ret
  Prog.orThrow session (.failure "Stripe is not available")

/-- Stripe's hosted portal: the card, the invoices, and the end of the subscription. -/
def createPortal (tenantId : Id) : Prog billing String := do
  requireStripe
  let current ← currentSubscription tenantId
  let customer ← Prog.orThrow (current.bind fun c => c.subscription.stripeCustomerId)
    (.badRequest "This store has no card billing set up")
  let plansLink ← requirePlansLink
  let session : Option String ← .call (.createPortalSession customer plansLink) .ret
  Prog.orThrow session (.failure "Stripe is not available")

/-- Never throws. -/
def cancelStripeSubscription (stripeSubscriptionId : Id) : Prog billing Unit :=
  .call (.cancel stripeSubscriptionId) .ret

def retrieve (subscriptionId : Id) : Prog billing StripeSubscription := do
  requireStripe
  let answer : Option StripeSubscription ← .call (.retrieve subscriptionId) .ret
  Prog.orThrow answer (.failure "Stripe is not available")

def StripeSubscription.paidUp (subscription : StripeSubscription) : Bool :=
  subscription.status == "active" || subscription.status == "trialing"

/-- The period that Stripe has charged. -/
def StripeSubscription.period (subscription : StripeSubscription) : PaidPeriod where
  expiresAt := some (subscription.currentPeriodEnd * 1000)
  billingProvider := .stripe
  stripeCustomerId := some subscription.customer
  stripeSubscriptionId := some subscription.id
  cancelAtPeriodEnd := subscription.cancelAtPeriodEnd
  provider_iff := by simp
  cancel_billed _ := rfl

def CheckoutSession.lifetime (session : CheckoutSession) : PaidPeriod where
  expiresAt := none
  billingProvider := .manual
  stripeCustomerId := session.customer.map some
  stripeSubscriptionId := none
  cancelAtPeriodEnd := false
  provider_iff := by simp
  cancel_billed := nofun

def applyStripeSubscription (inTx : Bool) (subscription : StripeSubscription)
    (fromCheckout : Bool) : Prog billing Unit :=
  match subscription.tenantId, subscription.planId with
  | some tenantId, some planId =>
    Prog.runIf (subscription.kind == some planCheckoutKind && subscription.paidUp) do
      let current ← currentSubscription tenantId
      let replacing := (current.bind fun c => c.subscription.stripeSubscriptionId).filter
        fun id => id != subscription.id
      -- only a completed checkout may replace the current subscription
      Prog.runIf (replacing.isNone || fromCheckout) do
        activatePlan inTx tenantId planId subscription.period
        match replacing with
        | none => .ret ()
        | some id => cancelStripeSubscription id
  | _, _ => .ret ()

def onCheckoutCompleted (inTx : Bool) (session : CheckoutSession) : Prog billing Unit :=
  if session.kind != some planCheckoutKind || session.paymentStatus == "unpaid" then .ret ()
  else if session.mode == "subscription" then
    match session.subscription with
    | none => .ret ()
    | some subscriptionId => do
      let subscription ← retrieve subscriptionId
      applyStripeSubscription inTx subscription true
  else
    match session.tenantId, session.planId with
    | some tenantId, some planId => do
      let current ← currentSubscription tenantId
      activatePlan inTx tenantId planId session.lifetime
      match current.bind fun c => c.subscription.stripeSubscriptionId with
      | none => .ret ()
      | some id => cancelStripeSubscription id
    | _, _ => .ret ()

def onInvoicePaid (inTx : Bool) (subscription : Option Id) : Prog billing Unit :=
  match subscription with
  | none => .ret ()
  | some subscriptionId => do
    let subscription ← retrieve subscriptionId
    applyStripeSubscription inTx subscription false

/-- An `updateMany` on the subscriptions that Stripe bills as `stripeSubscriptionId`. -/
def updateBilled (inTx : Bool) (stripeSubscriptionId : Id) (u : Id → Update) :
    Prog billing Unit := do
  let holders : List Id ← .query (.billedAs stripeSubscriptionId) .ret
  Prog.each (fun id => do let _ ← updateMany (u id)) holders
  settle inTx

def onSubscriptionUpdated (inTx : Bool) (subscription : StripeSubscription) :
    Prog billing Unit :=
  updateBilled inTx subscription.id fun id =>
    .mirrorCancel id subscription.id subscription.cancelAtPeriodEnd

def onSubscriptionDeleted (inTx : Bool) (subscription : StripeSubscription) :
    Prog billing Unit :=
  updateBilled inTx subscription.id fun id => .endBilling id subscription.id

/-- The event of a webhook; none when its signature is not valid. -/
def handleWebhook (inTx : Bool) (event : Option StripeEvent) : Prog billing Unit := do
  requireStripe
  let event ← Prog.orThrow event (.badRequest "Invalid webhook signature")
  match event with
  | .checkoutCompleted session => onCheckoutCompleted inTx session
  | .invoicePaid subscription => onInvoicePaid inTx subscription
  | .subscriptionUpdated subscription => onSubscriptionUpdated inTx subscription
  | .subscriptionDeleted subscription => onSubscriptionDeleted inTx subscription
  | .other => .ret ()

/-! ## The hourly sweep -/

/-- Moves the row to the free plan, or leaves a lapsed row when there is none. -/
def downgrade (current : Current) : Prog billing Unit := do
  match current.subscription.stripeSubscriptionId with
  | none => .ret ()
  | some id => cancelStripeSubscription id
  let freePlan ← findFreePlan
  write false (.downgrade current.id freePlan)
  let _ ← hideProductsOverLimit false current.subscription.tenantId
  .ret ()

def notify (current : Current) (notice : ExpiryNotice) : Prog billing Unit := do
  let queued : Bool ← .call (.enqueueNotice current.id notice) .ret
  Prog.throwIf (!queued) (.failure "The queue is not available")

def releaseNotice (subscriptionId : Id) (notice : ExpiryNotice) : Prog billing Unit := do
  let current : Option Current ← .query (.subscription subscriptionId) .ret
  match current with
  | none => .ret ()
  | some current =>
    write false (.setNotices subscriptionId
      (current.subscription.expiryNoticesSent.filter fun n => n != notice))

/-- Claims the notice before acting on it, and releases the claim when that fails. -/
def handleCandidate (current : Current) (time : Time) : Prog billing Unit :=
  match dueExpiryNotice current time with
  | none => .ret ()
  | some notice => do
    let claimed ← updateMany (.claimNotice current.id current.subscription.expiresAt notice)
    settle false
    Prog.runIf claimed do
      let acted ← Prog.attempt do
        Prog.runIf (notice == .downgraded) (downgrade current)
        notify current notice
      Prog.runIf acted.isNone do
        releaseNotice current.id notice
        .throw (.failure "Expiry check failed")

def run : Prog billing Unit := do
  let time ← now
  let candidates : List Current ← .query (.candidates (time + 7 * dayMs)) .ret
  Prog.each (fun current => do let _ ← Prog.attempt (handleCandidate current time)) candidates

/-! ## Products -/

namespace ProductsService

/-- What a product is created or updated with; only what makes it live is kept here. -/
structure ProductDto where
  isActive : Option Bool
  isPublished : Option Bool

/-- The lock serializes the creates of a store. -/
def assertUnderProductLimit (tenantId : Id) : Prog billing Unit := do
  .call (.advisoryLock tenantId) .ret
  let entitlements ← getEntitlements tenantId
  if entitlements.maxProducts == -1 then .ret ()
  else do
    let currentCount : Nat ← .query (.productCount tenantId) .ret
    Prog.throwIf (decide (entitlements.maxProducts ≤ currentCount))
      (.forbidden ("Product limit reached for your current plan (" ++
        toString entitlements.maxProducts ++ ")"))

def create (tenantId : Id) (dto : ProductDto) : Prog billing Unit := do
  assertUnderProductLimit tenantId
  let createdAt ← now
  let id ← uuid
  insertOne (.insertProduct id
    { tenantId, isActive := dto.isActive.getD true, isPublished := dto.isPublished.getD true, createdAt })

/-- Stops the products that a smaller plan has hidden from being switched back on. -/
def assertUnderLiveProductLimit (tenantId productId : Id) : Prog billing Unit := do
  .call (.advisoryLock tenantId) .ret
  let entitlements ← getEntitlements tenantId
  if entitlements.maxProducts == -1 then .ret ()
  else do
    let live : Nat ← .query (.otherLiveCount tenantId productId) .ret
    Prog.throwIf (decide (entitlements.maxProducts ≤ live))
      (.forbidden ("Your current plan allows " ++ toString entitlements.maxProducts ++
        " live products. Hide or delete another product first, or upgrade the plan."))

def findOne (tenantId id : Id) : Prog billing Product := do
  let product : Option Product ← .query (.product tenantId id) .ret
  Prog.orThrow product (.notFound "Product not found")

def update (tenantId id : Id) (dto : ProductDto) : Prog billing Unit := do
  let existing ← findOne tenantId id
  let wasLive := existing.isActive && existing.isPublished
  let willBeLive := dto.isActive.getD existing.isActive && dto.isPublished.getD existing.isPublished
  Prog.runIf (willBeLive && !wasLive) (assertUnderLiveProductLimit tenantId id)
  updateOne (.updateProduct id dto.isActive dto.isPublished)

def remove (tenantId id : Id) : Prog billing Unit := do
  let _ ← findOne tenantId id
  let files : Option (List String) ← .call (.filesForProductDeletion tenantId id) .ret
  let storedFiles ← Prog.orThrow files (.conflict ("This product has orders and cannot be deleted: " ++
    "its buyers would lose their downloads. Unpublish it instead."))
  updateOne (.deleteProduct id)
  .call (.removeStoredFiles storedFiles) .ret

end ProductsService

/-- A Super Admin's switch, for a product of any store. -/
def PlatformProductsService.moderate (id : Id) (isActive : Bool) : Prog billing Unit := do
  let existing : Option Product ← .query (.productById id) .ret
  Prog.throwIf existing.isNone (.notFound "Product not found")
  updateOne (.updateProduct id (some isActive) none)

/-! ## Requests -/

inductive Request where
  | register (email storeSlug : String)
  | createAdditional (userId : Id) (slug : String)
  | subscribe (tenantId planId : Id)
  | requestUpgrade (tenantId planId : Id) (paymentReference : Option String)
  | createCheckout (tenantId planId : Id)
  | createPortal (tenantId : Id)
  | approveUpgrade (inTx : Bool) (subscriptionId : Id)
  | rejectUpgrade (inTx : Bool) (subscriptionId : Id)
  | activatePlan (inTx : Bool) (tenantId planId : Id) (period : PaidPeriod)
  | stripeWebhook (inTx : Bool) (event : Option StripeEvent)
  | lifecycle
  | createProduct (tenantId : Id) (dto : ProductsService.ProductDto)
  | updateProduct (tenantId id : Id) (dto : ProductsService.ProductDto)
  | removeProduct (tenantId id : Id)
  | moderateProduct (id : Id) (isActive : Bool)

def handler : Request → Prog billing Unit
  | .register email storeSlug => register email storeSlug
  | .createAdditional userId slug => createAdditional userId slug
  | .subscribe tenantId planId => subscribe tenantId planId
  | .requestUpgrade tenantId planId paymentReference =>
      requestUpgrade tenantId planId paymentReference
  | .createCheckout tenantId planId => do let _ ← createCheckout tenantId planId
  | .createPortal tenantId => do let _ ← createPortal tenantId
  | .approveUpgrade inTx subscriptionId => approveUpgrade inTx subscriptionId
  | .rejectUpgrade inTx subscriptionId => rejectUpgrade inTx subscriptionId
  | .activatePlan inTx tenantId planId period => activatePlan inTx tenantId planId period
  | .stripeWebhook inTx event => handleWebhook inTx event
  | .lifecycle => run
  | .createProduct tenantId dto => ProductsService.create tenantId dto
  | .updateProduct tenantId id dto => ProductsService.update tenantId id dto
  | .removeProduct tenantId id => ProductsService.remove tenantId id
  | .moderateProduct id isActive => PlatformProductsService.moderate id isActive

end WhatStore.Billing
