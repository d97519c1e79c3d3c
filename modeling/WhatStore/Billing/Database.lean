import WhatStore.Shop.Rows
import WhatStore.ReadCommitted.Program
import Mathlib.Data.List.Sort

/-!
# The database of plans and subscriptions

The schema `billing` of the services that write subscriptions: the tables they
read and write, one query or update for each Prisma statement, and the calls to
Stripe, to the clock and to the mail queue.
-/

namespace WhatStore.Billing

open ReadCommitted

/-! ## Rows -/

inductive PlanDuration where
  | monthly | yearly | lifetime
  deriving DecidableEq

inductive SubscriptionStatus where
  | active | pendingUpgrade | expired | cancelled
  deriving DecidableEq

/-- `manual`: the store requests a renewal and the platform approves it. `stripe`:
Stripe charges the card every period. -/
inductive BillingProvider where
  | manual | stripe
  deriving DecidableEq

/-- Reminders, in the order a lapsing subscription reaches them. -/
inductive ExpiryNotice where
  | d7 | d1 | d0 | downgraded
  deriving DecidableEq

/-- A limit of -1 is no limit. -/
structure Plan where
  name : String
  price : Cents
  duration : PlanDuration
  maxStores : Int
  maxProducts : Int
  fulfillmentMethods : List FulfillmentMethod
  isActive : Bool
  createdAt : Time

structure Subscription where
  tenantId : Id
  planId : Id
  requestedPlanId : Option Id
  status : SubscriptionStatus
  expiresAt : Option Time
  createdAt : Time
  requestedPaymentReference : Option String
  billingProvider : BillingProvider
  stripeCustomerId : Option Id
  stripeSubscriptionId : Option Id
  cancelAtPeriodEnd : Bool
  expiryNoticesSent : List ExpiryNotice

/-- The keys of a tenant's `limitsOverride` that have the right type. -/
structure LimitsOverride where
  maxStores : Option Int
  maxProducts : Option Int
  fulfillmentMethods : Option (List FulfillmentMethod)

structure Tenant where
  slug : String
  ownerId : Id
  limitsOverride : Option LimitsOverride

structure User where
  email : String

structure Product where
  tenantId : Id
  isActive : Bool
  isPublished : Bool
  createdAt : Time

inductive Key where
  | user (id : Id)
  | tenant (id : Id)
  | plan (id : Id)
  | subscription (id : Id)
  | product (id : Id)
  deriving DecidableEq

@[reducible] def Row : Key → Type
  | .user _ => User
  | .tenant _ => Tenant
  | .plan _ => Plan
  | .subscription _ => Subscription
  | .product _ => Product

abbrev Database := Store Key Row

/-! ## Queries -/

/-- A subscription with its plan, which the foreign key keeps. -/
structure Current where
  id : Id
  subscription : Subscription
  plan : Option Plan

inductive Query where
  | userByEmail (email : String)
  | tenantBySlug (slug : String)
  | tenant (id : Id)
  | ownerEmail (tenantId : Id)
  | ownedCount (ownerId : Id)
  | ownedSubscriptions (ownerId : Id)
  | plan (id : Id)
  | activePlan (id : Id)
  | cheapestPlan
  | freePlan
  | currentSubscription (tenantId : Id)
  | openSubscription (tenantId : Id)
  | subscription (id : Id)
  | billedAs (stripeSubscriptionId : Id)
  | candidates (until_ : Time)
  | product (tenantId id : Id)
  | productById (id : Id)
  | productCount (tenantId : Id)
  | otherLiveCount (tenantId productId : Id)
  | liveProducts (tenantId : Id)

@[reducible] def Query.Result : Query → Type
  | .userByEmail _ => Option Id
  | .tenantBySlug _ => Option Id
  | .tenant _ => Option Tenant
  | .ownerEmail _ => Option String
  | .ownedCount _ => Nat
  | .ownedSubscriptions _ => List Current
  | .plan _ => Option Plan
  | .activePlan _ => Option Plan
  | .cheapestPlan => Option Id
  | .freePlan => Option Id
  | .currentSubscription _ => Option Current
  | .openSubscription _ => Option Current
  | .subscription _ => Option Current
  | .billedAs _ => List Id
  | .candidates _ => List Current
  | .product _ _ => Option Product
  | .productById _ => Option Product
  | .productCount _ => Nat
  | .otherLiveCount _ _ => Nat
  | .liveProducts _ => List Id

def findPlan (s : Database) (id : Id) : Option Plan := s.row (.plan id)

/-- The subscriptions that satisfy `p`, with their plans. -/
def subscriptionsWhere (s : Database) (p : Subscription → Bool) : List Current :=
  s.keys.filterMap fun
    | .subscription id => ((s.row (.subscription id)).filter p).map fun sub =>
        ⟨id, sub, findPlan s sub.planId⟩
    | _ => none

def plansWhere (s : Database) (p : Plan → Bool) : List (Id × Plan) :=
  s.keys.filterMap fun
    | .plan id => ((findPlan s id).filter p).map fun plan => (id, plan)
    | _ => none

def tenantsWhere (s : Database) (p : Tenant → Bool) : List Id :=
  s.keys.filterMap fun
    | .tenant id => ((s.row (.tenant id)).filter p).map fun _ => id
    | _ => none

def productsWhere (s : Database) (p : Product → Bool) : List (Id × Product) :=
  s.keys.filterMap fun
    | .product id => ((s.row (.product id)).filter p).map fun product => (id, product)
    | _ => none

/-- `orderBy: { createdAt: 'desc' }`. -/
def newestFirst (rows : List Current) : List Current :=
  rows.insertionSort fun a b => b.subscription.createdAt ≤ a.subscription.createdAt

def ownedBy (s : Database) (ownerId tenantId : Id) : Bool :=
  (s.row (.tenant tenantId)).any fun t : Tenant => t.ownerId == ownerId

/-- An active subscription, or one whose upgrade is pending. -/
def Subscription.isOpen (sub : Subscription) : Bool :=
  sub.status == .active || sub.status == .pendingUpgrade

def isPaidPlan (plan : Option Plan) : Bool := plan.any fun p : Plan => decide (0 < p.price)

def Query.eval : (q : Query) → Database → q.Result
  | .userByEmail email, s => s.keys.findSome? fun
      | .user id => ((s.row (.user id)).filter fun u : User => u.email == email).map fun _ => id
      | _ => none
  | .tenantBySlug slug, s => (tenantsWhere s fun t => t.slug == slug).head?
  | .tenant id, s => s.row (.tenant id)
  | .ownerEmail tenantId, s => (s.row (.tenant tenantId)).bind fun t : Tenant =>
      (s.row (.user t.ownerId)).map fun u : User => u.email
  | .ownedCount ownerId, s => (tenantsWhere s fun t => t.ownerId == ownerId).length
  | .ownedSubscriptions ownerId, s =>
      newestFirst (subscriptionsWhere s fun sub => ownedBy s ownerId sub.tenantId && sub.isOpen)
  | .plan id, s => findPlan s id
  | .activePlan id, s => (findPlan s id).filter Plan.isActive
  | .cheapestPlan, s =>
      ((plansWhere s Plan.isActive).insertionSort fun a b => a.2.price ≤ b.2.price).head?.map Prod.fst
  | .freePlan, s =>
      ((plansWhere s fun p => p.isActive && p.price == 0).insertionSort fun a b =>
        a.2.createdAt ≤ b.2.createdAt).head?.map Prod.fst
  | .currentSubscription tenantId, s =>
      (newestFirst (subscriptionsWhere s fun sub => sub.tenantId == tenantId)).head?
  | .openSubscription tenantId, s =>
      (newestFirst (subscriptionsWhere s fun sub => sub.tenantId == tenantId && sub.isOpen)).head?
  | .subscription id, s =>
      (s.row (.subscription id)).map fun sub : Subscription => ⟨id, sub, findPlan s sub.planId⟩
  | .billedAs stripeSubscriptionId, s =>
      (subscriptionsWhere s fun sub => sub.stripeSubscriptionId == some stripeSubscriptionId).map
        Current.id
  | .candidates until_, s =>
      subscriptionsWhere s fun sub => sub.isOpen && isPaidPlan (findPlan s sub.planId) &&
        sub.expiresAt.any fun t => decide (t ≤ until_)
  | .product tenantId id, s => (s.row (.product id)).filter fun p : Product => p.tenantId == tenantId
  | .productById id, s => s.row (.product id)
  | .productCount tenantId, s => (productsWhere s fun p => p.tenantId == tenantId).length
  | .otherLiveCount tenantId productId, s => ((productsWhere s fun p =>
      p.tenantId == tenantId && p.isActive && p.isPublished).filter fun p => p.1 != productId).length
  | .liveProducts tenantId, s =>
      ((productsWhere s fun p => p.tenantId == tenantId && p.isActive && p.isPublished).insertionSort
        fun a b => a.2.createdAt < b.2.createdAt ∨
          (a.2.createdAt = b.2.createdAt ∧ a.1 ≤ b.1)).map Prod.fst

/-! ## Updates -/

/-- A period that was paid for, and who bills the next one: Stripe for the
subscription it names, or nobody. -/
structure PaidPeriod where
  expiresAt : Option Time
  billingProvider : BillingProvider
  /-- The customer is left as it was when not given. -/
  stripeCustomerId : Option (Option Id)
  stripeSubscriptionId : Option Id
  cancelAtPeriodEnd : Bool
  provider_iff : billingProvider = .stripe ↔ stripeSubscriptionId.isSome
  cancel_billed : cancelAtPeriodEnd = true → stripeSubscriptionId.isSome

inductive Update where
  | insertUser (id : Id) (row : User)
  | insertTenant (id : Id) (row : Tenant)
  | insertSubscription (id : Id) (row : Subscription)
  | switchFree (id planId : Id) (expiresAt : Option Time)
  | requestUpgrade (id planId : Id) (paymentReference : Option String)
  | approveUpgrade (id planId : Id) (expiresAt : Option Time)
  | rejectUpgrade (id : Id)
  | activatePlan (id planId : Id) (period : PaidPeriod)
  | mirrorCancel (id stripeSubscriptionId : Id) (cancelAtPeriodEnd : Bool)
  | endBilling (id stripeSubscriptionId : Id)
  | claimNotice (id : Id) (expiresAt : Option Time) (notice : ExpiryNotice)
  | setNotices (id : Id) (notices : List ExpiryNotice)
  | downgrade (id : Id) (freePlan : Option Id)
  | unpublish (id : Id)
  | insertProduct (id : Id) (row : Product)
  | updateProduct (id : Id) (isActive isPublished : Option Bool)
  | deleteProduct (id : Id)

def Update.key : Update → Key
  | .insertUser id _ => .user id
  | .insertTenant id _ => .tenant id
  | .insertSubscription id _ => .subscription id
  | .switchFree id _ _ => .subscription id
  | .requestUpgrade id _ _ => .subscription id
  | .approveUpgrade id _ _ => .subscription id
  | .rejectUpgrade id => .subscription id
  | .activatePlan id _ _ => .subscription id
  | .mirrorCancel id _ _ => .subscription id
  | .endBilling id _ => .subscription id
  | .claimNotice id _ _ => .subscription id
  | .setNotices id _ => .subscription id
  | .downgrade id _ => .subscription id
  | .unpublish id => .product id
  | .insertProduct id _ => .product id
  | .updateProduct id _ _ => .product id
  | .deleteProduct id => .product id

def Update.guard : (u : Update) → Option (Row u.key) → Bool
  | .insertUser _ _, v => v.isNone
  | .insertTenant _ _, v => v.isNone
  | .insertSubscription _ _, v => v.isNone
  | .switchFree _ _ _, v => v.isSome
  | .requestUpgrade _ _ _, v => v.isSome
  | .approveUpgrade _ _ _, v => v.isSome
  | .rejectUpgrade _, v => v.isSome
  | .activatePlan _ _ _, v => v.isSome
  | .mirrorCancel _ stripeId _, v => v.any fun s : Subscription => s.stripeSubscriptionId == some stripeId
  | .endBilling _ stripeId, v => v.any fun s : Subscription => s.stripeSubscriptionId == some stripeId
  | .claimNotice _ expiresAt notice, v => v.any fun s : Subscription =>
      s.expiresAt == expiresAt && !s.expiryNoticesSent.contains notice
  | .setNotices _ _, v => v.isSome
  | .downgrade _ _, v => v.isSome
  | .unpublish _, v => v.isSome
  | .insertProduct _ _, v => v.isNone
  | .updateProduct _ _ _, v => v.isSome
  | .deleteProduct _, v => v.isSome

/-- `computeExpiry` starts the new period; a plan that moves starts with no
reminders sent. -/
def Update.change : (u : Update) → Option (Row u.key) → Option (Row u.key)
  | .insertUser _ row, _ => some row
  | .insertTenant _ row, _ => some row
  | .insertSubscription _ row, _ => some row
  | .switchFree _ planId expiresAt, v => v.map fun s : Subscription =>
      { s with planId, expiresAt, status := .active, requestedPlanId := none
               requestedPaymentReference := none, billingProvider := .manual
               expiryNoticesSent := [] }
  | .requestUpgrade _ planId paymentReference, v => v.map fun s : Subscription =>
      { s with requestedPlanId := some planId, requestedPaymentReference := paymentReference
               status := .pendingUpgrade }
  | .approveUpgrade _ planId expiresAt, v => v.map fun s : Subscription =>
      { s with planId, requestedPlanId := none, requestedPaymentReference := none
               status := .active, expiresAt, billingProvider := .manual, expiryNoticesSent := [] }
  | .rejectUpgrade _, v => v.map fun s : Subscription =>
      { s with status := .active, requestedPlanId := none, requestedPaymentReference := none }
  | .activatePlan _ planId period, v => v.map fun s : Subscription =>
      { s with planId, status := .active, requestedPlanId := none
               requestedPaymentReference := none, expiryNoticesSent := []
               expiresAt := period.expiresAt, billingProvider := period.billingProvider
               stripeCustomerId := period.stripeCustomerId.getD s.stripeCustomerId
               stripeSubscriptionId := period.stripeSubscriptionId
               cancelAtPeriodEnd := period.cancelAtPeriodEnd }
  | .mirrorCancel _ _ cancelAtPeriodEnd, v => v.map fun s : Subscription =>
      { s with cancelAtPeriodEnd }
  | .endBilling _ _, v => v.map fun s : Subscription =>
      { s with stripeSubscriptionId := none, billingProvider := .manual, cancelAtPeriodEnd := false }
  | .claimNotice _ _ notice, v => v.map fun s : Subscription =>
      { s with expiryNoticesSent := s.expiryNoticesSent ++ [notice] }
  | .setNotices _ notices, v => v.map fun s : Subscription => { s with expiryNoticesSent := notices }
  | .downgrade _ freePlan, v => v.map fun s : Subscription =>
      { s with planId := freePlan.getD s.planId
               expiresAt := if freePlan.isSome then none else s.expiresAt
               billingProvider := .manual, stripeSubscriptionId := none
               cancelAtPeriodEnd := false }
  | .unpublish _, v => v.map fun p : Product => { p with isPublished := false }
  | .insertProduct _ row, _ => some row
  | .updateProduct _ isActive isPublished, v => v.map fun p : Product =>
      { p with isActive := isActive.getD p.isActive, isPublished := isPublished.getD p.isPublished }
  | .deleteProduct _, _ => none

/-! ## Calls and errors -/

/-- A subscription as Stripe has it. Its metadata name a store and a plan when it
was made by a plan checkout. -/
structure StripeSubscription where
  id : Id
  kind : Option String
  tenantId : Option Id
  planId : Option Id
  status : String
  customer : Option Id
  currentPeriodEnd : Nat
  cancelAtPeriodEnd : Bool

/-- The session of a plan checkout. Its metadata are also those of the payment or the
subscription it makes. -/
structure CheckoutParams where
  mode : String
  customer : Option Id
  customerEmail : Option String
  customerCreation : Option String
  clientReferenceId : Id
  quantity : Nat
  currency : String
  unitAmount : Cents
  productName : String
  recurringInterval : Option String
  kind : String
  tenantId : Id
  planId : Id
  successUrl : String
  cancelUrl : String

/-- Calls that leave the database. Those to Stripe and the queue may fail; a checkout
session may have no address. -/
inductive Call where
  | now
  | uuid
  | cardBillingEnabled
  | publicWebUrl
  | createCheckoutSession (params : CheckoutParams)
  | createPortalSession (customer : Id) (returnUrl : String)
  | retrieve (stripeSubscriptionId : Id)
  | cancel (stripeSubscriptionId : Id)
  | enqueueNotice (subscriptionId : Id) (notice : ExpiryNotice)
  | issueTokens (userId tenantId : Id)
  /-- A lock until the end of the transaction; a request served alone never waits for it. -/
  | advisoryLock (tenantId : Id)
  /-- The files to remove with a product, or none when its orders keep it from being deleted. -/
  | filesForProductDeletion (tenantId productId : Id)
  | removeStoredFiles (keys : List String)

@[reducible] def Call.Answer : Call → Type
  | .now => Time
  | .uuid => Id
  | .cardBillingEnabled => Bool
  | .publicWebUrl => Option String
  | .createCheckoutSession _ => Option (Option String)
  | .createPortalSession _ _ => Option String
  | .retrieve _ => Option StripeSubscription
  | .cancel _ => Unit
  | .enqueueNotice _ _ => Bool
  | .issueTokens _ _ => Bool
  | .advisoryLock _ => Unit
  | .filesForProductDeletion _ _ => Option (List String)
  | .removeStoredFiles _ => Unit

inductive Err where
  | badRequest (message : String)
  | forbidden (message : String)
  | notFound (message : String)
  | conflict (message : String)
  | unavailable (message : String)
  /-- Prisma's error for an `update` or `findUniqueOrThrow` without a row. -/
  | recordNotFound
  /-- A constraint of the database, or a call outside of it, failed. -/
  | failure (message : String)

@[reducible] def billing : Schema where
  Key := Key
  Row := Row
  Query := Query
  Result := Query.Result
  eval := Query.eval
  Update := Update
  key := Update.key
  guard := Update.guard
  change := Update.change
  Call := Call
  Answer := Call.Answer
  Err := Err

end WhatStore.Billing
