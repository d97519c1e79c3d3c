import WhatStore.Auth.Guards
import WhatStore.Shop.Rows
import WhatStore.ReadCommitted.System
import Mathlib.Data.List.Sort

/-!
# The platform's administration of tenants

`PlatformTenantsService` as far as it moves a tenant through its life: a Super
Admin opens a store, suspends it, activates it again and deletes it. Each
statement commits by itself but for the two blocks that are transactions.
-/

namespace WhatStore.Platform

open ReadCommitted

/-! ## Rows -/

inductive TenantStatus where
  | pending | active | suspended | banned | trialExpired
  deriving DecidableEq

def TenantStatus.name : TenantStatus → String
  | .pending => "PENDING"
  | .active => "ACTIVE"
  | .suspended => "SUSPENDED"
  | .banned => "BANNED"
  | .trialExpired => "TRIAL_EXPIRED"

structure User where
  email : String
  name : String

structure Tenant where
  name : String
  slug : String
  ownerId : Id
  status : TenantStatus
  isActive : Bool
  deletedAt : Option Time

structure TenantMember where
  tenantId : Id
  userId : Id
  role : Auth.TenantMemberRole

structure Plan where
  price : Cents
  isActive : Bool

structure Subscription where
  tenantId : Id
  planId : Id

/-- A row of `TenantStatusHistory`. -/
structure StatusChange where
  tenantId : Id
  fromStatus : TenantStatus
  toStatus : TenantStatus
  reason : String
  changedById : Id
  ipAddress : Option String
  userAgent : Option String

inductive Key where
  | user (id : Id)
  | tenant (id : Id)
  | member (id : Id)
  | plan (id : Id)
  | subscription (id : Id)
  | statusChange (id : Id)
  deriving DecidableEq

@[reducible] def Row : Key → Type
  | .user _ => User
  | .tenant _ => Tenant
  | .member _ => TenantMember
  | .plan _ => Plan
  | .subscription _ => Subscription
  | .statusChange _ => StatusChange

abbrev Database := Store Key Row

/-! ## Statements -/

inductive Query where
  | userByEmail (email : String)
  | tenantBySlug (slug : String)
  | tenant (id : Id)
  | user (id : Id)
  | plan (id : Id)
  | cheapestPlan

@[reducible] def Query.Result : Query → Type
  | .userByEmail _ => Option Id
  | .tenantBySlug _ => Option Id
  | .tenant _ => Option Tenant
  | .user _ => Option User
  | .plan _ => Option Plan
  | .cheapestPlan => Option Id

def Query.eval : (q : Query) → Database → q.Result
  | .userByEmail email, s => s.keys.findSome? fun
      | .user id => ((s.row (.user id)).filter fun u : User => u.email == email).map fun _ => id
      | _ => none
  | .tenantBySlug slug, s => s.keys.findSome? fun
      | .tenant id => ((s.row (.tenant id)).filter fun t : Tenant => t.slug == slug).map fun _ => id
      | _ => none
  | .tenant id, s => s.row (.tenant id)
  | .user id, s => s.row (.user id)
  | .plan id, s => s.row (.plan id)
  | .cheapestPlan, s =>
      let plans : List (Id × Plan) := s.keys.filterMap fun
        | .plan id => ((s.row (.plan id)).filter Plan.isActive).map fun plan => (id, plan)
        | _ => none
      (plans.insertionSort fun a b => a.2.price ≤ b.2.price).head?.map Prod.fst

inductive Update where
  | insertUser (id : Id) (row : User)
  | insertTenant (id : Id) (row : Tenant)
  | insertMember (id : Id) (row : TenantMember)
  | insertSubscription (id : Id) (row : Subscription)
  | setStatus (id : Id) (toStatus : TenantStatus)
  | markDeleted (id : Id) (deletedAt : Time)
  | insertStatusChange (id : Id) (row : StatusChange)

def Update.key : Update → Key
  | .insertUser id _ => .user id
  | .insertTenant id _ => .tenant id
  | .insertMember id _ => .member id
  | .insertSubscription id _ => .subscription id
  | .setStatus id _ => .tenant id
  | .markDeleted id _ => .tenant id
  | .insertStatusChange id _ => .statusChange id

def Update.guard : (u : Update) → Option (Row u.key) → Bool
  | .insertUser _ _, v => v.isNone
  | .insertTenant _ _, v => v.isNone
  | .insertMember _ _, v => v.isNone
  | .insertSubscription _ _, v => v.isNone
  | .setStatus _ _, v => v.isSome
  | .markDeleted _ _, v => v.isSome
  | .insertStatusChange _ _, v => v.isNone

def Update.change : (u : Update) → Option (Row u.key) → Option (Row u.key)
  | .insertUser _ row, _ => some row
  | .insertTenant _ row, _ => some row
  | .insertMember _ row, _ => some row
  | .insertSubscription _ row, _ => some row
  | .setStatus _ toStatus, v => v.map fun t : Tenant =>
      { t with status := toStatus, isActive := toStatus == .active }
  | .markDeleted _ deletedAt, v => v.map fun t : Tenant =>
      { t with deletedAt := some deletedAt, isActive := false }
  | .insertStatusChange _ row, _ => some row

inductive Call where
  | now
  | uuid

@[reducible] def Call.Answer : Call → Type
  | .now => Time
  | .uuid => Id

inductive Err where
  | badRequest (message : String)
  | notFound (message : String)
  | conflict (message : String)
  /-- Prisma's error for an `update` without a row. -/
  | recordNotFound
  /-- A constraint of the database failed. -/
  | failure (message : String)

@[reducible] def platform : Schema where
  Key := Key
  Row := Row
  Query := Query
  Result := Query.Result
  eval := Query.eval
  Update := Update
  key := Update.key
  guard := Update.guard
  change := Update.change
  Call := Call
  Answer := Call.Answer
  Err := Err

abbrev Ev := Event platform

/-! ## PlatformTenantsService -/

def uuid : Prog platform Id := .call .uuid .ret

/-- A `create`, which fails on a key that is taken. -/
def insertOne (u : Update) : Prog platform Unit := do
  let hit ← Prog.update u .ret
  Prog.throwIf (!hit) (.failure "Unique constraint failed")

/-- An `update` by primary key, which fails without its row. -/
def updateOne (u : Update) : Prog platform Unit := do
  let hit ← Prog.update u .ret
  Prog.throwIf (!hit) .recordNotFound

namespace PlatformTenantsService

structure CreateTenantAdminDto where
  name : String
  slug : String
  ownerEmail : String
  ownerName : String
  planId : Option Id
  status : Option TenantStatus

structure RequestContext where
  ip : Option String
  userAgent : Option String

def findActiveOrThrow (id : Id) : Prog platform Tenant := do
  let tenant : Option Tenant ← .query (.tenant id) .ret
  Prog.orThrow (tenant.filter fun t => t.deletedAt.isNone) (.notFound "Tenant not found")

def getDefaultPlanId : Prog platform Id := do
  let cheapestPlan : Option Id ← .query .cheapestPlan .ret
  Prog.orThrow cheapestPlan (.badRequest "No active plan is configured")

/-- The plan of a new store: the one that was asked for, or the cheapest. -/
def planFor (planId : Option Id) : Prog platform Id :=
  match planId with
  | some planId => .ret planId
  | none => getDefaultPlanId

def create (dto : CreateTenantAdminDto) : Prog platform Unit := do
  let emailTaken : Option Id ← .query (.userByEmail dto.ownerEmail) .ret
  Prog.throwIf emailTaken.isSome (.conflict "Email already registered")
  let slugTaken : Option Id ← .query (.tenantBySlug dto.slug) .ret
  Prog.throwIf slugTaken.isSome (.conflict "Store slug already taken")
  let planId ← planFor dto.planId
  let status := dto.status.getD .active
  let ownerId ← uuid
  insertOne (.insertUser ownerId ⟨dto.ownerEmail, dto.ownerName⟩)
  let id ← uuid
  insertOne (.insertTenant id
    { name := dto.name, slug := dto.slug, ownerId, status, isActive := status == .active
      deletedAt := none })
  let memberId ← uuid
  insertOne (.insertMember memberId ⟨id, ownerId, .owner⟩)
  let plan : Option Plan ← .query (.plan planId) .ret
  Prog.throwIf plan.isNone (.failure "Foreign key constraint failed")
  let subscriptionId ← uuid
  insertOne (.insertSubscription subscriptionId ⟨id, planId⟩)
  .commit (.ret ())

/-- The tenant stays with its status and is no longer reachable. -/
def softDelete (id : Id) : Prog platform Unit := do
  let _ ← findActiveOrThrow id
  let deletedAt : Time ← .call .now .ret
  updateOne (.markDeleted id deletedAt)
  .commit (.ret ())

def changeStatus (id : Id) (toStatus : TenantStatus) (reason : String) (actorId : Id)
    (ctx : RequestContext) : Prog platform Unit := do
  let tenant ← findActiveOrThrow id
  Prog.throwIf (tenant.status == toStatus) (.badRequest s!"Tenant is already {toStatus.name}")
  updateOne (.setStatus id toStatus)
  let changedBy : Option User ← .query (.user actorId) .ret
  Prog.throwIf changedBy.isNone (.failure "Foreign key constraint failed")
  let changeId ← uuid
  insertOne (.insertStatusChange changeId
    { tenantId := id, fromStatus := tenant.status, toStatus, reason, changedById := actorId
      ipAddress := ctx.ip, userAgent := ctx.userAgent })
  .commit (.ret ())

def suspend (id : Id) (reason : String) (actorId : Id) (ctx : RequestContext) :
    Prog platform Unit := changeStatus id .suspended reason actorId ctx

def activate (id : Id) (reason : String) (actorId : Id) (ctx : RequestContext) :
    Prog platform Unit := changeStatus id .active reason actorId ctx

end PlatformTenantsService

inductive Request where
  | create (dto : PlatformTenantsService.CreateTenantAdminDto)
  | suspend (id : Id) (reason : String) (actorId : Id) (ctx : PlatformTenantsService.RequestContext)
  | activate (id : Id) (reason : String) (actorId : Id) (ctx : PlatformTenantsService.RequestContext)
  | softDelete (id : Id)

def handler : Request → Prog platform Unit
  | .create dto => PlatformTenantsService.create dto
  | .suspend id reason actorId ctx => PlatformTenantsService.suspend id reason actorId ctx
  | .activate id reason actorId ctx => PlatformTenantsService.activate id reason actorId ctx
  | .softDelete id => PlatformTenantsService.softDelete id

end WhatStore.Platform
