import WhatStore.RowSecurity.Pool
import Mathlib.Data.List.Basic

/-!
# The tables, their policies and their constraints

The tables of `schema.prisma`, which of them the migrations put under row security
and with which policy, their foreign keys and unique indexes, and the two settings
that `PrismaService` and `TenantScopeInterceptor` set for a transaction:
`app.tenant_id` for the tenant of a request or a job, `app.bypass_rls` for the work of
the platform.
-/

namespace WhatStore.RowPolicies

open RowSecurity

/-- The text that Postgres writes a uuid with. -/
def isUuidText (text : String) : Bool :=
  (text.toList.splitOn '-').map List.length == [8, 4, 4, 4, 12] &&
    text.toList.all fun c => c == '-' || ('0' ≤ c && c ≤ '9') || ('a' ≤ c && c ≤ 'f')

structure Uuid where
  text : String
  canonical : isUuidText text = true
  deriving DecidableEq

theorem isUuidText_empty : isUuidText "" = false := by
  simp [isUuidText]

theorem Uuid.text_ne_empty (u : Uuid) : u.text ≠ "" := by
  intro h
  have hcanonical := u.canonical
  rw [h, isUuidText_empty] at hcanonical
  cases hcanonical

/-- The cast of a text to a uuid; what is cast is the text of a uuid or the empty
text. -/
def Uuid.cast (text : String) : Option Uuid :=
  if h : isUuidText text = true then some ⟨text, h⟩ else none

@[simp] theorem Uuid.cast_text (u : Uuid) : cast u.text = some u := by
  simp [cast, u.canonical]

@[simp] theorem Uuid.cast_empty : cast "" = none := by
  simp [cast, isUuidText_empty]

/-- The models of `schema.prisma`. -/
inductive Table where
  | users | refreshTokens | mobileRefreshTokens | deviceTokens | passwordResetTokens
  | tenantMembers | customers | customerRefreshTokens | mobileCustomerRefreshTokens
  | customerPasswordResetTokens | tenants | tenantNotes | tenantStatusHistory
  | tenantImpersonationLogs | auditLogs | platformSettings | tenantPaymentSettings | visits
  | emailTemplates | productCategories | categoryTemplates | productTaxes | products
  | productCategoryAssignments | productTaxAssignments | productVariants | productImages
  | locations | shippings | coupons | orders | orderItems | plans | subscriptions
  | digitalAssets | digitalDeliveries | downloadGrants | productPriceSchedules
  deriving DecidableEq

inductive Protection where
  /-- by the column `tenant_id` -/
  | column
  /-- by the column `tenant_id`, with rows of the platform that everyone sees -/
  | template
  /-- by the tenant of the customer of the row -/
  | customer
  deriving DecidableEq

def Table.protection : Table → Option Protection
  | .customers | .productCategories | .productTaxes | .products | .productCategoryAssignments
  | .productTaxAssignments | .productVariants | .productImages | .locations | .shippings
  | .coupons | .orders | .orderItems | .tenantPaymentSettings | .visits
  | .mobileCustomerRefreshTokens | .digitalAssets | .digitalDeliveries | .downloadGrants
  | .productPriceSchedules => some .column
  | .emailTemplates => some .template
  | .customerRefreshTokens | .customerPasswordResetTokens => some .customer
  | .users | .refreshTokens | .mobileRefreshTokens | .deviceTokens | .passwordResetTokens
  | .tenantMembers | .tenants | .tenantNotes | .tenantStatusHistory | .tenantImpersonationLogs
  | .auditLogs | .platformSettings | .categoryTemplates | .plans | .subscriptions => none

inductive Column where
  | userId | tenantId | ownerId | productId | categoryId | taxId | locationId | customerId
  | couponId | shippingId | orderId | variantId | planId | templateId | parentId | authorId
  | changedById | adminId | deliveryId | assetId
  deriving DecidableEq

inductive TextColumn where
  | email | slug | subdomain | customDomain | provider | key | locale | code | orderNumber
  | deviceId | stripeSubscriptionId | paypalOrderId | paypalCaptureId | tokenHash | effectiveFrom
  deriving DecidableEq

/-- A row: the columns the policies and the constraints read, and the others. -/
structure Row (V : Type) where
  column : Column → Option Uuid
  text : TextColumn → Option String
  values : V

def Row.tenantId {V : Type} (row : Row V) : Option Uuid := row.column .tenantId

def Row.customerId {V : Type} (row : Row V) : Option Uuid := row.column .customerId

/-! ## Constraints -/

/-- A foreign key of the migrations: a column of `child` has the id of a row of `parent`. -/
structure Reference where
  child : Table
  column : Column
  parent : Table
  onDelete : OnDelete

/-- The foreign keys of the migrations, in their order. -/
def references : List Reference :=
  [⟨.refreshTokens, .userId, .users, .cascade⟩,
    ⟨.passwordResetTokens, .userId, .users, .cascade⟩,
    ⟨.tenantMembers, .tenantId, .tenants, .cascade⟩,
    ⟨.tenantMembers, .userId, .users, .cascade⟩,
    ⟨.customers, .tenantId, .tenants, .cascade⟩,
    ⟨.tenants, .ownerId, .users, .restrict⟩,
    ⟨.tenantPaymentSettings, .tenantId, .tenants, .cascade⟩,
    ⟨.visits, .tenantId, .tenants, .cascade⟩,
    ⟨.emailTemplates, .tenantId, .tenants, .cascade⟩,
    ⟨.productCategories, .tenantId, .tenants, .cascade⟩,
    ⟨.productTaxes, .tenantId, .tenants, .cascade⟩,
    ⟨.products, .tenantId, .tenants, .cascade⟩,
    ⟨.productCategoryAssignments, .productId, .products, .cascade⟩,
    ⟨.productCategoryAssignments, .categoryId, .productCategories, .cascade⟩,
    ⟨.productTaxAssignments, .productId, .products, .cascade⟩,
    ⟨.productTaxAssignments, .taxId, .productTaxes, .cascade⟩,
    ⟨.productVariants, .productId, .products, .cascade⟩,
    ⟨.productVariants, .locationId, .locations, .setNull⟩,
    ⟨.productImages, .productId, .products, .cascade⟩,
    ⟨.locations, .tenantId, .tenants, .cascade⟩,
    ⟨.shippings, .tenantId, .tenants, .cascade⟩,
    ⟨.shippings, .locationId, .locations, .setNull⟩,
    ⟨.coupons, .tenantId, .tenants, .cascade⟩,
    ⟨.orders, .tenantId, .tenants, .cascade⟩,
    ⟨.orders, .customerId, .customers, .setNull⟩,
    ⟨.orders, .couponId, .coupons, .setNull⟩,
    ⟨.orders, .shippingId, .shippings, .setNull⟩,
    ⟨.orderItems, .orderId, .orders, .cascade⟩,
    ⟨.orderItems, .productId, .products, .setNull⟩,
    ⟨.orderItems, .variantId, .productVariants, .setNull⟩,
    ⟨.subscriptions, .tenantId, .tenants, .cascade⟩,
    ⟨.subscriptions, .planId, .plans, .restrict⟩,
    ⟨.customerRefreshTokens, .customerId, .customers, .cascade⟩,
    ⟨.customerPasswordResetTokens, .customerId, .customers, .cascade⟩,
    ⟨.productCategories, .templateId, .categoryTemplates, .setNull⟩,
    ⟨.categoryTemplates, .parentId, .categoryTemplates, .setNull⟩,
    ⟨.tenantNotes, .tenantId, .tenants, .cascade⟩,
    ⟨.tenantNotes, .authorId, .users, .restrict⟩,
    ⟨.tenantStatusHistory, .tenantId, .tenants, .cascade⟩,
    ⟨.tenantStatusHistory, .changedById, .users, .restrict⟩,
    ⟨.tenantImpersonationLogs, .tenantId, .tenants, .cascade⟩,
    ⟨.tenantImpersonationLogs, .adminId, .users, .restrict⟩,
    ⟨.mobileRefreshTokens, .userId, .users, .cascade⟩,
    ⟨.mobileCustomerRefreshTokens, .customerId, .customers, .cascade⟩,
    ⟨.deviceTokens, .userId, .users, .cascade⟩,
    ⟨.digitalAssets, .productId, .products, .cascade⟩,
    ⟨.digitalDeliveries, .orderId, .orders, .cascade⟩,
    ⟨.downloadGrants, .deliveryId, .digitalDeliveries, .cascade⟩,
    ⟨.downloadGrants, .assetId, .digitalAssets, .cascade⟩,
    ⟨.productPriceSchedules, .productId, .products, .cascade⟩]

def Reference.foreignKey (V : Type) (r : Reference) : ForeignKey Table (List Uuid) (Row V) where
  child := r.child
  parent := r.parent
  target row := (row.column r.column).map fun id => [id]
  unlink row := { row with column := Function.update row.column r.column none }
  onDelete := r.onDelete

structure UniqueIndex where
  table : Table
  columns : List Column
  texts : List TextColumn

/-- The unique indexes of the migrations, in their order; that of a primary key is the
id of a row. -/
def uniqueIndexes : List UniqueIndex :=
  [⟨.users, [], [.email]⟩,
    ⟨.tenantMembers, [.tenantId, .userId], []⟩,
    ⟨.customers, [.tenantId], [.email]⟩,
    ⟨.tenants, [], [.slug]⟩,
    ⟨.tenants, [], [.subdomain]⟩,
    ⟨.tenants, [], [.customDomain]⟩,
    ⟨.tenantPaymentSettings, [.tenantId], [.provider]⟩,
    ⟨.emailTemplates, [.tenantId], [.key, .locale]⟩,
    ⟨.coupons, [.tenantId], [.code]⟩,
    ⟨.orders, [.tenantId], [.orderNumber]⟩,
    ⟨.categoryTemplates, [], [.slug]⟩,
    ⟨.deviceTokens, [.userId], [.deviceId]⟩,
    ⟨.subscriptions, [], [.stripeSubscriptionId]⟩,
    ⟨.orders, [], [.paypalOrderId]⟩,
    ⟨.orders, [], [.paypalCaptureId]⟩,
    ⟨.digitalDeliveries, [.orderId], []⟩,
    ⟨.downloadGrants, [], [.tokenHash]⟩,
    ⟨.productPriceSchedules, [.productId], [.effectiveFrom]⟩]

/-- The index has the same entry for both rows; `NULL` is never the same. -/
def UniqueIndex.clash {V : Type} (index : UniqueIndex) (row row' : Row V) : Bool :=
  (index.columns.all fun c => (row.column c).isSome && row.column c == row'.column c) &&
    index.texts.all fun c => (row.text c).isSome && row.text c == row'.text c

def constraints (V : Type) : Constraints Table (List Uuid) (Row V) where
  keys := references.map (Reference.foreignKey V)
  clash table row row' := uniqueIndexes.any fun index =>
    index.table == table && index.clash row row'

/-! ## Scopes -/

inductive Setting where
  | tenantId | bypassRls
  deriving DecidableEq

/-- What a transaction of `PrismaService` is opened for. -/
inductive Scope where
  | tenant (t : Uuid)
  | bypass
  deriving DecidableEq

/-- What the transaction sets first. -/
def Scope.setting : Scope → Setting × String
  | .tenant t => (.tenantId, t.text)
  | .bypass => (.bypassRls, "on")

/-- The rows of a database. A row is found by its primary key. -/
abbrev Database (V : Type) := Rows Table (List Uuid) (Row V)

section Policies

variable {V : Type}

/-- A row together with the tables a policy looks up. -/
abbrev Context (V : Type) := Database V × Row V

/-- `tenant_id = nullif(current_setting('app.tenant_id', true), '')::uuid` -/
def ofTenant : Condition Setting (Context V) Uuid :=
  .isCast (fun x => x.2.tenantId) (.nullif (.setting .tenantId) "")

/-- `current_setting('app.bypass_rls', true) = 'on'` -/
def bypassed : Condition Setting (Context V) Uuid := .isText (.setting .bypassRls) "on"

def customerOf (x : Context V) : List (Context V) :=
  ((x.2.customerId.bind fun id => x.1 .customers [id]).map fun row => (x.1, row)).toList

/-- `EXISTS (SELECT 1 FROM "customers" c WHERE c.id = customer_id AND c.tenant_id =
current_setting('app.tenant_id', true)::uuid)`; the customers are under row security
themselves. -/
def ofCustomerOfTenant : Condition Setting (Context V) Uuid :=
  .anyOf customerOf ((ofTenant.or bypassed).and
    (.isCast (fun x => x.2.tenantId) (.setting .tenantId)))

/-- The policy `tenant_isolation` of a table. -/
def tenantIsolation : Protection → Policy Setting (Context V) Uuid
  | .column => ⟨ofTenant.or bypassed, ofTenant.or bypassed⟩
  | .template => ⟨((Condition.isNull fun x => x.2.tenantId).or ofTenant).or bypassed,
      ofTenant.or bypassed⟩
  | .customer => ⟨bypassed.or ofCustomerOfTenant, bypassed.or ofCustomerOfTenant⟩

def schema (V : Type) : Schema Setting Uuid Table (List Uuid) (Row V) Scope where
  cast := Uuid.cast
  policy t := t.protection.map tenantIsolation
  constraints := RowPolicies.constraints V
  setting := Scope.setting

variable {served : List Scope} {t u : Uuid} {rows : Database V} {row : Row V}

/-! ## What the settings say -/

theorem readings_tenant : (schema V).readings (some (.tenant t)) served .tenantId = some t.text :=
  reading_self

theorem readings_bypass : (schema V).readings (some .bypass) served .bypassRls = some "on" :=
  reading_self

/-- The setting `app.tenant_id` is known once a tenant has been served. -/
def servedTenant (served : List Scope) : Bool := served.any fun σ => σ.setting.1 == .tenantId

/-- Outside of the tenants' transactions `app.tenant_id` is empty or unknown. -/
theorem readings_tenantId {scope : Option Scope} (h : ∀ t, scope ≠ some (.tenant t)) :
    (schema V).readings scope served .tenantId =
      if servedTenant served then some "" else none := by
  cases scope with
  | none => exact reading_none
  | some σ =>
      cases σ with
      | tenant t => exact absurd rfl (h t)
      | bypass => exact (reading_other (by simp)).trans reading_none

theorem readings_bypassRls {scope : Option Scope} (h : scope ≠ some .bypass) :
    (schema V).readings scope served .bypassRls ≠ some "on" := by
  have hnone : reading none ((schema V).known served) Setting.bypassRls ≠ some "on" := by
    rw [reading_none]
    split <;> simp
  cases scope with
  | none => exact hnone
  | some σ =>
      cases σ with
      | tenant t => exact fun heq => hnone ((reading_other (by simp)).symm.trans heq)
      | bypass => exact absurd rfl h

/-! ## What the policies let through -/

theorem holds_ofTenant {f : Setting → Option String} : ofTenant.holds Uuid.cast f (rows, row) = true ↔
    ∃ u, row.tenantId = some u ∧ ((f .tenantId).filter (· != "")).bind Uuid.cast = some u :=
  Condition.holds_isCast

theorem holds_ofTenant_tenant :
    ofTenant.holds Uuid.cast ((schema V).readings (some (.tenant t)) served) (rows, row) = true ↔
      row.tenantId = some t := by
  rw [holds_ofTenant, readings_tenant]
  simp [Option.filter, t.text_ne_empty]

theorem holds_ofTenant_other {scope : Option Scope} (h : ∀ t, scope ≠ some (.tenant t)) :
    ofTenant.holds Uuid.cast ((schema V).readings scope served) (rows, row) = false := by
  rw [← Bool.not_eq_true, holds_ofTenant, readings_tenantId h]
  split <;> simp [Option.filter]

theorem holds_bypassed : bypassed.holds Uuid.cast ((schema V).readings (some .bypass) served)
    (rows, row) = true :=
  Condition.holds_isText.2 readings_bypass

theorem holds_bypassed_other {scope : Option Scope} (h : scope ≠ some .bypass) :
    bypassed.holds Uuid.cast ((schema V).readings scope served) (rows, row) = false := by
  rw [← Bool.not_eq_true, bypassed, Condition.holds_isText]
  exact readings_bypassRls h

def Row.customerOf (t : Uuid) (rows : Database V) (row : Row V) : Bool :=
  (row.customerId.bind fun id => rows .customers [id]).any fun c => c.tenantId == some t

theorem holds_ofCustomer_tenant :
    ofCustomerOfTenant.holds Uuid.cast ((schema V).readings (some (.tenant t)) served)
      (rows, row) = row.customerOf t rows := by
  rw [Bool.eq_iff_iff, ofCustomerOfTenant, Condition.holds_anyOf, Row.customerOf]
  cases hc : row.customerId.bind fun id => rows .customers [id] with
  | none => simp [customerOf, hc]
  | some c =>
      simp only [customerOf, hc, Option.map_some, Option.toList_some, List.mem_singleton,
        exists_eq_left, Condition.holds_and, Condition.holds_or, holds_ofTenant_tenant,
        Option.any_some, beq_iff_eq]
      refine ⟨fun h => ?_, fun h => ⟨.inl h, ?_⟩⟩
      · obtain ⟨u, hu, hcast⟩ := Condition.holds_isCast.1 h.2
        rw [Text.value, readings_tenant, Option.bind_some, Uuid.cast_text] at hcast
        exact hu.trans hcast.symm
      · refine Condition.holds_isCast.2 ⟨t, h, ?_⟩
        rw [Text.value, readings_tenant, Option.bind_some, Uuid.cast_text]

theorem holds_ofCustomer_none :
    ofCustomerOfTenant.holds Uuid.cast ((schema V).readings none served) (rows, row) = false := by
  rw [← Bool.not_eq_true, ofCustomerOfTenant, Condition.holds_anyOf]
  rintro ⟨y, -, hy⟩
  rw [Condition.holds_and, Condition.holds_or, holds_ofTenant_other (by simp),
    holds_bypassed_other (by simp)] at hy
  simp at hy

def Row.belongsTo (t : Uuid) (rows : Database V) (table : Table) (row : Row V) : Bool :=
  match table.protection with
  | none => false
  | some .column => row.tenantId == some t
  | some .template => row.tenantId == some t
  | some .customer => row.customerOf t rows

/-- A row that no tenant owns and everyone sees: of a table without row security, or
a template of the platform. -/
def Row.isShared (table : Table) (row : Row V) : Bool :=
  match table.protection with
  | none => true
  | some .template => row.tenantId == none
  | _ => false

variable {table : Table} {f : Setting → Option String}

theorem sees_eq : (schema V).sees f rows table row = table.protection.all fun kind =>
    (tenantIsolation kind).sees.holds Uuid.cast f (rows, row) := by
  rw [Schema.sees, schema, Option.all_map]

theorem writes_eq : (schema V).writes f rows table row = table.protection.all fun kind =>
    (tenantIsolation kind).writes.holds Uuid.cast f (rows, row) := by
  rw [Schema.writes, schema, Option.all_map]

theorem not_bypassed {scope : Option Scope} (h : scope ≠ some .bypass) :
    ¬ bypassed.holds Uuid.cast ((schema V).readings scope served) (rows, row) = true := by
  simp [holds_bypassed_other h]

theorem sees_tenant :
    (schema V).sees ((schema V).readings (some (.tenant t)) served) rows table row =
      (row.belongsTo t rows table || row.isShared table) := by
  rw [Bool.eq_iff_iff, sees_eq, Row.belongsTo, Row.isShared]
  have hno : ¬ bypassed.holds Uuid.cast ((schema V).readings (some (.tenant t)) served) (rows, row) = true :=
    not_bypassed (by simp)
  cases table.protection with
  | none => simp
  | some kind =>
      cases kind with
      | column => simp [tenantIsolation, Condition.holds_or, hno, holds_ofTenant_tenant]
      | template => simp [tenantIsolation, Condition.holds_or, hno, holds_ofTenant_tenant,
          Condition.holds_isNull, or_comm]
      | customer => simp [tenantIsolation, Condition.holds_or, hno, holds_ofCustomer_tenant]

theorem writes_tenant :
    (schema V).writes ((schema V).readings (some (.tenant t)) served) rows table row =
      (row.belongsTo t rows table || table.protection.isNone) := by
  rw [Bool.eq_iff_iff, writes_eq, Row.belongsTo]
  have hno : ¬ bypassed.holds Uuid.cast ((schema V).readings (some (.tenant t)) served) (rows, row) = true :=
    not_bypassed (by simp)
  cases table.protection with
  | none => simp
  | some kind =>
      cases kind with
      | customer => simp [tenantIsolation, Condition.holds_or, hno, holds_ofCustomer_tenant]
      | _ => simp [tenantIsolation, Condition.holds_or, hno, holds_ofTenant_tenant]

theorem sees_none :
    (schema V).sees ((schema V).readings none served) rows table row = row.isShared table := by
  rw [Bool.eq_iff_iff, sees_eq, Row.isShared]
  have hno : ¬ bypassed.holds Uuid.cast ((schema V).readings none served) (rows, row) = true :=
    not_bypassed (by simp)
  have hother : ofTenant.holds Uuid.cast ((schema V).readings none served) (rows, row) = false :=
    holds_ofTenant_other (by simp)
  cases table.protection with
  | none => simp
  | some kind =>
      cases kind with
      | column => simp [tenantIsolation, Condition.holds_or, hno, hother]
      | template => simp [tenantIsolation, Condition.holds_or, hno, hother, Condition.holds_isNull]
      | customer => simp [tenantIsolation, Condition.holds_or, hno, holds_ofCustomer_none]

theorem writes_none :
    (schema V).writes ((schema V).readings none served) rows table row =
      table.protection.isNone := by
  rw [Bool.eq_iff_iff, writes_eq]
  have hno : ¬ bypassed.holds Uuid.cast ((schema V).readings none served) (rows, row) = true :=
    not_bypassed (by simp)
  have hother : ofTenant.holds Uuid.cast ((schema V).readings none served) (rows, row) = false :=
    holds_ofTenant_other (by simp)
  cases table.protection with
  | none => simp
  | some kind =>
      cases kind with
      | customer => simp [tenantIsolation, Condition.holds_or, hno, holds_ofCustomer_none]
      | _ => simp [tenantIsolation, Condition.holds_or, hno, hother]

theorem sees_bypass :
    (schema V).sees ((schema V).readings (some .bypass) served) rows table row = true := by
  rw [sees_eq]
  have hyes : bypassed.holds Uuid.cast ((schema V).readings (some .bypass) served) (rows, row) =
      true := holds_bypassed
  cases table.protection with
  | none => rfl
  | some kind => cases kind <;> simp [tenantIsolation, Condition.holds_or, hyes]

theorem writes_bypass :
    (schema V).writes ((schema V).readings (some .bypass) served) rows table row = true := by
  rw [writes_eq]
  have hyes : bypassed.holds Uuid.cast ((schema V).readings (some .bypass) served) (rows, row) =
      true := holds_bypassed
  cases table.protection with
  | none => rfl
  | some kind => cases kind <;> simp [tenantIsolation, Condition.holds_or, hyes]

/-! ## Casts that fail -/

end Policies

end WhatStore.RowPolicies
