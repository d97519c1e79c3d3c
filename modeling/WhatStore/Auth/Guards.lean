import Mathlib.Data.List.Basic
import Mathlib.Tactic.Common

/-!
# Who gets through the door of a store

A staff request passes `TenantMiddleware`, which resolves the store it is for,
`JwtStrategy.validate`, which looks the token's user and membership up,
`JwtAuthGuard`, which compares the token's store with the resolved one, and
`RolesGuard`. The store may come from a header, the query or the host, all of
them chosen by the caller, and the token may be stale.
-/

namespace WhatStore.Auth

/-! ## Rows, requests and tokens -/

inductive GlobalRole where
  | superAdmin | user
  deriving DecidableEq

inductive TenantMemberRole where
  | owner | staff
  deriving DecidableEq

inductive AppRole where
  | global (role : GlobalRole)
  | member (role : TenantMemberRole)
  deriving DecidableEq

def GlobalRole.name : GlobalRole → String
  | .superAdmin => "SUPER_ADMIN"
  | .user => "USER"

def TenantMemberRole.name : TenantMemberRole → String
  | .owner => "OWNER"
  | .staff => "STAFF"

def AppRole.name : AppRole → String
  | .global role => role.name
  | .member role => role.name

structure User where
  id : String
  email : String
  globalRole : GlobalRole
  isActive : Bool

/-- An id is a uuid, so it is not empty. -/
structure Tenant where
  id : String
  slug : String
  subdomain : Option String
  isActive : Bool
  id_ne : id ≠ ""
  deriving DecidableEq

structure TenantMember where
  tenantId : String
  userId : String
  role : TenantMemberRole
  isActive : Bool

structure Database where
  users : List User
  tenants : List Tenant
  members : List TenantMember

/-- What the middleware reads of a request; each part may be missing. -/
structure TenantRequest where
  xTenantId : Option String
  queryTenantId : Option String
  host : Option String

/-- The claims of a token with a valid signature. -/
structure JwtPayload where
  sub : String
  email : String
  globalRole : String
  tenantId : Option String
  tenantRole : Option String
  impersonatedBy : Option String
  purpose : Option String

/-- `req.user`. -/
structure AuthenticatedUser where
  id : String
  email : String
  globalRole : GlobalRole
  tenantId : Option String
  tenantRole : Option String
  impersonatedBy : Option String
  deriving DecidableEq

inductive Err where
  | unauthorized (message : String)
  | forbidden (message : String)
  deriving DecidableEq

def given (s : Option String) : Bool := s.any fun s => s != ""

/-! ## TenantMiddleware -/

/-- `s.split(c)`. -/
def split (s : String) (c : Char) : List String := (s.toList.splitOn c).map String.ofList

def isHex (c : Char) : Bool :=
  ('0' ≤ c && c ≤ '9') || ('a' ≤ c && c ≤ 'f') || ('A' ≤ c && c ≤ 'F')

/-- Groups of 8, 4, 4, 4 and 12 hexadecimal digits with dashes between them. -/
def isUuid (identifier : String) : Bool :=
  match split identifier '-' with
  | [a, b, c, d, e] =>
      [(a, 8), (b, 4), (c, 4), (d, 4), (e, 12)].all fun g =>
        g.1.toList.length == g.2 && g.1.toList.all isHex
  | _ => false

def extractSubdomain (host : String) : Option String :=
  let hostname := (split host ':').headD ""
  match split hostname '.' with
  | sub :: _ :: _ :: _ => if sub == "www" || sub == "api" then none else some sub
  | _ => none

/-- What names the store of a request: the header, else the query, else the
subdomain. -/
def TenantRequest.identifier (req : TenantRequest) : Option String :=
  (req.xTenantId.orElse fun _ => req.queryTenantId).orElse fun _ =>
    extractSubdomain (req.host.getD "")

/-- The active store of a request. Postgres compares uuids whatever their case. -/
def resolveTenant (db : Database) (req : TenantRequest) : Option Tenant :=
  match req.identifier with
  | none => none
  | some identifier =>
      if identifier == "" then none
      else if isUuid identifier then
        db.tenants.find? fun t => t.id == identifier.toLower && t.isActive
      else
        db.tenants.find? fun t =>
          (t.slug == identifier || t.subdomain == some identifier) && t.isActive

/-! ## JwtStrategy and the guards -/

def Database.findUser (db : Database) (id : String) : Option User :=
  db.users.find? fun u => u.id == id

def Database.findMembership (db : Database) (userId tenantId : String) : Option TenantMember :=
  db.members.find? fun m => m.userId == userId && m.tenantId == tenantId && m.isActive

/-- `tenantRole` of a validated token: of the membership as it is now, except for
an impersonation token, which keeps its claim. -/
def currentRole (db : Database) (user : User) (payload : JwtPayload) :
    Except Err (Option String) :=
  if given payload.tenantId && !given payload.impersonatedBy then
    match db.findMembership user.id (payload.tenantId.getD "") with
    | none => .error (.unauthorized "No longer a member of this tenant")
    | some membership => .ok (some membership.role.name)
  else .ok payload.tenantRole

def validate (db : Database) (payload : JwtPayload) : Except Err AuthenticatedUser :=
  if given payload.purpose then .error (.unauthorized "Invalid token")
  else
    match db.findUser payload.sub with
    | none => .error (.unauthorized "User no longer active")
    | some user =>
      if !user.isActive then .error (.unauthorized "User no longer active")
      else do
        let tenantRole ← currentRole db user payload
        .ok { id := user.id, email := user.email, globalRole := user.globalRole
              tenantId := payload.tenantId, tenantRole := tenantRole
              impersonatedBy := payload.impersonatedBy }

/-- `JwtAuthGuard`: a token is good for the store it was issued for. -/
def handleRequest (authenticated : AuthenticatedUser) (tenantId : Option String) :
    Except Err AuthenticatedUser :=
  if given tenantId && authenticated.globalRole != .superAdmin &&
      authenticated.tenantId != tenantId then
    .error (.forbidden "Your session does not belong to this tenant")
  else .ok authenticated

/-- `RolesGuard`. -/
def canActivate (required : List AppRole) (user : Option AuthenticatedUser) : Except Err Bool :=
  if required.isEmpty then .ok true
  else
    match user with
    | none => .error (.forbidden "Not authenticated")
    | some user =>
      if required.any (fun r => r.name == user.globalRole.name) ||
          (given user.tenantRole && required.any fun r => some r.name == user.tenantRole) then .ok true
      else .error (.forbidden "Insufficient role for this resource")

/-- The whole way of a request to a route: the user it acts as. A public route
asks for no token, so it has no user. -/
def passGuards (db : Database) (isPublic : Bool) (required : List AppRole) (req : TenantRequest)
    (payload : JwtPayload) : Except Err (Option AuthenticatedUser) := do
  let tenant := resolveTenant db req
  let user ←
    if isPublic then .ok none
    else do
      let authenticated ← validate db payload
      let authenticated ← handleRequest authenticated (tenant.map Tenant.id)
      .ok (some authenticated)
  let _ ← canActivate required user
  .ok user

/-! ## What getting through says -/

@[simp]
theorem given_some (s : String) : given (some s) = true ↔ s ≠ "" := by
  simp [given]

theorem resolveTenant_mem {db : Database} {req : TenantRequest} {T : Tenant}
    (h : resolveTenant db req = some T) : T ∈ db.tenants ∧ T.isActive = true := by
  unfold resolveTenant at h
  split at h
  · simp at h
  · split at h
    · simp at h
    · split at h
      all_goals
        have hmem := List.mem_of_find?_eq_some h
        have hsat := List.find?_some h
        simp only [Bool.and_eq_true] at hsat
        exact ⟨hmem, hsat.2⟩

/-- The names of the roles are different, across the two kinds as well. -/
theorem AppRole.name_injective {r r' : AppRole} (h : r.name = r'.name) : r = r' := by
  cases r with
  | global a => cases r' with
    | global b => cases a <;> cases b <;> simp_all [AppRole.name, GlobalRole.name]
    | member b => cases a <;> cases b <;>
        simp_all [AppRole.name, GlobalRole.name, TenantMemberRole.name]
  | member a => cases r' with
    | global b => cases a <;> cases b <;>
        simp_all [AppRole.name, GlobalRole.name, TenantMemberRole.name]
    | member b => cases a <;> cases b <;> simp_all [AppRole.name, TenantMemberRole.name]

/-- A role of the token is that of an active membership in its store, read now,
unless the token names no store or is one of impersonation. -/
theorem currentRole_ok {db : Database} {user : User} {payload : JwtPayload} {role : Option String}
    (h : currentRole db user payload = .ok role) (hstore : given payload.tenantId = true)
    (hown : given payload.impersonatedBy = false) :
    ∃ m ∈ db.members, m.userId = user.id ∧ some m.tenantId = payload.tenantId ∧
      m.isActive = true ∧ role = some m.role.name := by
  simp only [currentRole, hstore, hown, Bool.not_false, Bool.and_self, if_true] at h
  split at h
  · simp at h
  · rename_i m hm
    have hmem := List.mem_of_find?_eq_some hm
    have hsat := List.find?_some hm
    simp only [Bool.and_eq_true, beq_iff_eq] at hsat
    obtain ⟨tenantId, htenant⟩ : ∃ t, payload.tenantId = some t := by
      cases htenant : payload.tenantId with
      | none => simp [given, htenant] at hstore
      | some t => exact ⟨t, rfl⟩
    refine ⟨m, hmem, hsat.1.1, ?_, hsat.2, ?_⟩
    · simp [hsat.1.2, htenant]
    · simpa using h.symm

/-- A validated token is one of a user who is there and active. -/
theorem validate_ok {db : Database} {payload : JwtPayload} {user : AuthenticatedUser}
    (h : validate db payload = .ok user) :
    ∃ u ∈ db.users, u.id = payload.sub ∧ u.isActive = true ∧
      user.id = u.id ∧ user.globalRole = u.globalRole ∧ user.tenantId = payload.tenantId ∧
      currentRole db u payload = .ok user.tenantRole := by
  unfold validate at h
  split at h
  · simp at h
  · split at h
    · simp at h
    · rename_i u hu
      have hmem := List.mem_of_find?_eq_some hu
      have hid : u.id = payload.sub := by
        simpa [Database.findUser] using List.find?_some hu
      split at h
      · simp at h
      · rename_i hactive
        cases hrole : currentRole db u payload with
        | error e => simp [hrole, bind, Except.bind] at h
        | ok role =>
          simp only [hrole, bind, Except.bind, Except.ok.injEq] at h
          subst h
          exact ⟨u, hmem, hid, by simpa using hactive, rfl, rfl, rfl, hrole⟩

/-- A token that the guard lets into a store is a SUPER_ADMIN's or one of that store. -/
theorem handleRequest_ok {user user' : AuthenticatedUser} {T : Tenant}
    (h : handleRequest user (some T.id) = .ok user') :
    user' = user ∧ (user.globalRole = .superAdmin ∨ user.tenantId = some T.id) := by
  unfold handleRequest at h
  split at h
  · simp at h
  · rename_i hno
    constructor
    · simpa using h.symm
    · have hgiven := (given_some T.id).mpr T.id_ne
      by_cases hadmin : user.globalRole = .superAdmin
      · exact .inl hadmin
      · simp [hgiven, hadmin] at hno
        exact .inr hno

/-- A role that the guard asks for is one the user has. -/
theorem canActivate_ok {required : List AppRole} {user : Option AuthenticatedUser} {b : Bool}
    (h : canActivate required user = .ok b) (hsome : required ≠ []) :
    ∃ u, user = some u ∧ ∃ r ∈ required,
      r.name = u.globalRole.name ∨ some r.name = u.tenantRole := by
  unfold canActivate at h
  split at h
  · rename_i hempty
    exact absurd (List.isEmpty_iff.mp hempty) hsome
  · split at h
    · simp at h
    · rename_i u
      split at h
      · rename_i hhas
        simp only [Bool.or_eq_true, Bool.and_eq_true, List.any_eq_true, beq_iff_eq] at hhas
        refine ⟨u, rfl, ?_⟩
        cases hhas with
        | inl hglobal =>
          obtain ⟨r, hr, heq⟩ := hglobal
          exact ⟨r, hr, .inl heq⟩
        | inr htenant =>
          obtain ⟨-, r, hr, heq⟩ := htenant
          exact ⟨r, hr, .inr heq⟩
      · simp at h

/-- Who acts on a store through a route that asks for a role of it is, at that
moment, an active user with an active membership in this very store whose role is
asked for, a SUPER_ADMIN, or one with an impersonation token issued for the store. -/
theorem tenant_isolation (db : Database) (isPublic : Bool) (required : List AppRole)
    (req : TenantRequest) (payload : JwtPayload) (T : Tenant) (user : Option AuthenticatedUser)
    (hsome : required ≠ []) (hroles : ∀ r ∈ required, r ≠ .global .user)
    (hT : resolveTenant db req = some T)
    (hpass : passGuards db isPublic required req payload = .ok user) :
    T ∈ db.tenants ∧ T.isActive = true ∧
    ∃ u ∈ db.users, u.isActive = true ∧ u.id = payload.sub ∧
      user.map AuthenticatedUser.id = some u.id ∧
      ((∃ m ∈ db.members, m.userId = u.id ∧ m.tenantId = T.id ∧ m.isActive = true ∧
          .member m.role ∈ required) ∨
        u.globalRole = .superAdmin ∨
        (given payload.impersonatedBy = true ∧ payload.tenantId = some T.id)) := by
  have hTmem := resolveTenant_mem hT
  refine ⟨hTmem.1, hTmem.2, ?_⟩
  unfold passGuards at hpass
  rw [hT] at hpass
  cases isPublic with
  | true =>
    -- nobody is on a public route, and a role is asked for
    cases hact : canActivate required none with
    | error e => simp [hact, bind, Except.bind] at hpass
    | ok b =>
      obtain ⟨u, hu, -⟩ := canActivate_ok hact hsome
      simp at hu
  | false =>
    cases hval : validate db payload with
    | error e => simp [hval, bind, Except.bind] at hpass
    | ok seen =>
    cases hhand : handleRequest seen (some T.id) with
    | error e => simp [hval, hhand, bind, Except.bind] at hpass
    | ok seen' =>
    cases hact : canActivate required (some seen') with
    | error e => simp [hval, hhand, hact, bind, Except.bind] at hpass
    | ok b =>
    simp [hval, hhand, hact, bind, Except.bind] at hpass
    subst hpass
    obtain ⟨hsame, hstore⟩ := handleRequest_ok hhand
    subst hsame
    obtain ⟨u, humem, hsub, hactive, hid, hglobal, htenant, hrole⟩ := validate_ok hval
    refine ⟨u, humem, hactive, hsub, by simp [hid], ?_⟩
    by_cases hadmin : u.globalRole = .superAdmin
    · exact .inr (.inl hadmin)
    · have hpay : payload.tenantId = some T.id := by
        rw [← htenant]
        exact hstore.resolve_left (by rw [hglobal]; exact hadmin)
      by_cases hother : given payload.impersonatedBy = true
      · exact .inr (.inr ⟨hother, hpay⟩)
      · left
        have hgiven : given payload.tenantId = true := by
          rw [hpay]
          exact (given_some T.id).mpr T.id_ne
        obtain ⟨m, hm, huser, hmtenant, hmactive, hmrole⟩ :=
          currentRole_ok hrole hgiven (by simpa using hother)
        obtain ⟨u', hu', r, hr, heq⟩ := canActivate_ok hact hsome
        simp only [Option.some.injEq] at hu'
        subst hu'
        have hrm : r = .member m.role := by
          cases heq with
          | inl hg =>
            -- a global role that is asked for is SUPER_ADMIN
            rw [hglobal] at hg
            have hr' : r = .global u.globalRole := AppRole.name_injective hg
            cases hrole' : u.globalRole with
            | superAdmin => exact absurd hrole' hadmin
            | user => exact absurd (by rw [hr', hrole']) (hroles r hr)
          | inr ht =>
            rw [hmrole, Option.some.injEq] at ht
            have hr' : r = .member m.role := AppRole.name_injective ht
            exact hr'
        refine ⟨m, hm, huser, ?_, hmactive, hrm ▸ hr⟩
        rw [hpay, Option.some.injEq] at hmtenant
        exact hmtenant

def mugsTenant : Tenant :=
  { id := "t1", slug := "mugs", subdomain := some "mugs", isActive := true, id_ne := by decide }

/-- A store and its one member, of the staff. -/
def mugsDatabase : Database :=
  { users := [{ id := "u1", email := "ana@mugs.test", globalRole := .user, isActive := true }]
    tenants := [mugsTenant]
    members := [{ tenantId := "t1", userId := "u1", role := .staff, isActive := true }] }

/-- Through the host of the store, with a token that still says the role of before. -/
def mugsRequest : TenantRequest :=
  { xTenantId := none, queryTenantId := none, host := some "mugs.example.com:3000" }

def staleToken : JwtPayload :=
  { sub := "u1", email := "ana@mugs.test", globalRole := "USER", tenantId := some "t1"
    tenantRole := some "OWNER", impersonatedBy := none, purpose := none }

def ana : AuthenticatedUser :=
  { id := "u1", email := "ana@mugs.test", globalRole := .user, tenantId := some "t1"
    tenantRole := some "STAFF", impersonatedBy := none }

theorem tenant_isolation_staff :
    mugsTenant ∈ mugsDatabase.tenants ∧ mugsTenant.isActive = true ∧
    ∃ u ∈ mugsDatabase.users, u.isActive = true ∧ u.id = staleToken.sub ∧
      (some ana).map AuthenticatedUser.id = some u.id ∧
      ((∃ m ∈ mugsDatabase.members, m.userId = u.id ∧ m.tenantId = mugsTenant.id ∧
          m.isActive = true ∧ .member m.role ∈ [AppRole.member .owner, .member .staff]) ∨
        u.globalRole = .superAdmin ∨
        (given staleToken.impersonatedBy = true ∧ staleToken.tenantId = some mugsTenant.id)) :=
  tenant_isolation mugsDatabase false [.member .owner, .member .staff] mugsRequest staleToken
    mugsTenant (some ana) (by decide) (by decide) (by decide +kernel) (by decide +kernel)

end WhatStore.Auth
