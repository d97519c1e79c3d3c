import WhatStore.Auth.Guards
import WhatStore.Shop.Rows
import WhatStore.ReadCommitted.Program
import Mathlib.Data.List.Sort

/-!
# The database of accounts and sessions

The schema `accounts` of the services that sign people in: staff users and the
customers of a store, with the tokens that keep them signed in, the links that
reset their passwords and the counters of failed guesses. A query or an update
stands for one Prisma statement or one Redis command.

Staff and customers have tables of the same shape, told apart by the `Realm`.
-/

namespace WhatStore.Accounts

open ReadCommitted
open Auth (GlobalRole TenantMemberRole)

/-- Staff users, or the customers of a store. -/
inductive Realm where
  | staff | customer
  deriving DecidableEq

/-! ## Tokens -/

/-- The payload of a token. `challenge` is that of a login that still lacks its
second factor (`purpose: '2fa'`). -/
inductive Payload where
  | staff (sub : Id) (email : String) (globalRole : GlobalRole) (tenantId : Option Id)
      (tenantRole : Option TenantMemberRole)
  | customer (sub tenantId : Id)
  | challenge (sub : Id)
  deriving DecidableEq

def Payload.sub : Payload → Id
  | .staff sub _ _ _ _ => sub
  | .customer sub _ => sub
  | .challenge sub => sub

def Payload.tenantId : Payload → Option Id
  | .staff _ _ _ tenantId _ => tenantId
  | .customer _ tenantId => some tenantId
  | .challenge _ => none

def Payload.tenantRole : Payload → Option TenantMemberRole
  | .staff _ _ _ _ tenantRole => tenantRole
  | _ => none

inductive Secret where
  | access (realm : Realm)
  | refresh (realm : Realm)
  deriving DecidableEq

/-- A signed token, in seconds since the epoch: its string is a function of these,
and another one for others. -/
structure Jwt where
  secret : Secret
  payload : Payload
  iat : Nat
  exp : Nat
  jti : Option Id
  deriving DecidableEq

inductive RawToken where
  | signed (jwt : Jwt)
  | other (text : String)
  deriving DecidableEq

/-- Only the hash of a refresh token is stored. It is taken to be free of
collisions, so it is known by the token it was computed from. -/
structure RefreshHash where
  ofToken : RawToken
  deriving DecidableEq

/-! ## Rows -/

structure User where
  email : String
  name : String
  passwordHash : String
  globalRole : GlobalRole
  isActive : Bool
  totpSecret : Option String
  twoFactorEnabled : Bool

/-- An anonymized customer has no e-mail and no password. -/
structure Customer where
  tenantId : Id
  email : Option String
  name : String
  phone : Option String
  passwordHash : Option String

structure TenantMember where
  tenantId : Id
  userId : Id
  role : TenantMemberRole
  isActive : Bool
  createdAt : Time

structure Tenant where
  name : String
  slug : String
  locale : String

structure RefreshToken where
  accountId : Id
  tokenHash : RefreshHash
  expiresAt : Time
  revokedAt : Option Time

/-- A token of the app. Those that descend from one login are a family. -/
structure MobileRefreshToken where
  accountId : Id
  familyId : Id
  deviceId : String
  tokenHash : TokenHash
  tenantId : Option Id
  tenantRole : Option TenantMemberRole
  expiresAt : Time
  revokedAt : Option Time

structure PasswordResetToken where
  accountId : Id
  tokenHash : TokenHash
  expiresAt : Time
  usedAt : Option Time

/-- Failed guesses in Redis, and whether the key will expire. -/
structure Failures where
  count : Nat
  expires : Bool

inductive Counter where
  | login (email : String)
  | twoFactor (userId : Id)
  | twoFactorManage (userId : Id)
  | customerLogin (tenantId : Id) (email : String)
  deriving DecidableEq

inductive Key where
  | user (id : Id)
  | customer (id : Id)
  | member (id : Id)
  | tenant (id : Id)
  | refresh (realm : Realm) (id : Id)
  | mobile (realm : Realm) (id : Id)
  | link (realm : Realm) (id : Id)
  | counter (counter : Counter)
  deriving DecidableEq

@[reducible] def Row : Key → Type
  | .user _ => User
  | .customer _ => Customer
  | .member _ => TenantMember
  | .tenant _ => Tenant
  | .refresh _ _ => RefreshToken
  | .mobile _ _ => MobileRefreshToken
  | .link _ _ => PasswordResetToken
  | .counter _ => Failures

abbrev Database := Store Key Row

/-! ## Queries -/

/-- `scope` is the store of a customer's request, whose rows alone it is shown. The
queries that end in a list of ids are the `where` of an `updateMany`. -/
inductive Query where
  | userByEmail (email : String)
  | user (id : Id)
  | customerByEmail (tenantId : Id) (email : String)
  | customer (scope id : Id)
  | membership (userId tenantId : Id)
  | oldestMembership (userId : Id) (activeOnly : Bool)
  | tenant (id : Id)
  | refreshToken (realm : Realm) (scope : Option Id) (accountId : Id) (tokenHash : RefreshHash)
  | mobileToken (realm : Realm) (scope : Option Id) (tokenHash : TokenHash)
  | resetToken (realm : Realm) (scope : Option Id) (tokenHash : TokenHash)
  | refreshTokensLike (realm : Realm) (accountId : Id) (tokenHash : RefreshHash)
  | refreshTokensOf (realm : Realm) (accountId : Id) (keep : Option RefreshHash)
  | mobileTokensOf (realm : Realm) (accountId : Id)
  | mobileTokensOn (realm : Realm) (accountId : Id) (deviceId : String)
  | family (realm : Realm) (familyId : Id)
  | linksOf (realm : Realm) (accountId : Id)
  | failures (counter : Counter)
  | recorded (counter : Counter)

@[reducible] def Query.Result : Query → Type
  | .userByEmail _ => Option (Id × User)
  | .user _ => Option User
  | .customerByEmail _ _ => Option (Id × Customer)
  | .customer _ _ => Option Customer
  | .membership _ _ => Option TenantMember
  | .oldestMembership _ _ => Option TenantMember
  | .tenant _ => Option Tenant
  | .refreshToken _ _ _ _ => Option (Id × RefreshToken)
  | .mobileToken _ _ _ => Option (Id × MobileRefreshToken)
  | .resetToken _ _ _ => Option (Id × PasswordResetToken)
  | .refreshTokensLike _ _ _ => List Id
  | .refreshTokensOf _ _ _ => List Id
  | .mobileTokensOf _ _ => List Id
  | .mobileTokensOn _ _ _ => List Id
  | .family _ _ => List Id
  | .linksOf _ _ => List Id
  | .failures _ => Nat
  | .recorded _ => Nat

/-- The refresh tokens of a realm that satisfy `p`. -/
def refreshTokensWhere (s : Database) (realm : Realm) (p : RefreshToken → Bool) :
    List (Id × RefreshToken) :=
  s.keys.filterMap fun
    | .refresh realm' id =>
      if realm' = realm then
        ((s.row (.refresh realm' id)).filter p).map fun token : RefreshToken => (id, token)
      else none
    | _ => none

def mobileTokensWhere (s : Database) (realm : Realm) (p : MobileRefreshToken → Bool) :
    List (Id × MobileRefreshToken) :=
  s.keys.filterMap fun
    | .mobile realm' id =>
      if realm' = realm then
        ((s.row (.mobile realm' id)).filter p).map fun token : MobileRefreshToken => (id, token)
      else none
    | _ => none

def linksWhere (s : Database) (realm : Realm) (p : PasswordResetToken → Bool) :
    List (Id × PasswordResetToken) :=
  s.keys.filterMap fun
    | .link realm' id =>
      if realm' = realm then
        ((s.row (.link realm' id)).filter p).map fun link : PasswordResetToken => (id, link)
      else none
    | _ => none

def membersWhere (s : Database) (p : TenantMember → Bool) : List TenantMember :=
  s.keys.filterMap fun
    | .member id => (s.row (.member id)).filter p
    | _ => none

/-- Row-level security: a customer belongs to the store of the request. -/
def visible (s : Database) (scope : Option Id) (customerId : Id) : Bool :=
  scope.all fun tenantId =>
    (s.row (.customer customerId)).any fun c : Customer => c.tenantId == tenantId

def Query.eval : (q : Query) → Database → q.Result
  | .userByEmail email, s => s.keys.findSome? fun
      | .user id => ((s.row (.user id)).filter fun u : User => u.email == email).map fun u => (id, u)
      | _ => none
  | .user id, s => s.row (.user id)
  | .customerByEmail tenantId email, s => s.keys.findSome? fun
      | .customer id => ((s.row (.customer id)).filter fun c : Customer =>
          c.tenantId == tenantId && c.email == some email).map fun c => (id, c)
      | _ => none
  | .customer scope id, s => (s.row (.customer id)).filter fun c : Customer => c.tenantId == scope
  | .membership userId tenantId, s =>
      (membersWhere s fun m => m.userId == userId && m.tenantId == tenantId && m.isActive).head?
  | .oldestMembership userId activeOnly, s =>
      ((membersWhere s fun m => m.userId == userId && (!activeOnly || m.isActive)).insertionSort
        fun a b => a.createdAt ≤ b.createdAt).head?
  | .tenant id, s => s.row (.tenant id)
  | .refreshToken realm scope accountId tokenHash, s =>
      (refreshTokensWhere s realm fun token => token.accountId == accountId &&
        token.tokenHash == tokenHash && token.revokedAt.isNone &&
        visible s scope token.accountId).head?
  | .mobileToken realm scope tokenHash, s =>
      (mobileTokensWhere s realm fun token => token.tokenHash == tokenHash &&
        scope.all fun tenantId => token.tenantId == some tenantId).head?
  | .resetToken realm scope tokenHash, s =>
      (linksWhere s realm fun link => link.tokenHash == tokenHash && link.usedAt.isNone &&
        visible s scope link.accountId).head?
  | .refreshTokensLike realm accountId tokenHash, s =>
      (refreshTokensWhere s realm fun token => token.accountId == accountId &&
        token.tokenHash == tokenHash && token.revokedAt.isNone).map Prod.fst
  | .refreshTokensOf realm accountId keep, s =>
      (refreshTokensWhere s realm fun token => token.accountId == accountId &&
        token.revokedAt.isNone && keep.all fun kept => token.tokenHash != kept).map Prod.fst
  | .mobileTokensOf realm accountId, s =>
      (mobileTokensWhere s realm fun token => token.accountId == accountId &&
        token.revokedAt.isNone).map Prod.fst
  | .mobileTokensOn realm accountId deviceId, s =>
      (mobileTokensWhere s realm fun token => token.accountId == accountId &&
        token.deviceId == deviceId && token.revokedAt.isNone).map Prod.fst
  | .family realm familyId, s =>
      (mobileTokensWhere s realm fun token => token.familyId == familyId &&
        token.revokedAt.isNone).map Prod.fst
  | .linksOf realm accountId, s =>
      (linksWhere s realm fun link => link.accountId == accountId && link.usedAt.isNone).map Prod.fst
  | .failures c, s => ((s.row (.counter c)).map Failures.count).getD 0
  | .recorded c, s => ((s.row (.counter c)).map Failures.count).getD 0

/-! ### What the readers find -/

theorem mem_refreshTokensWhere {s : Database} {realm : Realm} {p : RefreshToken → Bool} {id : Id}
    {token : RefreshToken} : (id, token) ∈ refreshTokensWhere s realm p ↔
      s.row (.refresh realm id) = some token ∧ p token = true := by
  rw [refreshTokensWhere, List.mem_filterMap]
  constructor
  · rintro ⟨k, -, hk⟩
    cases k with
    | refresh realm' id' =>
        by_cases hrealm : realm' = realm
        · subst hrealm
          simp only [if_true, Option.map_eq_some_iff, Option.filter_eq_some_iff] at hk
          obtain ⟨token', ⟨hrow, hp⟩, heq⟩ := hk
          cases heq
          exact ⟨hrow, hp⟩
        · simp [hrealm] at hk
    | _ => cases hk
  · rintro ⟨hrow, hp⟩
    exact ⟨.refresh realm id, s.mem_keys_of_row hrow, by simp [hrow, hp]⟩

theorem mem_mobileTokensWhere {s : Database} {realm : Realm} {p : MobileRefreshToken → Bool}
    {id : Id} {token : MobileRefreshToken} : (id, token) ∈ mobileTokensWhere s realm p ↔
      s.row (.mobile realm id) = some token ∧ p token = true := by
  rw [mobileTokensWhere, List.mem_filterMap]
  constructor
  · rintro ⟨k, -, hk⟩
    cases k with
    | mobile realm' id' =>
        by_cases hrealm : realm' = realm
        · subst hrealm
          simp only [if_true, Option.map_eq_some_iff, Option.filter_eq_some_iff] at hk
          obtain ⟨token', ⟨hrow, hp⟩, heq⟩ := hk
          cases heq
          exact ⟨hrow, hp⟩
        · simp [hrealm] at hk
    | _ => cases hk
  · rintro ⟨hrow, hp⟩
    exact ⟨.mobile realm id, s.mem_keys_of_row hrow, by simp [hrow, hp]⟩

theorem mem_linksWhere {s : Database} {realm : Realm} {p : PasswordResetToken → Bool} {id : Id}
    {link : PasswordResetToken} : (id, link) ∈ linksWhere s realm p ↔
      s.row (.link realm id) = some link ∧ p link = true := by
  rw [linksWhere, List.mem_filterMap]
  constructor
  · rintro ⟨k, -, hk⟩
    cases k with
    | link realm' id' =>
        by_cases hrealm : realm' = realm
        · subst hrealm
          simp only [if_true, Option.map_eq_some_iff, Option.filter_eq_some_iff] at hk
          obtain ⟨link', ⟨hrow, hp⟩, heq⟩ := hk
          cases heq
          exact ⟨hrow, hp⟩
        · simp [hrealm] at hk
    | _ => cases hk
  · rintro ⟨hrow, hp⟩
    exact ⟨.link realm id, s.mem_keys_of_row hrow, by simp [hrow, hp]⟩

theorem row_of_refreshToken {s : Database} {realm : Realm} {scope : Option Id} {accountId id : Id}
    {tokenHash : RefreshHash} {token : RefreshToken}
    (h : Query.eval (.refreshToken realm scope accountId tokenHash) s = some (id, token)) :
    s.row (.refresh realm id) = some token ∧ token.accountId = accountId ∧
      token.tokenHash = tokenHash ∧ token.revokedAt = none := by
  obtain ⟨hrow, hp⟩ := mem_refreshTokensWhere.1 (List.mem_of_mem_head? h)
  simp only [Bool.and_eq_true, beq_iff_eq, Option.isNone_iff_eq_none] at hp
  exact ⟨hrow, hp.1.1.1, hp.1.1.2, hp.1.2⟩

theorem row_of_mobileToken {s : Database} {realm : Realm} {scope : Option Id} {id : Id}
    {tokenHash : TokenHash} {token : MobileRefreshToken}
    (h : Query.eval (.mobileToken realm scope tokenHash) s = some (id, token)) :
    s.row (.mobile realm id) = some token ∧ token.tokenHash = tokenHash := by
  obtain ⟨hrow, hp⟩ := mem_mobileTokensWhere.1 (List.mem_of_mem_head? h)
  simp only [Bool.and_eq_true, beq_iff_eq] at hp
  exact ⟨hrow, hp.1⟩

theorem row_of_resetToken {s : Database} {realm : Realm} {scope : Option Id} {id : Id}
    {tokenHash : TokenHash} {link : PasswordResetToken}
    (h : Query.eval (.resetToken realm scope tokenHash) s = some (id, link)) :
    s.row (.link realm id) = some link ∧ link.tokenHash = tokenHash ∧ link.usedAt = none := by
  obtain ⟨hrow, hp⟩ := mem_linksWhere.1 (List.mem_of_mem_head? h)
  simp only [Bool.and_eq_true, beq_iff_eq, Option.isNone_iff_eq_none] at hp
  exact ⟨hrow, hp.1.1, hp.1.2⟩

/-! ## Updates -/

/-- `rotate…` is the statement by which an exchange revokes its token, `retireMobile`
revokes the token of an account that is gone, and `revoke…` is one row of an
`updateMany`. -/
inductive Update where
  | insertCustomer (id : Id) (row : Customer)
  | setUserPassword (id : Id) (passwordHash : String)
  | setCustomerPassword (id : Id) (passwordHash : String)
  | setTotpSecret (id : Id) (secret : String)
  | enableTwoFactor (id : Id)
  | disableTwoFactor (id : Id)
  | insertRefresh (realm : Realm) (id : Id) (row : RefreshToken)
  | rotateRefresh (realm : Realm) (id : Id) (revokedAt : Time)
  | revokeRefresh (realm : Realm) (id : Id) (revokedAt : Time)
  | insertMobile (realm : Realm) (id : Id) (row : MobileRefreshToken)
  | rotateMobile (realm : Realm) (id : Id) (revokedAt : Time)
  | retireMobile (realm : Realm) (id : Id) (revokedAt : Time)
  | revokeMobile (realm : Realm) (id : Id) (revokedAt : Time)
  | insertLink (realm : Realm) (id : Id) (row : PasswordResetToken)
  | useLink (realm : Realm) (id : Id) (usedAt : Time)
  | incr (counter : Counter)
  | expire (counter : Counter)
  | del (counter : Counter)
  | lapse (counter : Counter)

def Update.key : Update → Key
  | .insertCustomer id _ => .customer id
  | .setUserPassword id _ => .user id
  | .setCustomerPassword id _ => .customer id
  | .setTotpSecret id _ => .user id
  | .enableTwoFactor id => .user id
  | .disableTwoFactor id => .user id
  | .insertRefresh realm id _ => .refresh realm id
  | .rotateRefresh realm id _ => .refresh realm id
  | .revokeRefresh realm id _ => .refresh realm id
  | .insertMobile realm id _ => .mobile realm id
  | .rotateMobile realm id _ => .mobile realm id
  | .retireMobile realm id _ => .mobile realm id
  | .revokeMobile realm id _ => .mobile realm id
  | .insertLink realm id _ => .link realm id
  | .useLink realm id _ => .link realm id
  | .incr c => .counter c
  | .expire c => .counter c
  | .del c => .counter c
  | .lapse c => .counter c

def Update.guard : (u : Update) → Option (Row u.key) → Bool
  | .insertCustomer _ _, v => v.isNone
  | .setUserPassword _ _, v => v.isSome
  | .setCustomerPassword _ _, v => v.isSome
  | .setTotpSecret _ _, v => v.isSome
  | .enableTwoFactor _, v => v.isSome
  | .disableTwoFactor _, v => v.isSome
  | .insertRefresh _ _ _, v => v.isNone
  | .rotateRefresh _ _ _, v => v.isSome
  | .revokeRefresh _ _ _, v => v.any fun t : RefreshToken => t.revokedAt.isNone
  | .insertMobile _ _ _, v => v.isNone
  | .rotateMobile _ _ _, v => v.isSome
  | .retireMobile _ _ _, v => v.isSome
  | .revokeMobile _ _ _, v => v.any fun t : MobileRefreshToken => t.revokedAt.isNone
  | .insertLink _ _ _, v => v.isNone
  | .useLink _ _ _, v => v.any fun l : PasswordResetToken => l.usedAt.isNone
  | .incr _, _ => true
  | .expire _, v => v.isSome
  | .del _, v => v.isSome
  | .lapse _, v => v.any fun f : Failures => f.expires

def Update.change : (u : Update) → Option (Row u.key) → Option (Row u.key)
  | .insertCustomer _ row, _ => some row
  | .setUserPassword _ passwordHash, v => v.map fun u : User => { u with passwordHash }
  | .setCustomerPassword _ passwordHash, v =>
      v.map fun c : Customer => { c with passwordHash := some passwordHash }
  | .setTotpSecret _ secret, v => v.map fun u : User => { u with totpSecret := some secret }
  | .enableTwoFactor _, v => v.map fun u : User => { u with twoFactorEnabled := true }
  | .disableTwoFactor _, v =>
      v.map fun u : User => { u with twoFactorEnabled := false, totpSecret := none }
  | .insertRefresh _ _ row, _ => some row
  | .rotateRefresh _ _ at_, v => v.map fun t : RefreshToken => { t with revokedAt := some at_ }
  | .revokeRefresh _ _ at_, v => v.map fun t : RefreshToken => { t with revokedAt := some at_ }
  | .insertMobile _ _ row, _ => some row
  | .rotateMobile _ _ at_, v => v.map fun t : MobileRefreshToken => { t with revokedAt := some at_ }
  | .retireMobile _ _ at_, v => v.map fun t : MobileRefreshToken => { t with revokedAt := some at_ }
  | .revokeMobile _ _ at_, v => v.map fun t : MobileRefreshToken => { t with revokedAt := some at_ }
  | .insertLink _ _ row, _ => some row
  | .useLink _ _ at_, v => v.map fun l : PasswordResetToken => { l with usedAt := some at_ }
  | .incr _, v => match v with
      | none => some (⟨1, false⟩ : Failures)
      | some f => some { f with count := f.count + 1 }
  | .expire _, v => v.map fun f : Failures => { f with expires := true }
  | .del _, _ => none
  | .lapse _, _ => none

/-! ## Calls and errors -/

inductive PasswordLink where
  | staff (token : Id)
  | storefront (slug : String) (token : Id)

/-- A mail with a link to a new password. A staff link never goes through a store's
own mail server. -/
structure PasswordResetMail where
  tenantId : Id
  locale : String
  recipient : String
  name : String
  storeName : String
  resetLink : PasswordLink
  viaPlatform : Bool

/-- What `mobileRefresh` answers. It does not throw, since a throw would undo the
revocations it has written. -/
inductive MobileRefreshResult where
  | ok (accessToken : Jwt) (refreshToken : Id)
  | refused

/-- Calls that leave the database. `redis` is whether a command reaches Redis, and
`issuedAt` the second in which a token is signed. -/
inductive Call where
  | redis
  | now
  | issuedAt
  | uuid
  | randomBytes
  | generateSecret
  | comparePassword (password : String) (passwordHash : Option String)
  | hashPassword (password : String)
  | checkTotp (code secret : String)
  | sendResetMail (mail : PasswordResetMail)
  | respondMobileRefresh (result : MobileRefreshResult)

@[reducible] def Call.Answer : Call → Type
  | .redis => Bool
  | .now => Time
  | .issuedAt => Nat
  | .uuid => Id
  | .randomBytes => Id
  | .generateSecret => String
  | .comparePassword _ _ => Bool
  | .hashPassword _ => String
  | .checkTotp _ _ => Bool
  | .sendResetMail _ => Bool
  | .respondMobileRefresh _ => Unit

inductive Err where
  | badRequest (message : String)
  | unauthorized (message : String)
  | conflict (message : String)
  | tooManyRequests (message : String)
  /-- Prisma's error for an `update` or a `findUniqueOrThrow` without a row. -/
  | recordNotFound
  /-- A constraint of the database, or a call outside of it, failed. -/
  | failure (message : String)

@[reducible] def accounts : Schema where
  Key := Key
  Row := Row
  Query := Query
  Result := Query.Result
  eval := Query.eval
  Update := Update
  key := Update.key
  guard := Update.guard
  change := Update.change
  Call := Call
  Answer := Call.Answer
  Err := Err

end WhatStore.Accounts
