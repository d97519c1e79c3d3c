import WhatStore.Accounts.Database

/-!
# Signing in and staying signed in

`AccountThrottleService`, `AuthService` and `CustomersAuthService`. A request for
a store runs in one transaction (`inTx`), which is every request of a customer;
otherwise each statement commits by itself. A command to Redis is a statement
that is committed at once.
-/

namespace WhatStore.Accounts

open ReadCommitted
open Auth (GlobalRole TenantMemberRole)

/-! ## Statements -/

/-- An `updateMany` on one row; answers whether it changed. -/
def updateMany (u : Update) : Prog accounts Bool := .update u .ret

/-- An `update` by primary key, which fails without its row. -/
def updateOne (u : Update) (e : Err) : Prog accounts Unit := do
  let hit ← updateMany u
  Prog.throwIf (!hit) e

def now : Prog accounts Time := .call .now .ret

def uuid : Prog accounts Id := .call .uuid .ret

/-- The end of a statement: outside of a transaction it is committed. -/
def settle (inTx : Bool) : Prog accounts Unit := Prog.runIf (!inTx) (.commit (.ret ()))

/-- An `update` or a `create` of the client a request uses. -/
def write (inTx : Bool) (u : Update) (e : Err) : Prog accounts Unit := do
  updateOne u e
  settle inTx

/-- An `updateMany` on the rows its `where` has found. -/
def updateEach (inTx : Bool) (ids : List Id) (u : Id → Update) : Prog accounts Unit := do
  Prog.each (fun id => do let _ ← updateMany (u id)) ids
  settle inTx

def uniqueFailed : Err := .failure "Unique constraint failed"

/-! ## Tokens -/

def hashToken (raw : RawToken) : RefreshHash := ⟨raw⟩

def hashRandom (raw : Id) : TokenHash := ⟨raw⟩

/-- Neither hash is taken to have collisions. -/
theorem ofToken_hashToken (raw : RawToken) : (hashToken raw).ofToken = raw :=
  rfl

theorem ofToken_hashRandom (raw : Id) : (hashRandom raw).ofToken = raw :=
  rfl

/-- `expiresIn`, in seconds. -/
def accessExpiresIn : Nat := 15 * 60

def challengeExpiresIn : Nat := 5 * 60

def refreshExpiresIn : Nat := 30 * 24 * 60 * 60

def dayMs : Nat := 24 * 60 * 60 * 1000

def mobileTtlDays : Realm → Nat
  | .staff => 7
  | .customer => 30

def resetTokenTtlMs : Nat := 60 * 60 * 1000

/-- `jwt.sign`. -/
def sign (secret : Secret) (payload : Payload) (expiresIn : Nat) (jti : Option Id) :
    Prog accounts Jwt := do
  let iat : Nat ← .call .issuedAt .ret
  .ret ⟨secret, payload, iat, iat + expiresIn, jti⟩

/-- The token, when it carries the signature and has not expired. -/
def verified (secret : Secret) (time : Time) : RawToken → Option Jwt
  | .signed jwt => if jwt.secret = secret ∧ time / 1000 < jwt.exp then some jwt else none
  | .other _ => none

theorem signed_of_verified {secret : Secret} {time : Time} {raw : RawToken} {jwt : Jwt}
    (h : verified secret time raw = some jwt) : raw = .signed jwt := by
  cases raw with
  | other text => cases h
  | signed jwt' =>
      simp only [verified, Option.ite_none_right_eq_some, Option.some.injEq] at h
      rw [h.2]

/-- `jwt.verify`. -/
def verify (secret : Secret) (raw : RawToken) (message : String) : Prog accounts Jwt := do
  let time ← now
  Prog.orThrow (verified secret time raw) (.unauthorized message)

/-- The row of a web refresh token, whose raw string is what the client keeps. -/
def createRefreshToken (realm : Realm) (inTx : Bool) (accountId : Id) (refreshToken : Jwt)
    (e : Err) : Prog accounts Unit := do
  let id ← uuid
  write inTx (.insertRefresh realm id
    { accountId, tokenHash := hashToken (.signed refreshToken)
      expiresAt := refreshToken.exp * 1000, revokedAt := none }) e

structure TokenPair where
  accessToken : Jwt
  refreshToken : Jwt

/-- Inserts one row and returns the raw token to hand back to the client. -/
def createMobileRefreshToken (realm : Realm) (inTx : Bool) (accountId : Id) (deviceId : String)
    (familyId : Id) (tenantId : Option Id) (tenantRole : Option TenantMemberRole) :
    Prog accounts Id := do
  let time ← now
  let id ← uuid
  let rawToken : Id ← .call .randomBytes .ret
  write inTx (.insertMobile realm id
    { accountId, familyId, deviceId, tokenHash := hashRandom rawToken, tenantId, tenantRole
      expiresAt := time + mobileTtlDays realm * dayMs, revokedAt := none }) uniqueFailed
  .ret rawToken

/-- A new family for the account and the device, in the place of the one before. -/
def issueFreshMobileRefreshToken (realm : Realm) (inTx : Bool) (accountId : Id)
    (deviceId : String) (tenantId : Option Id) (tenantRole : Option TenantMemberRole) :
    Prog accounts Id := do
  let time ← now
  let ids : List Id ← .query (.mobileTokensOn realm accountId deviceId) .ret
  updateEach inTx ids fun id => .revokeMobile realm id time
  let familyId ← uuid
  createMobileRefreshToken realm inTx accountId deviceId familyId tenantId tenantRole

/-- A mobile token for the device, when the client names one. -/
def mobileTokenFor (realm : Realm) (inTx : Bool) (accountId : Id) (deviceId : Option String)
    (tenantId : Option Id) (tenantRole : Option TenantMemberRole) : Prog accounts (Option Id) :=
  match deviceId with
  | none => .ret none
  | some deviceId => do
    let rawToken ← issueFreshMobileRefreshToken realm inTx accountId deviceId tenantId tenantRole
    .ret (some rawToken)

/-- Every live token that descends from the login of `familyId`. -/
def revokeFamily (realm : Realm) (inTx : Bool) (familyId : Id) : Prog accounts Unit := do
  let time ← now
  let ids : List Id ← .query (.family realm familyId) .ret
  updateEach inTx ids fun id => .revokeMobile realm id time

structure MobileRefreshDto where
  refreshToken : Id
  deviceId : String

/-- A token that was already revoked, or one presented by another device. -/
def MobileRefreshToken.misused (stored : MobileRefreshToken) (dto : MobileRefreshDto) : Bool :=
  stored.revokedAt.isSome || stored.deviceId != dto.deviceId

/-- One live link for each account: a newer request voids the older ones. -/
def issuePasswordResetToken (realm : Realm) (inTx : Bool) (accountId : Id) (ttlMs : Nat) :
    Prog accounts Id := do
  let time ← now
  let ids : List Id ← .query (.linksOf realm accountId) .ret
  updateEach inTx ids fun id => .useLink realm id time
  let time ← now
  let id ← uuid
  let rawToken : Id ← .call .randomBytes .ret
  write inTx (.insertLink realm id
    { accountId, tokenHash := hashRandom rawToken, expiresAt := time + ttlMs, usedAt := none })
    uniqueFailed
  .ret rawToken

/-! ## AccountThrottleService -/

/-- Throws when `limit` failures have been recorded inside the window; passes when
Redis cannot be reached. -/
def assertNotLocked (counter : Counter) (limit : Nat) : Prog accounts Unit := do
  let up : Bool ← .call .redis .ret
  Prog.runIf up do
    let failures : Nat ← .query (.failures counter) .ret
    Prog.throwIf (decide (limit ≤ failures))
      (.tooManyRequests "Too many failed attempts. Try again later.")

/-- `INCR`, and `EXPIRE` on the first failure of a window. -/
def recordFailure (counter : Counter) : Prog accounts Unit := do
  let up : Bool ← .call .redis .ret
  Prog.runIf up do
    let _ ← updateMany (.incr counter)
    let failures : Nat ← .query (.recorded counter) .ret
    Prog.commit (.ret ())
    Prog.runIf (failures == 1) do
      let up : Bool ← .call .redis .ret
      Prog.runIf up do
        let _ ← updateMany (.expire counter)
        Prog.commit (.ret ())

def clear (counter : Counter) : Prog accounts Unit := do
  let up : Bool ← .call .redis .ret
  Prog.runIf up do
    let _ ← updateMany (.del counter)
    Prog.commit (.ret ())

/-- Failed guesses against one account before it stops accepting them for the
window. The counter of a login is named by its e-mail after `toLowerCase`. -/
structure Limits where
  login : Nat
  totp : Nat
  customerLogin : Nat
  toLowerCase : String → String

def throttleLimits : Limits := ⟨10, 5, 10, String.toLower⟩

def Limits.loginCounter (limits : Limits) (email : String) : Counter :=
  .login (limits.toLowerCase email)

def Limits.customerLoginCounter (limits : Limits) (tenantId : Id) (email : String) : Counter :=
  .customerLogin tenantId (limits.toLowerCase email)

structure LoginDto where
  email : String
  password : String
  deviceId : Option String

inductive LoginResult where
  | requiresTwoFactor (challengeToken : Jwt)
  | session (tokens : TokenPair) (mobileRefreshToken : Option Id)

structure ResetPasswordDto where
  token : Id
  password : String

def resetLinkInvalid : Err := .unauthorized "Reset link is invalid or expired"

def refreshTokenInvalid : Err := .unauthorized "Refresh token no longer valid"

def revokeLike (realm : Realm) (inTx : Bool) (accountId : Id) (rawRefreshToken : RawToken) :
    Prog accounts Unit := do
  let time ← now
  let ids : List Id ←
    .query (.refreshTokensLike realm accountId (hashToken rawRefreshToken)) .ret
  updateEach inTx ids fun id => .revokeRefresh realm id time

/-! ## AuthService -/

namespace AuthService

def signAccessToken (userId : Id) (user : User) (tenantId : Option Id)
    (tenantRole : Option TenantMemberRole) : Prog accounts Jwt :=
  sign (.access .staff) (.staff userId user.email user.globalRole tenantId tenantRole)
    accessExpiresIn none

/-- Two logins in the same second differ in the `jwtid` of their tokens. -/
def issueTokenPair (inTx : Bool) (userId : Id) (user : User) (tenantId : Option Id)
    (tenantRole : Option TenantMemberRole) (e : Err) : Prog accounts TokenPair := do
  let accessToken ← signAccessToken userId user tenantId tenantRole
  let jwtid ← uuid
  let refreshToken ← sign (.refresh .staff)
    (.staff userId user.email user.globalRole tenantId tenantRole) refreshExpiresIn (some jwtid)
  createRefreshToken .staff inTx userId refreshToken e
  .ret ⟨accessToken, refreshToken⟩

def findUser (userId : Id) (e : Err) : Prog accounts User := do
  let user : Option User ← .query (.user userId) .ret
  Prog.orThrow user e

def completeLogin (inTx : Bool) (userId : Id) (deviceId : Option String) :
    Prog accounts LoginResult := do
  let user ← findUser userId .recordNotFound
  let membership : Option TenantMember ← .query (.oldestMembership userId true) .ret
  let tenantId := membership.map TenantMember.tenantId
  let tenantRole := membership.map TenantMember.role
  let tokens ← issueTokenPair inTx userId user tenantId tenantRole uniqueFailed
  let mobile ← mobileTokenFor .staff inTx userId deviceId tenantId tenantRole
  .ret (.session tokens mobile)

/-- The password is compared, with a dummy hash if need be, before anything else is
decided. -/
def login (limits : Limits) (inTx : Bool) (dto : LoginDto) : Prog accounts LoginResult := do
  assertNotLocked (limits.loginCounter dto.email) limits.login
  let found : Option (Id × User) ← .query (.userByEmail dto.email) .ret
  let valid : Bool ←
    .call (.comparePassword dto.password (found.map fun u => u.2.passwordHash)) .ret
  match found.filter fun u => u.2.isActive && valid with
  | none => do
    recordFailure (limits.loginCounter dto.email)
    .throw (.unauthorized "Invalid credentials")
  | some (userId, user) => do
    clear (limits.loginCounter dto.email)
    if user.twoFactorEnabled then do
      let challengeToken ← sign (.access .staff) (.challenge userId) challengeExpiresIn none
      .ret (.requiresTwoFactor challengeToken)
    else completeLogin inTx userId dto.deviceId

def challenged : Payload → Option Id
  | .challenge sub => some sub
  | _ => none

def verifyTwoFactor (limits : Limits) (inTx : Bool) (challengeToken : RawToken) (code : String)
    (deviceId : Option String) : Prog accounts LoginResult := do
  let jwt ← verify (.access .staff) challengeToken "Challenge expired, please log in again"
  let userId ← Prog.orThrow (challenged jwt.payload) (.unauthorized "Invalid challenge token")
  assertNotLocked (.twoFactor userId) limits.totp
  let user : Option User ← .query (.user userId) .ret
  let totpSecret ← Prog.orThrow (user.bind User.totpSecret) (.unauthorized "2FA not configured")
  let valid : Bool ← .call (.checkTotp code totpSecret) .ret
  if valid then do
    clear (.twoFactor userId)
    completeLogin inTx userId deviceId
  else do
    recordFailure (.twoFactor userId)
    .throw (.unauthorized "Invalid 2FA code")

def switchTenant (inTx : Bool) (userId tenantId : Id) (deviceId : Option String) :
    Prog accounts LoginResult := do
  let found : Option TenantMember ← .query (.membership userId tenantId) .ret
  let membership ← Prog.orThrow found (.unauthorized "Not a member of this tenant")
  let user ← findUser userId .recordNotFound
  let tokens ←
    issueTokenPair inTx userId user (some tenantId) (some membership.role) uniqueFailed
  let mobile ←
    mobileTokenFor .staff inTx userId deviceId (some tenantId) (some membership.role)
  .ret (.session tokens mobile)

/-- The role of a member now; `none` when the user has left the store. -/
def currentRole (userId : Id) (tenantId : Option Id) (tenantRole : Option TenantMemberRole) :
    Prog accounts (Option (Option TenantMemberRole)) :=
  match tenantId with
  | none => .ret (some tenantRole)
  | some tenantId => do
    let membership : Option TenantMember ← .query (.membership userId tenantId) .ret
    .ret (membership.map fun m => some m.role)

def mobileRefresh (inTx : Bool) (dto : MobileRefreshDto) : Prog accounts MobileRefreshResult := do
  let found : Option (Id × MobileRefreshToken) ←
    .query (.mobileToken .staff none (hashRandom dto.refreshToken)) .ret
  match found with
  | none => .ret .refused
  | some (id, stored) =>
    if stored.misused dto then do
      revokeFamily .staff inTx stored.familyId
      .ret .refused
    else do
      let time ← now
      if stored.expiresAt < time then .ret .refused
      else do
        let user : Option User ← .query (.user stored.accountId) .ret
        let time ← now
        match user.filter User.isActive with
        | none => do
          write inTx (.retireMobile .staff id time) .recordNotFound
          .ret .refused
        | some user => do
          write inTx (.rotateMobile .staff id time) .recordNotFound
          let role ← currentRole stored.accountId stored.tenantId stored.tenantRole
          match role with
          | none => do
            revokeFamily .staff inTx stored.familyId
            .ret .refused
          | some tenantRole => do
            let refreshToken ← createMobileRefreshToken .staff inTx stored.accountId
              stored.deviceId stored.familyId stored.tenantId tenantRole
            let accessToken ← signAccessToken stored.accountId user stored.tenantId tenantRole
            .ret (.ok accessToken refreshToken)

/-- From the revocation on, whatever fails is answered as an invalid token. -/
def refresh (inTx : Bool) (rawRefreshToken : RawToken) : Prog accounts TokenPair := do
  let jwt ← verify (.refresh .staff) rawRefreshToken "Invalid or expired refresh token"
  let found : Option (Id × RefreshToken) ←
    .query (.refreshToken .staff none jwt.payload.sub (hashToken rawRefreshToken)) .ret
  let time ← now
  let stored ← Prog.orThrow (found.filter fun t => decide (time ≤ t.2.expiresAt)) refreshTokenInvalid
  let time ← now
  write inTx (.rotateRefresh .staff stored.1 time) refreshTokenInvalid
  let user ← findUser jwt.payload.sub refreshTokenInvalid
  Prog.throwIf (!user.isActive) refreshTokenInvalid
  let role ← currentRole jwt.payload.sub jwt.payload.tenantId jwt.payload.tenantRole
  let tenantRole ← Prog.orThrow role refreshTokenInvalid
  issueTokenPair inTx jwt.payload.sub user jwt.payload.tenantId tenantRole refreshTokenInvalid

def logout (inTx : Bool) (userId : Id) (rawRefreshToken : Option RawToken) : Prog accounts Unit :=
  match rawRefreshToken with
  | none => .ret ()
  | some rawRefreshToken => revokeLike .staff inTx userId rawRefreshToken

def setupTwoFactor (inTx : Bool) (userId : Id) : Prog accounts Unit := do
  let user ← findUser userId .recordNotFound
  Prog.throwIf user.twoFactorEnabled (.badRequest "2FA is already enabled; disable it first")
  let secret : String ← .call .generateSecret .ret
  write inTx (.setTotpSecret userId secret) .recordNotFound

/-- Changing the second factor ends every other session. -/
def revokeOtherSessions (inTx : Bool) (userId : Id) (keepRawRefreshToken : Option RawToken) :
    Prog accounts Unit := do
  let time ← now
  let ids : List Id ←
    .query (.refreshTokensOf .staff userId (keepRawRefreshToken.map hashToken)) .ret
  updateEach inTx ids fun id => .revokeRefresh .staff id time
  let ids : List Id ← .query (.mobileTokensOf .staff userId) .ret
  updateEach inTx ids fun id => .revokeMobile .staff id time

def enableTwoFactor (limits : Limits) (inTx : Bool) (userId : Id) (code : String)
    (keepRefreshToken : Option RawToken) : Prog accounts Unit := do
  assertNotLocked (.twoFactorManage userId) limits.totp
  let user ← findUser userId .recordNotFound
  let totpSecret ← Prog.orThrow user.totpSecret (.badRequest "Call /auth/2fa/setup first")
  let valid : Bool ← .call (.checkTotp code totpSecret) .ret
  if valid then do
    clear (.twoFactorManage userId)
    write inTx (.enableTwoFactor userId) .recordNotFound
    revokeOtherSessions inTx userId keepRefreshToken
  else do
    recordFailure (.twoFactorManage userId)
    .throw (.badRequest "Invalid 2FA code")

/-- `!user.totpSecret || !authenticator.check(code, user.totpSecret)`. -/
def checkSecret (code : String) (totpSecret : Option String) : Prog accounts Bool :=
  match totpSecret with
  | none => .ret false
  | some totpSecret => .call (.checkTotp code totpSecret) .ret

def disableTwoFactor (limits : Limits) (inTx : Bool) (userId : Id) (code : String)
    (keepRefreshToken : Option RawToken) : Prog accounts Unit := do
  assertNotLocked (.twoFactorManage userId) limits.totp
  let user ← findUser userId .recordNotFound
  Prog.runIf user.twoFactorEnabled do
    let valid ← checkSecret code user.totpSecret
    Prog.runIf (!valid) do
      recordFailure (.twoFactorManage userId)
      .throw (.badRequest "Invalid 2FA code")
  clear (.twoFactorManage userId)
  write inTx (.disableTwoFactor userId) .recordNotFound
  revokeOtherSessions inTx userId keepRefreshToken

def forgotPassword (inTx : Bool) (email : String) : Prog accounts Unit := do
  let found : Option (Id × User) ← .query (.userByEmail email) .ret
  match found.filter fun u => u.2.isActive with
  | none => .ret ()
  | some (userId, user) => do
    let membership : Option TenantMember ← .query (.oldestMembership userId false) .ret
    match membership with
    | none => .ret ()
    | some membership => do
      let found : Option Tenant ← .query (.tenant membership.tenantId) .ret
      let tenant ← Prog.orThrow found .recordNotFound
      let rawToken ← issuePasswordResetToken .staff inTx userId resetTokenTtlMs
      let sent : Bool ← .call (.sendResetMail
        { tenantId := membership.tenantId, locale := tenant.locale, recipient := user.email
          name := user.name, storeName := tenant.name, resetLink := .staff rawToken
          viaPlatform := true }) .ret
      Prog.throwIf (!sent) (.failure "Mail queue unavailable")

/-- The statements after the claim of a link: the other links die with it, the
password changes, and every session ends. -/
def resetPassword (inTx : Bool) (dto : ResetPasswordDto) : Prog accounts Unit := do
  let found : Option (Id × PasswordResetToken) ←
    .query (.resetToken .staff none (hashRandom dto.token)) .ret
  let time ← now
  let (id, resetToken) ←
    Prog.orThrow (found.filter fun t => decide (time ≤ t.2.expiresAt)) resetLinkInvalid
  let time ← now
  let claimed ← updateMany (.useLink .staff id time)
  Prog.throwIf (!claimed) resetLinkInvalid
  settle inTx
  let time ← now
  let links : List Id ← .query (.linksOf .staff resetToken.accountId) .ret
  updateEach inTx links fun id => .useLink .staff id time
  let passwordHash : String ← .call (.hashPassword dto.password) .ret
  write inTx (.setUserPassword resetToken.accountId passwordHash) .recordNotFound
  let time ← now
  let tokens : List Id ← .query (.refreshTokensOf .staff resetToken.accountId none) .ret
  updateEach inTx tokens fun id => .revokeRefresh .staff id time
  let time ← now
  let mobileTokens : List Id ← .query (.mobileTokensOf .staff resetToken.accountId) .ret
  updateEach inTx mobileTokens fun id => .revokeMobile .staff id time

end AuthService

end WhatStore.Accounts
