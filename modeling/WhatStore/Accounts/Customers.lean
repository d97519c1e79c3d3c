import WhatStore.Accounts.Services
import WhatStore.ReadCommitted.System

/-!
# Signing a customer in

`CustomersAuthService`, and the requests of both services. Every request of a
customer is for a store, so it runs in one transaction.
-/

namespace WhatStore.Accounts

open ReadCommitted

structure RegisterCustomerDto where
  email : String
  password : String
  name : String
  phone : Option String
  deviceId : Option String

/-! ## CustomersAuthService -/

namespace CustomersAuthService

def signAccessToken (customerId tenantId : Id) : Prog accounts Jwt :=
  sign (.access .customer) (.customer customerId tenantId) accessExpiresIn none

def issueTokenPair (customerId tenantId : Id) : Prog accounts TokenPair := do
  let accessToken ← signAccessToken customerId tenantId
  let refreshToken ←
    sign (.refresh .customer) (.customer customerId tenantId) refreshExpiresIn none
  createRefreshToken .customer true customerId refreshToken uniqueFailed
  .ret ⟨accessToken, refreshToken⟩

def findCustomer (tenantId : Id) (email : String) : Prog accounts (Option (Id × Customer)) :=
  .query (.customerByEmail tenantId email) .ret

def register (tenantId : Id) (dto : RegisterCustomerDto) :
    Prog accounts (TokenPair × Option Id) := do
  let existing ← findCustomer tenantId dto.email
  Prog.throwIf existing.isSome (.conflict "Email already registered")
  let passwordHash : String ← .call (.hashPassword dto.password) .ret
  let customerId ← uuid
  write true (.insertCustomer customerId
    { tenantId, email := some dto.email, name := dto.name, phone := dto.phone
      passwordHash := some passwordHash }) uniqueFailed
  let tokens ← issueTokenPair customerId tenantId
  let mobile ← mobileTokenFor .customer true customerId dto.deviceId (some tenantId) none
  .ret (tokens, mobile)

/-- The password is compared, with a dummy hash if need be, before anything else is
decided. -/
def login (limits : Limits) (tenantId : Id) (dto : LoginDto) :
    Prog accounts (TokenPair × Option Id) := do
  assertNotLocked (limits.customerLoginCounter tenantId dto.email) limits.customerLogin
  let found ← findCustomer tenantId dto.email
  let valid : Bool ←
    .call (.comparePassword dto.password (found.bind fun c => c.2.passwordHash)) .ret
  match found.filter fun c => c.2.passwordHash.isSome && valid with
  | none => do
    recordFailure (limits.customerLoginCounter tenantId dto.email)
    .throw (.unauthorized "Invalid credentials")
  | some (customerId, _) => do
    clear (limits.customerLoginCounter tenantId dto.email)
    let tokens ← issueTokenPair customerId tenantId
    let mobile ← mobileTokenFor .customer true customerId dto.deviceId (some tenantId) none
    .ret (tokens, mobile)

def mobileRefresh (tenantId : Id) (dto : MobileRefreshDto) : Prog accounts MobileRefreshResult := do
  let found : Option (Id × MobileRefreshToken) ←
    .query (.mobileToken .customer (some tenantId) (hashRandom dto.refreshToken)) .ret
  match found with
  | none => .ret .refused
  | some (id, stored) =>
    if stored.misused dto then do
      revokeFamily .customer true stored.familyId
      .ret .refused
    else do
      let time ← now
      if stored.expiresAt < time then .ret .refused
      else do
        let customer : Option Customer ← .query (.customer tenantId stored.accountId) .ret
        let time ← now
        match customer with
        | none => do
          write true (.retireMobile .customer id time) .recordNotFound
          .ret .refused
        | some _ => do
          write true (.rotateMobile .customer id time) .recordNotFound
          let refreshToken ← createMobileRefreshToken .customer true stored.accountId
            stored.deviceId stored.familyId stored.tenantId none
          let accessToken ← signAccessToken stored.accountId (stored.tenantId.getD tenantId)
          .ret (.ok accessToken refreshToken)

def refresh (tenantId : Id) (rawRefreshToken : RawToken) : Prog accounts TokenPair := do
  let jwt ← verify (.refresh .customer) rawRefreshToken "Invalid or expired refresh token"
  let found : Option (Id × RefreshToken) ← .query
    (.refreshToken .customer (some tenantId) jwt.payload.sub (hashToken rawRefreshToken)) .ret
  let time ← now
  let stored ← Prog.orThrow (found.filter fun t => decide (time ≤ t.2.expiresAt)) refreshTokenInvalid
  let time ← now
  write true (.rotateRefresh .customer stored.1 time) .recordNotFound
  issueTokenPair jwt.payload.sub (jwt.payload.tenantId.getD tenantId)

def logout (customerId : Id) (rawRefreshToken : Option RawToken) : Prog accounts Unit :=
  match rawRefreshToken with
  | none => .ret ()
  | some rawRefreshToken => revokeLike .customer true customerId rawRefreshToken

def forgotPassword (tenantId : Id) (email : String) : Prog accounts Unit := do
  let found ← findCustomer tenantId email
  match found with
  | none => .ret ()
  | some (customerId, customer) => do
    let found : Option Tenant ← .query (.tenant tenantId) .ret
    let tenant ← Prog.orThrow found .recordNotFound
    let rawToken ← issuePasswordResetToken .customer true customerId resetTokenTtlMs
    let sent : Bool ← .call (.sendResetMail
      { tenantId, locale := tenant.locale, recipient := email, name := customer.name
        storeName := tenant.name, resetLink := .storefront tenant.slug rawToken
        viaPlatform := false }) .ret
    Prog.throwIf (!sent) (.failure "Mail queue unavailable")

def resetPassword (tenantId : Id) (dto : ResetPasswordDto) : Prog accounts Unit := do
  let found : Option (Id × PasswordResetToken) ←
    .query (.resetToken .customer (some tenantId) (hashRandom dto.token)) .ret
  let time ← now
  let (id, resetToken) ←
    Prog.orThrow (found.filter fun t => decide (time ≤ t.2.expiresAt)) resetLinkInvalid
  let customer : Option Customer ← .query (.customer tenantId resetToken.accountId) .ret
  Prog.throwIf customer.isNone resetLinkInvalid
  let time ← now
  let claimed ← updateMany (.useLink .customer id time)
  Prog.throwIf (!claimed) resetLinkInvalid
  let time ← now
  let links : List Id ← .query (.linksOf .customer resetToken.accountId) .ret
  updateEach true links fun id => .useLink .customer id time
  let passwordHash : String ← .call (.hashPassword dto.password) .ret
  write true (.setCustomerPassword resetToken.accountId passwordHash) .recordNotFound
  let time ← now
  let tokens : List Id ← .query (.refreshTokensOf .customer resetToken.accountId none) .ret
  updateEach true tokens fun id => .revokeRefresh .customer id time
  let time ← now
  let mobileTokens : List Id ← .query (.mobileTokensOf .customer resetToken.accountId) .ret
  updateEach true mobileTokens fun id => .revokeMobile .customer id time

end CustomersAuthService

/-! ## Requests -/

/-- `issueLink` is the part of an invitation, or of a reset a store owner or the
platform starts, that issues the link. `windowExpires` is Redis dropping a counter. -/
inductive Request where
  | login (inTx : Bool) (dto : LoginDto)
  | verifyTwoFactor (inTx : Bool) (challengeToken : RawToken) (code : String)
      (deviceId : Option String)
  | switchTenant (inTx : Bool) (userId tenantId : Id) (deviceId : Option String)
  | refresh (inTx : Bool) (rawRefreshToken : RawToken)
  | logout (inTx : Bool) (userId : Id) (rawRefreshToken : Option RawToken)
  | mobileRefresh (inTx : Bool) (dto : MobileRefreshDto)
  | setupTwoFactor (inTx : Bool) (userId : Id)
  | enableTwoFactor (inTx : Bool) (userId : Id) (code : String) (keep : Option RawToken)
  | disableTwoFactor (inTx : Bool) (userId : Id) (code : String) (keep : Option RawToken)
  | forgotPassword (inTx : Bool) (email : String)
  | issueLink (inTx : Bool) (userId : Id) (ttlMs : Nat)
  | resetPassword (inTx : Bool) (dto : ResetPasswordDto)
  | registerCustomer (tenantId : Id) (dto : RegisterCustomerDto)
  | loginCustomer (tenantId : Id) (dto : LoginDto)
  | refreshCustomer (tenantId : Id) (rawRefreshToken : RawToken)
  | logoutCustomer (customerId : Id) (rawRefreshToken : Option RawToken)
  | mobileRefreshCustomer (tenantId : Id) (dto : MobileRefreshDto)
  | forgotPasswordCustomer (tenantId : Id) (email : String)
  | resetPasswordCustomer (tenantId : Id) (dto : ResetPasswordDto)
  | windowExpires (counter : Counter)

def Request.refreshes : Request → Option (Realm × RawToken)
  | .refresh _ raw => some (.staff, raw)
  | .refreshCustomer _ raw => some (.customer, raw)
  | _ => none

def Request.exchanges : Request → Option (Realm × MobileRefreshDto)
  | .mobileRefresh _ dto => some (.staff, dto)
  | .mobileRefreshCustomer _ dto => some (.customer, dto)
  | _ => none

def Request.resets : Request → Option (Realm × Id)
  | .resetPassword _ dto => some (.staff, dto.token)
  | .resetPasswordCustomer _ dto => some (.customer, dto.token)
  | _ => none

/-- The service function a request calls; what it returns is the response. -/
def handler (limits : Limits) : Request → Prog accounts Unit
  | .login inTx dto => do
      let _ ← AuthService.login limits inTx dto
  | .verifyTwoFactor inTx challengeToken code deviceId => do
      let _ ← AuthService.verifyTwoFactor limits inTx challengeToken code deviceId
  | .switchTenant inTx userId tenantId deviceId => do
      let _ ← AuthService.switchTenant inTx userId tenantId deviceId
  | .refresh inTx rawRefreshToken => do
      let _ ← AuthService.refresh inTx rawRefreshToken
  | .logout inTx userId rawRefreshToken => AuthService.logout inTx userId rawRefreshToken
  | .mobileRefresh inTx dto => do
      let result ← AuthService.mobileRefresh inTx dto
      .call (.respondMobileRefresh result) .ret
  | .setupTwoFactor inTx userId => AuthService.setupTwoFactor inTx userId
  | .enableTwoFactor inTx userId code keep =>
      AuthService.enableTwoFactor limits inTx userId code keep
  | .disableTwoFactor inTx userId code keep =>
      AuthService.disableTwoFactor limits inTx userId code keep
  | .forgotPassword inTx email => AuthService.forgotPassword inTx email
  | .issueLink inTx userId ttlMs => do
      let _ ← issuePasswordResetToken .staff inTx userId ttlMs
  | .resetPassword inTx dto => AuthService.resetPassword inTx dto
  | .registerCustomer tenantId dto => do
      let _ ← CustomersAuthService.register tenantId dto
  | .loginCustomer tenantId dto => do
      let _ ← CustomersAuthService.login limits tenantId dto
  | .refreshCustomer tenantId rawRefreshToken => do
      let _ ← CustomersAuthService.refresh tenantId rawRefreshToken
  | .logoutCustomer customerId rawRefreshToken =>
      CustomersAuthService.logout customerId rawRefreshToken
  | .mobileRefreshCustomer tenantId dto => do
      let result ← CustomersAuthService.mobileRefresh tenantId dto
      .call (.respondMobileRefresh result) .ret
  | .forgotPasswordCustomer tenantId email => CustomersAuthService.forgotPassword tenantId email
  | .resetPasswordCustomer tenantId dto => CustomersAuthService.resetPassword tenantId dto
  | .windowExpires counter => do
      let _ ← updateMany (.lapse counter)

abbrev Ev := Event accounts

abbrev AccountWorld := World accounts Request

abbrev AccountSystem := System accounts Request

end WhatStore.Accounts
