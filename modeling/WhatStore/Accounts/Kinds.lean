import WhatStore.Accounts.Customers
import WhatStore.ReadCommitted.Protocol

/-!
# What each request may do

The kinds of statements that matter for sessions, links and counters. A function
that `Does K` issues none but those of the kinds `K` and plain ones: reads,
ends of transactions and writes to the accounts themselves.
-/

namespace WhatStore.Accounts

open ReadCommitted ReadCommitted.Prog

inductive Kind where
  | plain
  | insertRefresh | rotateRefresh | revokeRefresh
  | insertMobile | rotateMobile | revokeMobile
  | insertLink | useLink
  | count | guess | find | respond | undo
  deriving DecidableEq

def Update.kind : Update → Kind
  | .insertCustomer _ _ => .plain
  | .setUserPassword _ _ => .plain
  | .setCustomerPassword _ _ => .plain
  | .setTotpSecret _ _ => .plain
  | .enableTwoFactor _ => .plain
  | .disableTwoFactor _ => .plain
  | .insertRefresh _ _ _ => .insertRefresh
  | .rotateRefresh _ _ _ => .rotateRefresh
  | .revokeRefresh _ _ _ => .revokeRefresh
  | .insertMobile _ _ _ => .insertMobile
  | .rotateMobile _ _ _ => .rotateMobile
  | .retireMobile _ _ _ => .revokeMobile
  | .revokeMobile _ _ _ => .revokeMobile
  | .insertLink _ _ _ => .insertLink
  | .useLink _ _ _ => .useLink
  | .incr _ => .count
  | .expire _ => .count
  | .del _ => .count
  | .lapse _ => .count

def kind : Ev → Kind
  | .query (.failures _) _ => .count
  | .query (.recorded _) _ => .count
  | .query (.refreshToken _ _ _ _) _ => .find
  | .query (.mobileToken _ _ _) _ => .find
  | .query _ _ => .plain
  | .update u _ => u.kind
  | .call (.comparePassword _ _) _ => .guess
  | .call (.checkTotp _ _) _ => .guess
  | .call (.respondMobileRefresh _) _ => .respond
  | .call _ _ => .plain
  | .committed _ => .plain
  | .rolledBack => .undo
  | .returned _ => .plain
  | .threw _ => .plain

attribute [local simp] Update.kind kind

/-- Every event of the program is plain or of one of the kinds. -/
def Does (K : List Kind) {α : Type} (p : Prog accounts α) : Prop :=
  p.Only fun e => kind e = .plain ∨ kind e ∈ K

variable {K : List Kind} {α β : Type}

theorem does_bind {p : Prog accounts α} {f : α → Prog accounts β} (hp : Does K p)
    (hf : ∀ a, Does K (f a)) : Does K (p >>= f) := only_bind hp hf

theorem does_ret {a : α} : Does K (.ret a) := only_ret

theorem does_throw {e : Err} : Does K (.throw e : Prog accounts α) := fun _ => .inl rfl

theorem does_ask {q : Query} {f : q.Result → Prog accounts β}
    (hq : ∀ x, kind (.query q x) = .plain) (hf : ∀ x, Does K (f x)) :
    Does K (Prog.query (S := accounts) q .ret >>= f) :=
  only_bind (only_query fun x => .inl (hq x)) hf

theorem does_invoke {c : Call} {f : c.Answer → Prog accounts β}
    (hc : ∀ a, kind (.call c a) = .plain) (hf : ∀ a, Does K (f a)) :
    Does K (Prog.call (S := accounts) c .ret >>= f) :=
  only_bind (only_call fun a => .inl (hc a)) hf

theorem does_throwIf {c : Bool} {e : Err} : Does K (throwIf c e) :=
  only_throwIf fun _ => .inl rfl

theorem does_check {c : Bool} {e : Err} {f : Unit → Prog accounts β} (hf : Does K (f ())) :
    Does K (throwIf c e >>= f) := only_bind does_throwIf fun _ => hf

theorem does_demand {o : Option α} {e : Err} {f : α → Prog accounts β}
    (hf : ∀ a, Does K (f a)) : Does K (orThrow o e >>= f) :=
  only_bind (only_orThrow fun _ => .inl rfl) hf

theorem does_runIf {c : Bool} {p : Prog accounts Unit} (hp : Does K p) : Does K (runIf c p) :=
  only_runIf hp

theorem does_commit : Does K (.commit (.ret ())) := fun _ => ⟨.inl rfl, trivial⟩

/-! ## Statements -/

theorem does_updateMany {u : Update} (hu : u.kind = .plain ∨ u.kind ∈ K) :
    Does K (updateMany u) := only_update fun _ => hu

theorem does_updateOne {u : Update} {e : Err} (hu : u.kind = .plain ∨ u.kind ∈ K) :
    Does K (updateOne u e) := does_bind (does_updateMany hu) fun _ => does_throwIf

theorem does_settle {inTx : Bool} : Does K (settle inTx) := does_runIf does_commit

theorem does_write {inTx : Bool} {u : Update} {e : Err} (hu : u.kind = .plain ∨ u.kind ∈ K) :
    Does K (write inTx u e) := does_bind (does_updateOne hu) fun _ => does_settle

theorem does_updateEach {inTx : Bool} {ids : List Id} {u : Id → Update}
    (hu : ∀ id, (u id).kind ∈ K) : Does K (updateEach inTx ids u) :=
  does_bind (only_each fun id => does_bind (does_updateMany (.inr (hu id))) fun _ => does_ret)
    fun _ => does_settle

theorem does_now {f : Time → Prog accounts β} (hf : ∀ t, Does K (f t)) : Does K (now >>= f) :=
  does_invoke (fun _ => rfl) hf

theorem does_uuid {f : Id → Prog accounts β} (hf : ∀ t, Does K (f t)) : Does K (uuid >>= f) :=
  does_invoke (fun _ => rfl) hf

/-! ## Tokens -/

theorem does_sign {secret : Secret} {payload : Payload} {expiresIn : Nat} {jti : Option Id} :
    Does K (sign secret payload expiresIn jti) := does_invoke (fun _ => rfl) fun _ => does_ret

theorem does_verify {secret : Secret} {raw : RawToken} {message : String} :
    Does K (verify secret raw message) := does_now fun _ => only_orThrow fun _ => .inl rfl

theorem does_createRefreshToken {realm : Realm} {inTx : Bool} {accountId : Id} {jwt : Jwt}
    {e : Err} (h : .insertRefresh ∈ K) :
    Does K (createRefreshToken realm inTx accountId jwt e) :=
  does_uuid fun _ => does_write (.inr h)

theorem does_createMobileRefreshToken {realm : Realm} {inTx : Bool} {accountId familyId : Id}
    {deviceId : String} {tenantId : Option Id} {tenantRole : Option Auth.TenantMemberRole}
    (h : .insertMobile ∈ K) : Does K (createMobileRefreshToken realm inTx accountId deviceId
      familyId tenantId tenantRole) :=
  does_now fun _ => does_uuid fun _ => does_invoke (fun _ => rfl) fun _ =>
    does_bind (does_write (.inr h)) fun _ => does_ret

theorem does_mobileTokenFor {realm : Realm} {inTx : Bool} {accountId : Id}
    {deviceId : Option String} {tenantId : Option Id} {tenantRole : Option Auth.TenantMemberRole}
    (hinsert : .insertMobile ∈ K) (hrevoke : .revokeMobile ∈ K) :
    Does K (mobileTokenFor realm inTx accountId deviceId tenantId tenantRole) := by
  cases deviceId with
  | none => exact does_ret
  | some deviceId =>
      refine does_bind ?_ fun _ => does_ret
      refine does_now fun _ => does_ask (fun _ => rfl) fun _ => ?_
      refine does_bind (does_updateEach fun _ => hrevoke) fun _ => does_uuid fun _ => ?_
      exact does_createMobileRefreshToken hinsert

theorem does_revokeFamily {realm : Realm} {inTx : Bool} {familyId : Id}
    (h : .revokeMobile ∈ K) : Does K (revokeFamily realm inTx familyId) :=
  does_now fun _ => does_ask (fun _ => rfl) fun _ => does_updateEach fun _ => h

theorem does_revokeLike {realm : Realm} {inTx : Bool} {accountId : Id} {raw : RawToken}
    (h : .revokeRefresh ∈ K) : Does K (revokeLike realm inTx accountId raw) :=
  does_now fun _ => does_ask (fun _ => rfl) fun _ => does_updateEach fun _ => h

theorem does_issuePasswordResetToken {realm : Realm} {inTx : Bool} {accountId : Id} {ttlMs : Nat}
    (hinsert : .insertLink ∈ K) (huse : .useLink ∈ K) :
    Does K (issuePasswordResetToken realm inTx accountId ttlMs) := by
  refine does_now fun _ => does_ask (fun _ => rfl) fun _ => ?_
  refine does_bind (does_updateEach fun _ => huse) fun _ => does_now fun _ => does_uuid fun _ => ?_
  exact does_invoke (fun _ => rfl) fun _ => does_bind (does_write (.inr hinsert)) fun _ => does_ret

/-! ## Counters -/

theorem does_assertNotLocked {counter : Counter} {limit : Nat} (h : .count ∈ K) :
    Does K (assertNotLocked counter limit) :=
  does_invoke (fun _ => rfl) fun _ => does_runIf
    (does_bind (only_query fun _ => .inr h) fun _ => does_throwIf)

theorem does_recordFailure {counter : Counter} (h : .count ∈ K) :
    Does K (recordFailure counter) := by
  refine does_invoke (fun _ => rfl) fun _ => does_runIf ?_
  refine does_bind (does_updateMany (.inr h)) fun _ => ?_
  refine does_bind (only_query fun _ => .inr h) fun _ => does_bind does_commit fun _ => ?_
  refine does_runIf (does_invoke (fun _ => rfl) fun _ => does_runIf ?_)
  exact does_bind (does_updateMany (.inr h)) fun _ => does_commit

theorem does_clear {counter : Counter} (h : .count ∈ K) : Does K (clear counter) :=
  does_invoke (fun _ => rfl) fun _ => does_runIf
    (does_bind (does_updateMany (.inr h)) fun _ => does_commit)

/-! ## Requests -/

def Request.kinds : Request → List Kind
  | .login _ _ => [.count, .guess, .insertRefresh, .insertMobile, .revokeMobile]
  | .verifyTwoFactor _ _ _ _ => [.count, .guess, .insertRefresh, .insertMobile, .revokeMobile]
  | .switchTenant _ _ _ _ => [.insertRefresh, .insertMobile, .revokeMobile]
  | .refresh _ _ => [.find, .rotateRefresh, .insertRefresh]
  | .logout _ _ _ => [.revokeRefresh]
  | .mobileRefresh _ _ => [.find, .rotateMobile, .insertMobile, .revokeMobile, .respond]
  | .setupTwoFactor _ _ => []
  | .enableTwoFactor _ _ _ _ => [.count, .guess, .revokeRefresh, .revokeMobile]
  | .disableTwoFactor _ _ _ _ => [.count, .guess, .revokeRefresh, .revokeMobile]
  | .forgotPassword _ _ => [.insertLink, .useLink]
  | .issueLink _ _ _ => [.insertLink, .useLink]
  | .resetPassword _ _ => [.useLink, .revokeRefresh, .revokeMobile]
  | .registerCustomer _ _ => [.insertRefresh, .insertMobile, .revokeMobile]
  | .loginCustomer _ _ => [.count, .guess, .insertRefresh, .insertMobile, .revokeMobile]
  | .refreshCustomer _ _ => [.find, .rotateRefresh, .insertRefresh]
  | .logoutCustomer _ _ => [.revokeRefresh]
  | .mobileRefreshCustomer _ _ => [.find, .rotateMobile, .insertMobile, .revokeMobile, .respond]
  | .forgotPasswordCustomer _ _ => [.insertLink, .useLink]
  | .resetPasswordCustomer _ _ => [.useLink, .revokeRefresh, .revokeMobile]
  | .windowExpires _ => [.count]

theorem does_findUser {userId : Id} {e : Err} : Does K (AuthService.findUser userId e) :=
  does_ask (fun _ => rfl) fun _ => only_orThrow fun _ => .inl rfl

theorem does_currentRole {userId : Id} {tenantId : Option Id}
    {tenantRole : Option Auth.TenantMemberRole} :
    Does K (AuthService.currentRole userId tenantId tenantRole) := by
  cases tenantId with
  | none => exact does_ret
  | some tenantId => exact does_ask (fun _ => rfl) fun _ => does_ret

theorem does_issueTokenPair {inTx : Bool} {userId : Id} {user : User} {tenantId : Option Id}
    {tenantRole : Option Auth.TenantMemberRole} {e : Err} (h : .insertRefresh ∈ K) :
    Does K (AuthService.issueTokenPair inTx userId user tenantId tenantRole e) := by
  refine does_bind does_sign fun _ => does_uuid fun _ => does_bind does_sign fun _ => ?_
  exact does_bind (does_createRefreshToken h) fun _ => does_ret

theorem does_customerTokenPair {customerId tenantId : Id} (h : .insertRefresh ∈ K) :
    Does K (CustomersAuthService.issueTokenPair customerId tenantId) := by
  refine does_bind does_sign fun _ => does_bind does_sign fun _ => ?_
  exact does_bind (does_createRefreshToken h) fun _ => does_ret

theorem does_completeLogin {inTx : Bool} {userId : Id} {deviceId : Option String}
    (hrefresh : .insertRefresh ∈ K) (hinsert : .insertMobile ∈ K) (hrevoke : .revokeMobile ∈ K) :
    Does K (AuthService.completeLogin inTx userId deviceId) := by
  refine does_bind does_findUser fun _ => does_ask (fun _ => rfl) fun _ => ?_
  refine does_bind (does_issueTokenPair hrefresh) fun _ => ?_
  exact does_bind (does_mobileTokenFor hinsert hrevoke) fun _ => does_ret

theorem does_login {limits : Limits} {inTx : Bool} {dto : LoginDto} :
    Does [.count, .guess, .insertRefresh, .insertMobile, .revokeMobile]
      (AuthService.login limits inTx dto) := by
  refine does_bind (does_assertNotLocked (by simp)) fun _ => does_ask (fun _ => rfl) fun found => ?_
  refine does_bind (only_call fun _ => .inr (by simp)) fun valid => ?_
  split
  · exact does_bind (does_recordFailure (by simp)) fun _ => does_throw
  · refine does_bind (does_clear (by simp)) fun _ => ?_
    split
    · exact does_bind does_sign fun _ => does_ret
    · exact does_completeLogin (by simp) (by simp) (by simp)

theorem does_verifyTwoFactor {limits : Limits} {inTx : Bool} {challengeToken : RawToken}
    {code : String} {deviceId : Option String} :
    Does [.count, .guess, .insertRefresh, .insertMobile, .revokeMobile]
      (AuthService.verifyTwoFactor limits inTx challengeToken code deviceId) := by
  refine does_bind does_verify fun _ => does_demand fun _ => ?_
  refine does_bind (does_assertNotLocked (by simp)) fun _ => does_ask (fun _ => rfl) fun _ => ?_
  refine does_demand fun _ => does_bind (only_call fun _ => .inr (by simp)) fun valid => ?_
  split
  · refine does_bind (does_clear (by simp)) fun _ => ?_
    exact does_completeLogin (by simp) (by simp) (by simp)
  · exact does_bind (does_recordFailure (by simp)) fun _ => does_throw

theorem does_switchTenant {inTx : Bool} {userId tenantId : Id} {deviceId : Option String} :
    Does [.insertRefresh, .insertMobile, .revokeMobile]
      (AuthService.switchTenant inTx userId tenantId deviceId) := by
  refine does_ask (fun _ => rfl) fun _ => does_demand fun _ => does_bind does_findUser fun _ => ?_
  refine does_bind (does_issueTokenPair (by simp)) fun _ => ?_
  exact does_bind (does_mobileTokenFor (by simp) (by simp)) fun _ => does_ret

theorem does_refresh {inTx : Bool} {raw : RawToken} :
    Does [.find, .rotateRefresh, .insertRefresh] (AuthService.refresh inTx raw) := by
  refine does_bind does_verify fun _ => ?_
  refine does_bind (only_query fun _ => .inr (by simp)) fun _ => does_now fun _ => ?_
  refine does_demand fun _ => does_now fun _ => does_bind (does_write (.inr ?_)) fun _ => ?_
  · simp
  refine does_bind does_findUser fun _ => does_check (does_bind does_currentRole fun _ => ?_)
  exact does_demand fun _ => does_issueTokenPair (by simp)

theorem does_mobileRefresh {inTx : Bool} {dto : MobileRefreshDto} :
    Does [.find, .rotateMobile, .insertMobile, .revokeMobile, .respond]
      (AuthService.mobileRefresh inTx dto) := by
  refine does_bind (only_query fun _ => .inr (by simp)) fun found => ?_
  split
  · exact does_ret
  split
  · exact does_bind (does_revokeFamily (by simp)) fun _ => does_ret
  refine does_now fun _ => ?_
  split
  · exact does_ret
  refine does_ask (fun _ => rfl) fun user => does_now fun _ => ?_
  split
  · exact does_bind (does_write (.inr (by simp))) fun _ => does_ret
  refine does_bind (does_write (.inr (by simp))) fun _ => ?_
  refine does_bind does_currentRole fun role => ?_
  split
  · exact does_bind (does_revokeFamily (by simp)) fun _ => does_ret
  · refine does_bind (does_createMobileRefreshToken (by simp)) fun _ => ?_
    exact does_bind does_sign fun _ => does_ret

theorem does_revokeOtherSessions {inTx : Bool} {userId : Id} {keep : Option RawToken}
    (hrefresh : .revokeRefresh ∈ K) (hmobile : .revokeMobile ∈ K) :
    Does K (AuthService.revokeOtherSessions inTx userId keep) := by
  refine does_now fun _ => does_ask (fun _ => rfl) fun _ => ?_
  refine does_bind (does_updateEach fun _ => hrefresh) fun _ => does_ask (fun _ => rfl) fun _ => ?_
  exact does_updateEach fun _ => hmobile

theorem does_enableTwoFactor {limits : Limits} {inTx : Bool} {userId : Id} {code : String}
    {keep : Option RawToken} : Does [.count, .guess, .revokeRefresh, .revokeMobile]
      (AuthService.enableTwoFactor limits inTx userId code keep) := by
  refine does_bind (does_assertNotLocked (by simp)) fun _ => does_bind does_findUser fun _ => ?_
  refine does_demand fun _ => does_bind (only_call fun _ => .inr (by simp)) fun valid => ?_
  split
  · refine does_bind (does_clear (by simp)) fun _ => does_bind (does_write (.inl rfl)) fun _ => ?_
    exact does_revokeOtherSessions (by simp) (by simp)
  · exact does_bind (does_recordFailure (by simp)) fun _ => does_throw

theorem does_disableTwoFactor {limits : Limits} {inTx : Bool} {userId : Id} {code : String}
    {keep : Option RawToken} : Does [.count, .guess, .revokeRefresh, .revokeMobile]
      (AuthService.disableTwoFactor limits inTx userId code keep) := by
  refine does_bind (does_assertNotLocked (by simp)) fun _ => does_bind does_findUser fun user => ?_
  refine does_bind (does_runIf ?_) fun _ => ?_
  · refine does_bind ?_ fun _ => does_runIf ?_
    · cases user.totpSecret with
      | none => exact does_ret
      | some secret => exact only_call fun _ => .inr (by simp)
    · exact does_bind (does_recordFailure (by simp)) fun _ => does_throw
  · refine does_bind (does_clear (by simp)) fun _ => does_bind (does_write (.inl rfl)) fun _ => ?_
    exact does_revokeOtherSessions (by simp) (by simp)

theorem does_forgotPassword {inTx : Bool} {email : String} :
    Does [.insertLink, .useLink] (AuthService.forgotPassword inTx email) := by
  refine does_ask (fun _ => rfl) fun found => ?_
  split
  · exact does_ret
  refine does_ask (fun _ => rfl) fun membership => ?_
  split
  · exact does_ret
  refine does_ask (fun _ => rfl) fun _ => does_demand fun _ => ?_
  refine does_bind (does_issuePasswordResetToken (by simp) (by simp)) fun _ => ?_
  exact does_invoke (fun _ => rfl) fun _ => does_throwIf

theorem does_resetPassword {inTx : Bool} {dto : ResetPasswordDto} :
    Does [.useLink, .revokeRefresh, .revokeMobile] (AuthService.resetPassword inTx dto) := by
  refine does_ask (fun _ => rfl) fun _ => does_now fun _ => does_demand fun found => ?_
  refine does_now fun _ => does_bind (does_updateMany (.inr (by simp))) fun _ => ?_
  refine does_check (does_bind does_settle fun _ => does_now fun _ => ?_)
  refine does_ask (fun _ => rfl) fun _ => does_bind (does_updateEach fun _ => ?_) fun _ => ?_
  · simp
  refine does_invoke (fun _ => rfl) fun _ => does_bind (does_write (.inl rfl)) fun _ => ?_
  refine does_now fun _ => does_ask (fun _ => rfl) fun _ => ?_
  refine does_bind (does_updateEach fun _ => by simp) fun _ => does_now fun _ => ?_
  exact does_ask (fun _ => rfl) fun _ => does_updateEach fun _ => by simp

theorem does_registerCustomer {tenantId : Id} {dto : RegisterCustomerDto} :
    Does [.insertRefresh, .insertMobile, .revokeMobile]
      (CustomersAuthService.register tenantId dto) := by
  refine does_ask (fun _ => rfl) fun _ => does_check (does_invoke (fun _ => rfl) fun _ => ?_)
  refine does_uuid fun _ => does_bind (does_write (.inl rfl)) fun _ => ?_
  refine does_bind (does_customerTokenPair (by simp)) fun _ => ?_
  exact does_bind (does_mobileTokenFor (by simp) (by simp)) fun _ => does_ret

theorem does_loginCustomer {limits : Limits} {tenantId : Id} {dto : LoginDto} :
    Does [.count, .guess, .insertRefresh, .insertMobile, .revokeMobile]
      (CustomersAuthService.login limits tenantId dto) := by
  refine does_bind (does_assertNotLocked (by simp)) fun _ => does_ask (fun _ => rfl) fun found => ?_
  refine does_bind (only_call fun _ => .inr (by simp)) fun valid => ?_
  split
  · exact does_bind (does_recordFailure (by simp)) fun _ => does_throw
  · refine does_bind (does_clear (by simp)) fun _ => ?_
    refine does_bind (does_customerTokenPair (by simp)) fun _ => ?_
    exact does_bind (does_mobileTokenFor (by simp) (by simp)) fun _ => does_ret

theorem does_refreshCustomer {tenantId : Id} {raw : RawToken} :
    Does [.find, .rotateRefresh, .insertRefresh] (CustomersAuthService.refresh tenantId raw) := by
  refine does_bind does_verify fun _ => ?_
  refine does_bind (only_query fun _ => .inr (by simp)) fun _ => does_now fun _ => ?_
  refine does_demand fun _ => does_now fun _ => does_bind (does_write (.inr ?_)) fun _ => ?_
  · simp
  exact does_customerTokenPair (by simp)

theorem does_mobileRefreshCustomer {tenantId : Id} {dto : MobileRefreshDto} :
    Does [.find, .rotateMobile, .insertMobile, .revokeMobile, .respond]
      (CustomersAuthService.mobileRefresh tenantId dto) := by
  refine does_bind (only_query fun _ => .inr (by simp)) fun found => ?_
  split
  · exact does_ret
  split
  · exact does_bind (does_revokeFamily (by simp)) fun _ => does_ret
  refine does_now fun _ => ?_
  split
  · exact does_ret
  refine does_ask (fun _ => rfl) fun customer => does_now fun _ => ?_
  split
  · exact does_bind (does_write (.inr (by simp))) fun _ => does_ret
  refine does_bind (does_write (.inr (by simp))) fun _ => ?_
  refine does_bind (does_createMobileRefreshToken (by simp)) fun _ => ?_
  exact does_bind does_sign fun _ => does_ret

theorem does_forgotPasswordCustomer {tenantId : Id} {email : String} :
    Does [.insertLink, .useLink] (CustomersAuthService.forgotPassword tenantId email) := by
  refine does_ask (fun _ => rfl) fun found => ?_
  split
  · exact does_ret
  refine does_ask (fun _ => rfl) fun _ => does_demand fun _ => ?_
  refine does_bind (does_issuePasswordResetToken (by simp) (by simp)) fun _ => ?_
  exact does_invoke (fun _ => rfl) fun _ => does_throwIf

theorem does_resetPasswordCustomer {tenantId : Id} {dto : ResetPasswordDto} :
    Does [.useLink, .revokeRefresh, .revokeMobile]
      (CustomersAuthService.resetPassword tenantId dto) := by
  refine does_ask (fun _ => rfl) fun _ => does_now fun _ => does_demand fun found => ?_
  refine does_ask (fun _ => rfl) fun _ => does_check (does_now fun _ => ?_)
  refine does_bind (does_updateMany (.inr (by simp))) fun _ => does_check ?_
  refine does_now fun _ => does_ask (fun _ => rfl) fun _ => ?_
  refine does_bind (does_updateEach fun _ => by simp) fun _ => ?_
  refine does_invoke (fun _ => rfl) fun _ => does_bind (does_write (.inl rfl)) fun _ => ?_
  refine does_now fun _ => does_ask (fun _ => rfl) fun _ => ?_
  refine does_bind (does_updateEach fun _ => by simp) fun _ => does_now fun _ => ?_
  exact does_ask (fun _ => rfl) fun _ => does_updateEach fun _ => by simp

theorem handler_does (limits : Limits) (r : Request) : Does r.kinds (handler limits r) := by
  cases r with
  | login inTx dto => exact does_bind does_login fun _ => does_ret
  | verifyTwoFactor inTx token code deviceId =>
      exact does_bind does_verifyTwoFactor fun _ => does_ret
  | switchTenant inTx userId tenantId deviceId => exact does_bind does_switchTenant fun _ => does_ret
  | refresh inTx raw => exact does_bind does_refresh fun _ => does_ret
  | logout inTx userId raw =>
      cases raw with
      | none => exact does_ret
      | some raw => exact does_revokeLike (by simp [Request.kinds])
  | mobileRefresh inTx dto =>
      exact does_bind does_mobileRefresh fun _ => only_call fun _ => .inr (by simp [Request.kinds])
  | setupTwoFactor inTx userId =>
      refine does_bind does_findUser fun _ => does_check (does_invoke (fun _ => rfl) fun _ => ?_)
      exact does_write (.inl rfl)
  | enableTwoFactor inTx userId code keep => exact does_enableTwoFactor
  | disableTwoFactor inTx userId code keep => exact does_disableTwoFactor
  | forgotPassword inTx email => exact does_forgotPassword
  | issueLink inTx userId ttlMs =>
      exact does_bind (does_issuePasswordResetToken (by simp [Request.kinds])
        (by simp [Request.kinds])) fun _ => does_ret
  | resetPassword inTx dto => exact does_resetPassword
  | registerCustomer tenantId dto => exact does_bind does_registerCustomer fun _ => does_ret
  | loginCustomer tenantId dto => exact does_bind does_loginCustomer fun _ => does_ret
  | refreshCustomer tenantId raw => exact does_bind does_refreshCustomer fun _ => does_ret
  | logoutCustomer customerId raw =>
      cases raw with
      | none => exact does_ret
      | some raw => exact does_revokeLike (by simp [Request.kinds])
  | mobileRefreshCustomer tenantId dto =>
      exact does_bind does_mobileRefreshCustomer fun _ =>
        only_call fun _ => .inr (by simp [Request.kinds])
  | forgotPasswordCustomer tenantId email => exact does_forgotPasswordCustomer
  | resetPasswordCustomer tenantId dto => exact does_resetPasswordCustomer
  | windowExpires counter =>
      exact does_bind (does_updateMany (.inr (by simp [Request.kinds]))) fun _ => does_ret

end WhatStore.Accounts
