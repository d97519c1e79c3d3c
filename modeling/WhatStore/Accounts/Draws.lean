import WhatStore.Accounts.Tokens

/-!
# Tokens are drawn before they are stored

Every request stores a link or a mobile token right after it has drawn the random
number behind it.
-/

namespace WhatStore.Accounts

open ReadCommitted ReadCommitted.Prog

def Draws {α : Type} (p : Prog accounts α) : Prop := ∀ h, p.Along DrawLaw h fun _ _ => True

variable {K : List Kind} {α β : Type}

theorem Does.draws {p : Prog accounts α} (hp : Does K p) (hmobile : .insertMobile ∉ K)
    (hlink : .insertLink ∉ K) : Draws p := by
  refine fun h => (hp h).weaken fun h e he => ?_
  cases e with
  | update u hit =>
      intro stored hstored
      have hkind : u.kind = .insertMobile ∨ u.kind = .insertLink := by
        cases u with
        | insertMobile realm id row => exact .inl rfl
        | insertLink realm id row => exact .inr rfl
        | _ => cases hstored
      rcases hkind with hkind | hkind <;> rcases he with he | he <;>
        rw [show kind (.update u hit) = u.kind from rfl, hkind] at he
      · cases he
      · exact absurd he hmobile
      · cases he
      · exact absurd he hlink
  | _ => trivial

theorem draws_bind {p : Prog accounts α} {f : α → Prog accounts β} (hp : Draws p)
    (hf : ∀ a, Draws (f a)) : Draws (p >>= f) :=
  fun h => along_seq.2 ((hp h).mono fun a h' _ => hf a h')

theorem draws_ret {a : α} : Draws (.ret a) := fun _ => trivial

theorem draws_throw {e : Err} : Draws (.throw e : Prog accounts α) := fun _ => trivial

theorem draws_ask {q : Query} {f : q.Result → Prog accounts β} (hf : ∀ x, Draws (f x)) :
    Draws (Prog.query (S := accounts) q .ret >>= f) :=
  fun _ => along_ask (fun _ => trivial) fun _ => hf _ _

theorem draws_invoke {c : Call} {f : c.Answer → Prog accounts β} (hf : ∀ a, Draws (f a)) :
    Draws (Prog.call (S := accounts) c .ret >>= f) :=
  fun _ => along_invoke (fun _ => trivial) fun _ => hf _ _

theorem draws_demand {o : Option α} {e : Err} {f : α → Prog accounts β} (hf : ∀ a, Draws (f a)) :
    Draws (orThrow o e >>= f) :=
  fun _ => along_seq.2 (along_orThrow.2 ⟨fun _ => trivial, fun _ _ => hf _ _⟩)

theorem draws_check {c : Bool} {e : Err} {f : Unit → Prog accounts β} (hf : Draws (f ())) :
    Draws (throwIf c e >>= f) :=
  fun _ => along_seq.2 (along_throwIf.2 ⟨fun _ => trivial, fun _ => hf _⟩)

theorem draws_settle {inTx : Bool} : Draws (settle inTx) :=
  (does_settle (K := [])).draws (by simp) (by simp)

/-- A row that is stored under the hash of what was just drawn. -/
theorem draws_store {inTx : Bool} {u : Id → Update} {e : Err} {f : Id → Prog accounts β}
    (hu : ∀ raw stored, (u raw).stores = some stored → stored.2.ofToken = raw)
    (hf : ∀ raw, Draws (f raw)) :
    Draws (Prog.call (S := accounts) .randomBytes .ret >>= fun raw : Id =>
      write inTx (u raw) e >>= fun _ => f raw) := by
  refine fun h => along_invoke (fun _ => trivial) fun raw => ?_
  refine along_seq.2 (along_seq.2 (along_seq.2 fun hit => ⟨fun stored hstored => ?_, ?_⟩))
  · rw [hu raw stored hstored]
    rfl
  · refine along_throwIf.2 ⟨fun _ => trivial, fun _ => ?_⟩
    exact (draws_settle _).mono fun _ h _ => hf raw h

variable {inTx : Bool} {realm : Realm} {accountId : Id} {tenantId : Option Id}
  {tenantRole : Option Auth.TenantMemberRole} {deviceId : Option String}

theorem createMobileRefreshToken_draws {deviceId : String} {familyId : Id} :
    Draws (createMobileRefreshToken realm inTx accountId deviceId familyId tenantId tenantRole) := by
  refine draws_invoke fun _ => draws_invoke fun _ => draws_store (fun raw stored hstored => ?_)
    fun _ => draws_ret
  cases hstored
  rfl

theorem mobileTokenFor_draws :
    Draws (mobileTokenFor realm inTx accountId deviceId tenantId tenantRole) := by
  cases deviceId with
  | none => exact draws_ret
  | some deviceId =>
      refine draws_bind ?_ fun _ => draws_ret
      refine draws_invoke fun _ => draws_ask fun _ => draws_bind ?_ fun _ => draws_invoke fun _ => ?_
      · exact (does_updateEach (K := [.revokeMobile]) fun _ => by simp [Update.kind]).draws
          (by simp) (by simp)
      · exact createMobileRefreshToken_draws

theorem issuePasswordResetToken_draws {ttlMs : Nat} :
    Draws (issuePasswordResetToken realm inTx accountId ttlMs) := by
  refine draws_invoke fun _ => draws_ask fun _ => draws_bind ?_ fun _ => ?_
  · exact (does_updateEach (K := [.useLink]) fun _ => by simp [Update.kind]).draws (by simp)
      (by simp)
  · refine draws_invoke fun _ => draws_invoke fun _ => draws_store (fun raw stored hstored => ?_)
      fun _ => draws_ret
    cases hstored
    rfl

/-! ## Requests -/

theorem draws_part {p : Prog accounts α} (hp : Does [.count, .guess, .insertRefresh, .rotateRefresh,
    .revokeRefresh, .rotateMobile, .revokeMobile, .useLink, .respond] p) : Draws p :=
  hp.draws (by simp) (by simp)

theorem completeLogin_draws {userId : Id} : Draws (AuthService.completeLogin inTx userId deviceId) := by
  refine draws_bind (draws_part does_findUser) fun _ => draws_ask fun _ => ?_
  refine draws_bind (draws_part (does_issueTokenPair (by simp))) fun _ => ?_
  exact draws_bind mobileTokenFor_draws fun _ => draws_ret

theorem login_draws {limits : Limits} {dto : LoginDto} :
    Draws (AuthService.login limits inTx dto) := by
  refine draws_bind (draws_part (does_assertNotLocked (by simp))) fun _ => draws_ask fun _ => ?_
  refine draws_invoke fun _ => ?_
  split
  · exact draws_bind (draws_part (does_recordFailure (by simp))) fun _ => draws_throw
  · refine draws_bind (draws_part (does_clear (by simp))) fun _ => ?_
    split
    · exact draws_bind (draws_part does_sign) fun _ => draws_ret
    · exact completeLogin_draws

theorem verifyTwoFactor_draws {limits : Limits} {challengeToken : RawToken} {code : String} :
    Draws (AuthService.verifyTwoFactor limits inTx challengeToken code deviceId) := by
  refine draws_bind (draws_part does_verify) fun _ => draws_demand fun _ => ?_
  refine draws_bind (draws_part (does_assertNotLocked (by simp))) fun _ => draws_ask fun _ => ?_
  refine draws_demand fun _ => draws_invoke fun valid => ?_
  cases valid with
  | true =>
      exact draws_bind (draws_part (does_clear (by simp))) fun _ => completeLogin_draws
  | false => exact draws_bind (draws_part (does_recordFailure (by simp))) fun _ => draws_throw

theorem switchTenant_draws {userId tenantId : Id} :
    Draws (AuthService.switchTenant inTx userId tenantId deviceId) := by
  refine draws_ask fun _ => draws_demand fun _ => draws_bind (draws_part does_findUser) fun _ => ?_
  refine draws_bind (draws_part (does_issueTokenPair (by simp))) fun _ => ?_
  exact draws_bind mobileTokenFor_draws fun _ => draws_ret

theorem mobileRefresh_draws {dto : MobileRefreshDto} :
    Draws (AuthService.mobileRefresh inTx dto) := by
  refine draws_ask fun found => ?_
  split
  · exact draws_ret
  split
  · exact draws_bind (draws_part (does_revokeFamily (by simp))) fun _ => draws_ret
  refine draws_invoke fun _ => ?_
  split
  · exact draws_ret
  refine draws_ask fun user => draws_invoke fun _ => ?_
  split
  · exact draws_bind (draws_part (does_write (.inr (by simp [Update.kind])))) fun _ => draws_ret
  refine draws_bind (draws_part (does_write (.inr (by simp [Update.kind])))) fun _ => ?_
  refine draws_bind (draws_part does_currentRole) fun role => ?_
  split
  · exact draws_bind (draws_part (does_revokeFamily (by simp))) fun _ => draws_ret
  · refine draws_bind createMobileRefreshToken_draws fun _ => ?_
    exact draws_bind (draws_part does_sign) fun _ => draws_ret

theorem forgotPassword_draws {email : String} : Draws (AuthService.forgotPassword inTx email) := by
  refine draws_ask fun found => ?_
  split
  · exact draws_ret
  refine draws_ask fun membership => ?_
  split
  · exact draws_ret
  refine draws_ask fun _ => draws_demand fun _ => draws_bind issuePasswordResetToken_draws fun _ => ?_
  exact draws_invoke fun _ => draws_part does_throwIf

theorem registerCustomer_draws {tenantId : Id} {dto : RegisterCustomerDto} :
    Draws (CustomersAuthService.register tenantId dto) := by
  refine draws_ask fun _ => draws_check (draws_invoke fun _ => draws_invoke fun _ => ?_)
  refine draws_bind (draws_part (does_write (.inl rfl))) fun _ => ?_
  refine draws_bind (draws_part (does_customerTokenPair (by simp))) fun _ => ?_
  exact draws_bind mobileTokenFor_draws fun _ => draws_ret

theorem loginCustomer_draws {limits : Limits} {tenantId : Id} {dto : LoginDto} :
    Draws (CustomersAuthService.login limits tenantId dto) := by
  refine draws_bind (draws_part (does_assertNotLocked (by simp))) fun _ => draws_ask fun _ => ?_
  refine draws_invoke fun _ => ?_
  split
  · exact draws_bind (draws_part (does_recordFailure (by simp))) fun _ => draws_throw
  · refine draws_bind (draws_part (does_clear (by simp))) fun _ => ?_
    refine draws_bind (draws_part (does_customerTokenPair (by simp))) fun _ => ?_
    exact draws_bind mobileTokenFor_draws fun _ => draws_ret

theorem mobileRefreshCustomer_draws {tenantId : Id} {dto : MobileRefreshDto} :
    Draws (CustomersAuthService.mobileRefresh tenantId dto) := by
  refine draws_ask fun found => ?_
  split
  · exact draws_ret
  split
  · exact draws_bind (draws_part (does_revokeFamily (by simp))) fun _ => draws_ret
  refine draws_invoke fun _ => ?_
  split
  · exact draws_ret
  refine draws_ask fun customer => draws_invoke fun _ => ?_
  split
  · exact draws_bind (draws_part (does_write (.inr (by simp [Update.kind])))) fun _ => draws_ret
  refine draws_bind (draws_part (does_write (.inr (by simp [Update.kind])))) fun _ => ?_
  refine draws_bind createMobileRefreshToken_draws fun _ => ?_
  exact draws_bind (draws_part does_sign) fun _ => draws_ret

theorem forgotPasswordCustomer_draws {tenantId : Id} {email : String} :
    Draws (CustomersAuthService.forgotPassword tenantId email) := by
  refine draws_ask fun found => ?_
  split
  · exact draws_ret
  refine draws_ask fun _ => draws_demand fun _ => draws_bind issuePasswordResetToken_draws fun _ => ?_
  exact draws_invoke fun _ => draws_part does_throwIf

/-- Every request stores what it has drawn right before. -/
theorem handler_draws (limits : Limits) (r : Request) : Draws (handler limits r) := by
  cases r with
  | login inTx dto => exact draws_bind login_draws fun _ => draws_ret
  | verifyTwoFactor inTx token code deviceId =>
      exact draws_bind verifyTwoFactor_draws fun _ => draws_ret
  | switchTenant inTx userId tenantId deviceId =>
      exact draws_bind switchTenant_draws fun _ => draws_ret
  | mobileRefresh inTx dto => exact draws_bind mobileRefresh_draws fun _ => draws_invoke fun _ => draws_ret
  | forgotPassword inTx email => exact forgotPassword_draws
  | issueLink inTx userId ttlMs => exact draws_bind issuePasswordResetToken_draws fun _ => draws_ret
  | registerCustomer tenantId dto => exact draws_bind registerCustomer_draws fun _ => draws_ret
  | loginCustomer tenantId dto => exact draws_bind loginCustomer_draws fun _ => draws_ret
  | mobileRefreshCustomer tenantId dto =>
      exact draws_bind mobileRefreshCustomer_draws fun _ => draws_invoke fun _ => draws_ret
  | forgotPasswordCustomer tenantId email => exact forgotPasswordCustomer_draws
  | _ => exact (handler_does limits _).draws (by simp [Request.kinds]) (by simp [Request.kinds])

end WhatStore.Accounts
