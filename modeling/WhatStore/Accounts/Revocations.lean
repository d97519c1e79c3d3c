import WhatStore.Accounts.Links
import WhatStore.Accounts.Sessions

/-!
# Sessions that have ended

A token that was exchanged, a token of an account whose password was reset or whose
second factor was changed, one that was logged out, and one of the family of a
misused token: whatever runs at the same time, no request that starts later trades it
for new tokens.
-/

namespace WhatStore.Accounts

open ReadCommitted ReadCommitted.Prog

/-- The account whose other sessions a request ends, and the session it keeps. -/
def Request.secures : Request → Option (Id × Option RawToken)
  | .enableTwoFactor _ userId _ keep => some (userId, keep)
  | .disableTwoFactor _ userId _ keep => some (userId, keep)
  | _ => none

/-- Request `i` has found and revoked the token `k`, and has been answered with new
ones. -/
inductive Traded (w : AccountWorld) (i : ℕ) : Key → Prop
  | refresh {r : Request} {tx : List Update} {realm : Realm} {raw : RawToken} {id : Id}
      {time : Time} : ⟨i, r, .returned tx⟩ ∈ w.log → r.refreshes = some (realm, raw) →
      .update (.rotateRefresh realm id time) true ∈ w.own i → Traded w i (.refresh realm id)
  | mobile {r : Request} {accessToken : Jwt} {refreshToken id : Id} {realm : Realm}
      {dto : MobileRefreshDto} {time : Time} :
      ⟨i, r, .call (.respondMobileRefresh (.ok accessToken refreshToken)) ()⟩ ∈ w.log →
      r.exchanges = some (realm, dto) →
      .update (.rotateMobile realm id time) true ∈ w.own i → Traded w i (.mobile realm id)

/-- Request `i` has returned. -/
def Returned (w : AccountWorld) (i : ℕ) : Prop := ∃ r tx, ⟨i, r, .returned tx⟩ ∈ w.log

/-- Request `b` has found the link of the account by the token it was given. -/
def ResetOf (w : AccountWorld) (b : ℕ) (realm : Realm) (raw accountId : Id) : Prop :=
  ∃ scope link, .query (.resetToken realm scope (hashRandom raw)) (some link) ∈ w.own b ∧
    link.2.accountId = accountId

/-- Request `b`, which has returned, ends the session of the token. -/
inductive EndsSession (w : AccountWorld) (b : ℕ) : (k : Key) → Row k → Prop
  | reset {r : Request} {tx : List Update} {realm : Realm} {raw id : Id} {token : RefreshToken} :
      ⟨b, r, .returned tx⟩ ∈ w.log → r.resets = some (realm, raw) →
      (∀ accountId, ResetOf w b realm raw accountId → token.accountId = accountId) →
      EndsSession w b (.refresh realm id) token
  | resetMobile {r : Request} {tx : List Update} {realm : Realm} {raw id : Id}
      {token : MobileRefreshToken} : ⟨b, r, .returned tx⟩ ∈ w.log → r.resets = some (realm, raw) →
      (∀ accountId, ResetOf w b realm raw accountId → token.accountId = accountId) →
      EndsSession w b (.mobile realm id) token
  | secure {r : Request} {tx : List Update} {userId id : Id} {keep : Option RawToken}
      {token : RefreshToken} : ⟨b, r, .returned tx⟩ ∈ w.log → r.secures = some (userId, keep) →
      token.accountId = userId → (∀ kept, keep = some kept → token.tokenHash ≠ hashToken kept) →
      EndsSession w b (.refresh .staff id) token
  | secureMobile {r : Request} {tx : List Update} {userId id : Id} {keep : Option RawToken}
      {token : MobileRefreshToken} : ⟨b, r, .returned tx⟩ ∈ w.log →
      r.secures = some (userId, keep) → token.accountId = userId →
      EndsSession w b (.mobile .staff id) token
  | logout {r : Request} {tx : List Update} {realm : Realm} {accountId id : Id} {raw : RawToken}
      {token : RefreshToken} : ⟨b, r, .returned tx⟩ ∈ w.log →
      r.logsOut = some (realm, accountId, raw) → token.accountId = accountId →
      token.tokenHash = hashToken raw → EndsSession w b (.refresh realm id) token
  | misuse {r : Request} {tx : List Update} {realm : Realm} {dto : MobileRefreshDto}
      {scope : Option Id} {id id' : Id} {stored token : MobileRefreshToken} :
      ⟨b, r, .returned tx⟩ ∈ w.log → r.exchanges = some (realm, dto) →
      .query (.mobileToken realm scope (hashRandom dto.refreshToken)) (some (id', stored)) ∈
        w.own b → stored.misused dto = true → token.familyId = stored.familyId →
      EndsSession w b (.mobile realm id) token

/-! ## What the requests do -/

/-- The tokens of the account were listed and revoked. -/
structure Secured (userId : Id) (keep : Option RawToken) (h : List Ev) : Prop where
  tokens : ∃ (ids : List Id) (time : Time), WentThrough
    (.refreshTokensOf .staff userId (keep.map hashToken)) ids ids
    (fun id => .revokeRefresh .staff id time) h
  mobileTokens : ∃ (ids : List Id) (time : Time), WentThrough (.mobileTokensOf .staff userId) ids ids
    (fun id => .revokeMobile .staff id time) h

def LeftBy (realm : Realm) (accountId : Id) (raw : RawToken) (h : List Ev) : Prop :=
  ∃ (ids : List Id) (time : Time), WentThrough
    (.refreshTokensLike realm accountId (hashToken raw)) ids ids
    (fun id => .revokeRefresh realm id time) h

/-- Only a token that was found, and is not misused, is exchanged. -/
def RotateLaw (r : Request) (h : List Ev) : Ev → Prop
  | .update (.rotateRefresh realm id _) _ => ∃ scope accountId tokenHash token,
      .query (.refreshToken realm scope accountId tokenHash) (some (id, token)) ∈ h
  | .update (.rotateMobile realm id _) _ => ∃ scope dto stored, r.exchanges = some (realm, dto) ∧
      .query (.mobileToken realm scope (hashRandom dto.refreshToken)) (some (id, stored)) ∈ h ∧
      stored.misused dto = false
  | _ => True

/-- What a request that changes the second factor or logs out ends with. -/
def RevokeLaw (r : Request) (h : List Ev) : Ev → Prop
  | .returned _ => (∀ userId keep, r.secures = some (userId, keep) → Secured userId keep h) ∧
      ∀ realm accountId raw, r.logsOut = some (realm, accountId, raw) → LeftBy realm accountId raw h
  | _ => True

structure SessionLaw (r : Request) (h : List Ev) (e : Ev) : Prop where
  token : TokenLaw r h e
  rotate : RotateLaw r h e
  revoke : RevokeLaw r h e

variable {r : Request} {h : List Ev} {α β : Type} {K : List Kind} {inTx : Bool}

/-! ### Exchanges -/

theorem Does.rotates {p : Prog accounts α} (hp : Does K p) (hrefresh : .rotateRefresh ∉ K)
    (hmobile : .rotateMobile ∉ K) : p.Along (RotateLaw r) h fun _ _ => True := by
  refine (hp h).weaken ?_
  intro h e (he : kind e = .plain ∨ kind e ∈ K)
  have hne : kind e ≠ .rotateRefresh ∧ kind e ≠ .rotateMobile := by
    constructor
    · intro hkind
      rw [hkind] at he
      exact he.elim (by simp) hrefresh
    · intro hkind
      rw [hkind] at he
      exact he.elim (by simp) hmobile
  cases e with
  | update u hit => cases u <;> first | trivial | exact absurd rfl hne.1 | exact absurd rfl hne.2
  | _ => trivial

theorem rotates_bind {p : Prog accounts α} {f : α → Prog accounts β}
    (hp : p.Along (RotateLaw r) h fun _ _ => True) (hf : ∀ a h', h <:+ h' →
      (f a).Along (RotateLaw r) h' fun _ _ => True) :
    (p >>= f).Along (RotateLaw r) h fun _ _ => True :=
  along_seq.2 (hp.grows.mono fun a h' hgrown => hf a h' hgrown.1)

theorem rotates_write {u : Update} {e : Err} {p : Prog accounts α} (hu : ∀ hit, RotateLaw r h (.update u hit))
    (hp : Does K p) (hrefresh : .rotateRefresh ∉ K) (hmobile : .rotateMobile ∉ K) :
    (write inTx u e >>= fun _ => p).Along (RotateLaw r) h fun _ _ => True := by
  refine along_seq.2 (along_seq.2 (along_seq.2 fun hit => ⟨hu hit, ?_⟩))
  refine along_throwIf.2 ⟨fun _ => trivial, fun _ => ?_⟩
  refine (does_settle (K := [])).rotates (by simp) (by simp) |>.mono fun _ _ _ => ?_
  exact hp.rotates hrefresh hmobile

variable {realm : Realm} {dto : MobileRefreshDto} {raw : RawToken}

theorem mobileRefresh_rotates : (AuthService.mobileRefresh inTx dto).Along
    (RotateLaw (.mobileRefresh inTx dto)) [] fun _ _ => True := by
  refine along_ask (fun _ => trivial) fun s => ?_
  generalize accounts.eval (.mobileToken .staff none (hashRandom dto.refreshToken)) s = found
  cases found with
  | none => trivial
  | some found =>
      obtain ⟨id, stored⟩ := found
      dsimp only
      split
      · exact (does_bind (does_revokeFamily (K := [.revokeMobile]) (by simp)) fun _ =>
          does_ret).rotates (by simp) (by simp)
      next hgood =>
      refine along_invoke (fun _ => trivial) fun time => ?_
      split
      · trivial
      refine along_ask (fun _ => trivial) fun s => along_invoke (fun _ => trivial) fun time' => ?_
      split
      · exact (does_bind (does_write (K := [.revokeMobile]) (.inr (by simp [Update.kind])))
          fun _ => does_ret).rotates (by simp) (by simp)
      · refine rotates_write (K := [.insertMobile, .revokeMobile]) (fun _ => ?_) ?_ (by simp) (by simp)
        · exact ⟨none, dto, stored, rfl, by simp, by simpa using hgood⟩
        · refine does_bind does_currentRole fun role => ?_
          split
          · exact does_bind (does_revokeFamily (by simp)) fun _ => does_ret
          · refine does_bind (does_createMobileRefreshToken (by simp)) fun _ => ?_
            exact does_bind does_sign fun _ => does_ret

theorem mobileRefreshCustomer_rotates {tenantId : Id} :
    (CustomersAuthService.mobileRefresh tenantId dto).Along
      (RotateLaw (.mobileRefreshCustomer tenantId dto)) [] fun _ _ => True := by
  refine along_ask (fun _ => trivial) fun s => ?_
  generalize accounts.eval (.mobileToken .customer (some tenantId) (hashRandom dto.refreshToken)) s =
    found
  cases found with
  | none => trivial
  | some found =>
      obtain ⟨id, stored⟩ := found
      dsimp only
      split
      · exact (does_bind (does_revokeFamily (K := [.revokeMobile]) (by simp)) fun _ =>
          does_ret).rotates (by simp) (by simp)
      next hgood =>
      refine along_invoke (fun _ => trivial) fun time => ?_
      split
      · trivial
      refine along_ask (fun _ => trivial) fun s => along_invoke (fun _ => trivial) fun time' => ?_
      split
      · exact (does_bind (does_write (K := [.revokeMobile]) (.inr (by simp [Update.kind])))
          fun _ => does_ret).rotates (by simp) (by simp)
      · refine rotates_write (K := [.insertMobile]) (fun _ => ?_) ?_ (by simp) (by simp)
        · exact ⟨some tenantId, dto, stored, rfl, by simp, by simpa using hgood⟩
        · refine does_bind (does_createMobileRefreshToken (by simp)) fun _ => ?_
          exact does_bind does_sign fun _ => does_ret

theorem refresh_rotates : (AuthService.refresh inTx raw).Along (RotateLaw r) [] fun _ _ => True := by
  refine rotates_bind ((does_verify (K := [])).rotates (by simp) (by simp)) fun jwt h' _ => ?_
  refine along_ask (fun _ => trivial) fun s => along_invoke (fun _ => trivial) fun time => ?_
  refine along_seq.2 (along_orThrow.2 ⟨fun _ => trivial, fun stored hstored => ?_⟩)
  refine along_invoke (fun _ => trivial) fun time' => ?_
  refine rotates_write (K := [.insertRefresh]) (fun _ => ?_) ?_ (by simp) (by simp)
  · refine ⟨none, jwt.payload.sub, hashToken raw, stored.2, ?_⟩
    rw [(Option.filter_eq_some_iff.1 hstored).1]
    simp
  · refine does_bind does_findUser fun _ => does_check (does_bind does_currentRole fun _ => ?_)
    exact does_demand fun _ => does_issueTokenPair (by simp)

theorem refreshCustomer_rotates {tenantId : Id} :
    (CustomersAuthService.refresh tenantId raw).Along (RotateLaw r) [] fun _ _ => True := by
  refine rotates_bind ((does_verify (K := [])).rotates (by simp) (by simp)) fun jwt h' _ => ?_
  refine along_ask (fun _ => trivial) fun s => along_invoke (fun _ => trivial) fun time => ?_
  refine along_seq.2 (along_orThrow.2 ⟨fun _ => trivial, fun stored hstored => ?_⟩)
  refine along_invoke (fun _ => trivial) fun time' => ?_
  refine rotates_write (K := [.insertRefresh]) (fun _ => ?_) (does_customerTokenPair (by simp))
    (by simp) (by simp)
  refine ⟨some tenantId, jwt.payload.sub, hashToken raw, stored.2, ?_⟩
  rw [(Option.filter_eq_some_iff.1 hstored).1]
  simp

theorem handler_rotates (limits : Limits) (r : Request) : (handler limits r).Follows (RotateLaw r) := by
  have hrest : ∀ {α : Type} {p : Prog accounts α} {f : α → Prog accounts Unit},
      p.Along (RotateLaw r) [] (fun _ _ => True) → (∀ a, Does [.respond] (f a)) →
        (p >>= f).Along (RotateLaw r) [] fun _ _ => True := by
    intro α p f hp hf
    exact rotates_bind hp fun a h' _ => (hf a).rotates (by simp) (by simp)
  suffices hall : (handler limits r).Along (RotateLaw r) [] fun _ _ => True from
    hall.mono fun _ _ _ => trivial
  cases r with
  | refresh inTx raw => exact hrest refresh_rotates fun _ => does_ret
  | refreshCustomer tenantId raw => exact hrest refreshCustomer_rotates fun _ => does_ret
  | mobileRefresh inTx dto =>
      exact hrest mobileRefresh_rotates fun _ => only_call fun _ => .inr (by simp [kind])
  | mobileRefreshCustomer tenantId dto =>
      exact hrest mobileRefreshCustomer_rotates fun _ => only_call fun _ => .inr (by simp [kind])
  | _ => exact (handler_does limits _).rotates (by simp [Request.kinds]) (by simp [Request.kinds])

/-! ### Revocations -/

theorem revokeOtherSessions_along {userId : Id} {keep : Option RawToken} :
    (AuthService.revokeOtherSessions inTx userId keep).Along (EndLaw r) h fun _ h' =>
      Secured userId keep h' := by
  refine along_now fun time => along_ask (fun _ => trivial) fun s => ?_
  refine along_seq.2 ((updateEach_along (fun _ => rfl) List.mem_cons_self).mono ?_)
  intro _ h₁ htokens
  refine along_ask (fun _ => trivial) fun s' => ?_
  refine (updateEach_along (fun _ => rfl) List.mem_cons_self).mono ?_
  intro _ h₂ hmobile
  refine ⟨⟨_, time, htokens.2.mono ?_⟩, _, time, hmobile.2⟩
  exact (List.suffix_cons _ _).trans hmobile.1.suffix

theorem along_after {p : Prog accounts α} {f : α → Prog accounts β} {Q : β → List Ev → Prop}
    (hp : Does [.count, .guess] p) (hf : ∀ a h', (f a).Along (EndLaw r) h' Q) :
    (p >>= f).Along (EndLaw r) h Q :=
  along_seq.2 ((hp.passes (by simp [Kind.still])).mono fun a h' _ => hf a h')

theorem enableTwoFactor_secures {limits : Limits} {userId : Id} {code : String}
    {keep : Option RawToken} :
    (AuthService.enableTwoFactor limits inTx userId code keep).Along (EndLaw r) [] fun _ h =>
      Secured userId keep h := by
  refine along_after (does_assertNotLocked (by simp)) fun _ _ => ?_
  refine along_after does_findUser fun user _ => ?_
  refine along_seq.2 (along_orThrow.2 ⟨fun _ => trivial, fun totpSecret _ => ?_⟩)
  refine along_invoke (fun _ _ _ h => by cases h) fun valid => ?_
  cases valid with
  | true =>
      refine along_after (does_clear (by simp)) fun _ _ => ?_
      exact along_after (does_write (.inl rfl)) fun _ _ => revokeOtherSessions_along
  | false => exact along_after (does_recordFailure (by simp)) fun _ _ => trivial

theorem disableTwoFactor_secures {limits : Limits} {userId : Id} {code : String}
    {keep : Option RawToken} :
    (AuthService.disableTwoFactor limits inTx userId code keep).Along (EndLaw r) [] fun _ h =>
      Secured userId keep h := by
  refine along_after (does_assertNotLocked (by simp)) fun _ _ => ?_
  refine along_after does_findUser fun user _ => ?_
  refine along_after (does_runIf ?_) fun _ _ => ?_
  · refine does_bind ?_ fun valid => does_runIf ?_
    · cases user.totpSecret with
      | none => exact does_ret
      | some secret => exact only_call fun _ => .inr (by simp [kind])
    · exact does_bind (does_recordFailure (by simp)) fun _ => does_throw
  · refine along_after (does_clear (by simp)) fun _ _ => ?_
    exact along_after (does_write (.inl rfl)) fun _ _ => revokeOtherSessions_along

theorem revokeLike_along {accountId : Id} :
    (revokeLike realm inTx accountId raw).Along (EndLaw r) h fun _ h' =>
      LeftBy realm accountId raw h' := by
  refine along_now fun time => along_ask (fun _ => trivial) fun s => ?_
  refine (updateEach_along (fun _ => rfl) List.mem_cons_self).mono ?_
  exact fun _ _ hwent => ⟨_, time, hwent.2⟩

theorem handler_revokes (limits : Limits) (r : Request) : (handler limits r).Follows (RevokeLaw r) := by
  have hend : ∀ {r : Request} {Q : Unit → List Ev → Prop}, (handler limits r).Along (EndLaw r) [] Q →
      (∀ h, Q () h → RevokeLaw r h (.returned (openTx h))) →
        (handler limits r).Follows (RevokeLaw r) := by
    intro r Q hp hQ
    refine Along.mono (hp.weaken_inside ?_) fun _ h hh => hQ h hh
    intro h e hne _
    cases e with
    | returned tx => exact absurd rfl (hne tx)
    | _ => trivial
  have hnone : ∀ {r : Request}, r.secures = none → r.logsOut = none →
      (handler limits r).Follows (RevokeLaw r) := by
    intro r hsecures hlogsOut
    refine hend (handler_ends limits r) fun h _ => ⟨?_, ?_⟩
    · intro userId keep hr
      cases hsecures.symm.trans hr
    · intro realm accountId raw hr
      cases hlogsOut.symm.trans hr
  have hleft : ∀ {r : Request} {realm : Realm} {accountId : Id} {raw : RawToken},
      r.secures = none → r.logsOut = some (realm, accountId, raw) →
        (handler limits r).Along (EndLaw r) [] (fun _ h => LeftBy realm accountId raw h) →
          (handler limits r).Follows (RevokeLaw r) := by
    intro r realm accountId raw hsecures hlogsOut hp
    refine hend hp fun h hh => ⟨?_, ?_⟩
    · intro userId keep hr
      cases hsecures.symm.trans hr
    · intro realm' accountId' raw' hr
      cases hlogsOut.symm.trans hr
      exact hh
  have hsecured : ∀ {r : Request} {userId : Id} {keep : Option RawToken},
      r.secures = some (userId, keep) → r.logsOut = none →
        (handler limits r).Along (EndLaw r) [] (fun _ h => Secured userId keep h) →
          (handler limits r).Follows (RevokeLaw r) := by
    intro r userId keep hsecures hlogsOut hp
    refine hend hp fun h hh => ⟨?_, ?_⟩
    · intro userId' keep' hr
      cases hsecures.symm.trans hr
      exact hh
    · intro realm accountId raw hr
      cases hlogsOut.symm.trans hr
  cases r with
  | enableTwoFactor inTx userId code keep => exact hsecured rfl rfl enableTwoFactor_secures
  | disableTwoFactor inTx userId code keep => exact hsecured rfl rfl disableTwoFactor_secures
  | logout inTx userId raw =>
      cases raw with
      | none => exact hnone rfl rfl
      | some raw => exact hleft rfl rfl revokeLike_along
  | logoutCustomer customerId raw =>
      cases raw with
      | none => exact hnone rfl rfl
      | some raw => exact hleft rfl rfl revokeLike_along
  | _ => exact hnone rfl rfl

theorem handler_sessions (limits : Limits) (r : Request) :
    (handler limits r).Follows (SessionLaw r) :=
  (((handler_tokenLaw limits r).and (handler_rotates limits r)).and (handler_revokes limits r)).weaken
    fun _ _ hlaw => ⟨hlaw.1.1, hlaw.1.2, hlaw.2⟩

/-! ## Sweeps of tokens -/

def Revoked : (k : Key) → Row k → Prop
  | .refresh _ _, t => t.revokedAt.isSome = true
  | .mobile _ _, t => t.revokedAt.isSome = true
  | _, _ => False

theorem Revoked.stays {k : Key} {x : Row k} {v : Option (Row k)} (hx : Revoked k x)
    (hrel : tokenDiscipline.rel k (some x) v) : ∃ y, v = some y ∧ Revoked k y := by
  cases k with
  | refresh realm id =>
      obtain ⟨y, hy, hsame⟩ := hrel x rfl
      exact ⟨y, hy, hsame.revoked hx⟩
  | mobile realm id =>
      obtain ⟨y, hy, hsame⟩ := hrel x rfl
      exact ⟨y, hy, hsame.revoked hx⟩
  | _ => exact hx.elim

theorem Revoked.moved {k : Key} {x y : Row k} (hx : Revoked k x)
    (hrel : tokenDiscipline.rel k (some x) (some y)) : Revoked k y := by
  obtain ⟨y', hy, hrevoked⟩ := hx.stays hrel
  cases hy
  exact hrevoked

def webSweep (realm : Realm) (C : Id → RefreshHash → Prop) : tokenDiscipline.Sweep where
  member
    | .refresh realm' _, t => realm' = realm ∧ C t.accountId t.tokenHash
    | _, _ => False
  retired := Revoked
  stays k x v hmember hrel := by
    cases k with
    | refresh realm' id =>
        obtain ⟨y, rfl, hsame⟩ := hrel x rfl
        refine ⟨y, rfl, hmember.1, ?_⟩
        rw [hsame.accountId, hsame.tokenHash]
        exact hmember.2
    | _ => exact hmember.elim
  was k x y hrel hmember := by
    cases k with
    | refresh realm' id =>
        obtain ⟨y', hy, hsame⟩ := hrel x rfl
        cases hy
        refine ⟨hmember.1, ?_⟩
        rw [← hsame.accountId, ← hsame.tokenHash]
        exact hmember.2
    | _ => exact hmember.elim
  keeps k x y hrel hretired := hretired.moved hrel

def mobileSweep (realm : Realm) (C : Id → Id → Prop) : tokenDiscipline.Sweep where
  member
    | .mobile realm' _, t => realm' = realm ∧ C t.accountId t.familyId
    | _, _ => False
  retired := Revoked
  stays k x v hmember hrel := by
    cases k with
    | mobile realm' id =>
        obtain ⟨y, rfl, hsame⟩ := hrel x rfl
        refine ⟨y, rfl, hmember.1, ?_⟩
        rw [hsame.accountId, hsame.familyId]
        exact hmember.2
    | _ => exact hmember.elim
  was k x y hrel hmember := by
    cases k with
    | mobile realm' id =>
        obtain ⟨y', hy, hsame⟩ := hrel x rfl
        cases hy
        refine ⟨hmember.1, ?_⟩
        rw [← hsame.accountId, ← hsame.familyId]
        exact hmember.2
    | _ => exact hmember.elim
  keeps k x y hrel hretired := hretired.moved hrel

theorem lists_of_mem {X : tokenDiscipline.Sweep} {q : Query} {a : q.Result} {ids : List Id}
    {key : Id → Key} (hkey : ∀ k x, X.member k x → ∃ id, k = key id)
    (hmem : ∀ s, Query.eval q s = a → ∀ id, id ∈ ids ↔
      ∃ x, s.row (key id) = some x ∧ X.member (key id) x ∧ ¬ X.retired (key id) x) :
    X.Lists q a (ids.map key) := by
  constructor
  · intro s heval k x hrow hmember
    by_cases hretired : X.retired k x
    · exact .inl hretired
    · obtain ⟨id, rfl⟩ := hkey k x hmember
      exact .inr (List.mem_map_of_mem ((hmem s heval id).2 ⟨x, hrow, hmember, hretired⟩))
  · intro s heval k hk
    obtain ⟨id, hid, rfl⟩ := List.mem_map.1 hk
    obtain ⟨x, hrow, hmember, -⟩ := (hmem s heval id).1 hid
    exact ⟨x, hrow, hmember⟩

theorem swept_of_went {X : tokenDiscipline.Sweep} {q : Query} {a : q.Result} {ids : List Id}
    {key : Id → Key} {u : Id → Update} (hu : ∀ id, (u id).key = key id) (hretires : ∀ id, X.Retires (u id))
    (hwent : WentThrough q a ids u h) : X.Swept q a (ids.map key) h := by
  intro k hk
  obtain ⟨id, hid, rfl⟩ := List.mem_map.1 hk
  obtain ⟨hit, late, early, heq, hlisted⟩ := hwent.each id hid
  exact ⟨u id, hit, late, early, heq, hu id, hlisted, hretires id⟩

theorem webSweep_retires {C : Id → RefreshHash → Prop} {id : Id} {time : Time} :
    (webSweep realm C).Retires (.revokeRefresh realm id time) := by
  constructor
  · intro v x hx
    obtain ⟨t, -, rfl⟩ := Option.map_eq_some_iff.1 hx
    rfl
  · intro t hguard
    change Option.isNone (RefreshToken.revokedAt t) = false at hguard
    exact Option.isNone_eq_false_iff.1 hguard

theorem mobileSweep_retires {C : Id → Id → Prop} {id : Id} {time : Time} :
    (mobileSweep realm C).Retires (.revokeMobile realm id time) := by
  constructor
  · intro v x hx
    obtain ⟨t, -, rfl⟩ := Option.map_eq_some_iff.1 hx
    rfl
  · intro t hguard
    change Option.isNone (MobileRefreshToken.revokedAt t) = false at hguard
    exact Option.isNone_eq_false_iff.1 hguard

theorem mem_webIds {s : Database} {p : RefreshToken → Bool} {id : Id} :
    id ∈ (refreshTokensWhere s realm p).map Prod.fst ↔
      ∃ t, s.row (.refresh realm id) = some t ∧ p t = true := by
  constructor
  · intro hid
    obtain ⟨⟨id', t⟩, hfound, rfl⟩ := List.mem_map.1 hid
    exact ⟨t, mem_refreshTokensWhere.1 hfound⟩
  · intro hrow
    obtain ⟨t, ht⟩ := hrow
    exact List.mem_map.2 ⟨(id, t), mem_refreshTokensWhere.2 ht, rfl⟩

theorem mem_mobileIds {s : Database} {p : MobileRefreshToken → Bool} {id : Id} :
    id ∈ (mobileTokensWhere s realm p).map Prod.fst ↔
      ∃ t, s.row (.mobile realm id) = some t ∧ p t = true := by
  constructor
  · intro hid
    obtain ⟨⟨id', t⟩, hfound, rfl⟩ := List.mem_map.1 hid
    exact ⟨t, mem_mobileTokensWhere.1 hfound⟩
  · intro hrow
    obtain ⟨t, ht⟩ := hrow
    exact List.mem_map.2 ⟨(id, t), mem_mobileTokensWhere.2 ht, rfl⟩

theorem webSweep_key {C : Id → RefreshHash → Prop} (k : Key) (x : Row k)
    (h : (webSweep realm C).member k x) : ∃ id, k = .refresh realm id := by
  cases k with
  | refresh realm' id =>
      obtain ⟨rfl, -⟩ := h
      exact ⟨id, rfl⟩
  | _ => exact h.elim

theorem mobileSweep_key {C : Id → Id → Prop} (k : Key) (x : Row k)
    (h : (mobileSweep realm C).member k x) : ∃ id, k = .mobile realm id := by
  cases k with
  | mobile realm' id =>
      obtain ⟨rfl, -⟩ := h
      exact ⟨id, rfl⟩
  | _ => exact h.elim

/-- The web tokens of an account, but the one that is kept. -/
def webOf (realm : Realm) (accountId : Id) (keep : Option RefreshHash) : tokenDiscipline.Sweep :=
  webSweep realm fun account tokenHash => account = accountId ∧ ∀ kept, keep = some kept → tokenHash ≠ kept

theorem lists_refreshTokensOf {accountId : Id} {keep : Option RefreshHash} (ids : List Id) :
    (webOf realm accountId keep).Lists (.refreshTokensOf realm accountId keep) ids
      (ids.map (Key.refresh realm)) := by
  refine lists_of_mem webSweep_key fun s heval id => ?_
  subst heval
  refine mem_webIds.trans (exists_congr fun t => and_congr_right fun _ => ?_)
  cases keep with
  | none => simp [webOf, webSweep, Revoked]
  | some kept => simpa [webOf, webSweep, Revoked, and_assoc] using fun _ => and_comm

/-- The web tokens of an account with the hash of the string. -/
def webLike (realm : Realm) (accountId : Id) (raw : RawToken) : tokenDiscipline.Sweep :=
  webSweep realm fun account tokenHash => account = accountId ∧ tokenHash = hashToken raw

theorem lists_refreshTokensLike {accountId : Id} (ids : List Id) :
    (webLike realm accountId raw).Lists (.refreshTokensLike realm accountId (hashToken raw)) ids
      (ids.map (Key.refresh realm)) := by
  refine lists_of_mem webSweep_key fun s heval id => ?_
  subst heval
  refine mem_webIds.trans (exists_congr fun t => and_congr_right fun _ => ?_)
  simp [webLike, webSweep, Revoked]

def mobileOf (realm : Realm) (accountId : Id) : tokenDiscipline.Sweep :=
  mobileSweep realm fun account _ => account = accountId

theorem lists_mobileTokensOf {accountId : Id} (ids : List Id) :
    (mobileOf realm accountId).Lists (.mobileTokensOf realm accountId) ids
      (ids.map (Key.mobile realm)) := by
  refine lists_of_mem mobileSweep_key fun s heval id => ?_
  subst heval
  refine mem_mobileIds.trans (exists_congr fun t => and_congr_right fun _ => ?_)
  simp [mobileOf, mobileSweep, Revoked]

def familyOf (realm : Realm) (familyId : Id) : tokenDiscipline.Sweep :=
  mobileSweep realm fun _ family => family = familyId

theorem lists_family {familyId : Id} (ids : List Id) :
    (familyOf realm familyId).Lists (.family realm familyId) ids (ids.map (Key.mobile realm)) := by
  refine lists_of_mem mobileSweep_key fun s heval id => ?_
  subst heval
  refine mem_mobileIds.trans (exists_congr fun t => and_congr_right fun _ => ?_)
  simp [familyOf, mobileSweep, Revoked]

/-! ## What a request leaves revoked -/

variable {limits : Limits} {db : Database} {allow : AccountWorld → ℕ → Request → Ev → Prop}
  {w w' : AccountWorld} {b j : ℕ}

def IsRevoked (w : AccountWorld) (k : Key) : Prop := ∃ x, w.db.row k = some x ∧ Revoked k x

theorem own_of_sessions (htrace : World.Trace SessionLaw allow (World.initial db) w)
    {tx : List Update} (hmem : ⟨b, r, .returned tx⟩ ∈ w.log) :
    ∃ earlier, w.own b = .returned tx :: earlier ∧ SessionLaw r earlier (.returned tx) ∧
      (∀ e ∈ w.own b, ¬ e.GivesUp) ∧ w.view b = w.db := by
  have htokens : World.Trace TokenLaw allow (World.initial db) w :=
    htrace.weaken fun _ _ _ hlaw => hlaw.token
  obtain ⟨earlier, hown, -, -, hkeeps⟩ := own_of_returned htokens hmem
  obtain ⟨earlier', hown', hlaw, -⟩ := htrace.own_of_final hmem trivial
  cases (hown.symm.trans hown')
  refine ⟨earlier, hown, hlaw, hkeeps, World.view_of_tx_nil ?_⟩
  rw [(World.Trace.tidy (World.initial_tidy db) htrace).tx_eq b, hown, openTx_returned]

/-- A token that was there when the request began, and which the request has gone
through, is revoked. -/
theorem isRevoked_of_swept {w₀ : AccountWorld}
    (h₀ : World.Trace SessionLaw allow (World.initial db) w₀) (h : World.Trace SessionLaw allow w₀ w)
    (hidle : w₀.own b = []) {tx : List Update} (hmem : ⟨b, r, .returned tx⟩ ∈ w.log)
    {X : tokenDiscipline.Sweep} (hX : ∀ k x, X.retired k x → Revoked k x) {q : Query} {a : q.Result}
    {ids : List Id} {key : Id → Key} {u : Id → Update} {earlier : List Ev}
    (hown : w.own b = .returned tx :: earlier) (hlists : X.Lists q a (ids.map key))
    (hu : ∀ id, (u id).key = key id) (hretires : ∀ id, X.Retires (u id))
    (hwent : WentThrough q a ids u earlier) {k : Key} {token : Row k}
    (hrow : w₀.db.row k = some token) (hmember : X.member k token) : IsRevoked w k := by
  obtain ⟨-, -, -, hkeeps, hview⟩ := own_of_sessions (h₀.trans h) hmem
  have hwent' : WentThrough q a ids u (w.own b) := hwent.mono (hown ▸ List.suffix_cons _ _)
  obtain ⟨x, hx, -, hretired⟩ := Discipline.Sweep.done_of_before tokenDiscipline_kept
    (tokenDiscipline_good db) h₀ h hidle hkeeps hlists (swept_of_went hu hretires hwent')
    hwent'.listed ⟨token, hrow, hmember⟩
  rw [hview] at hx
  exact ⟨x, hx, hX k x hretired⟩

theorem isRevoked_of_ends {w₀ : AccountWorld}
    (h₀ : World.Trace SessionLaw allow (World.initial db) w₀) (h : World.Trace SessionLaw allow w₀ w)
    (hidle : w₀.own b = []) {k : Key} {token : Row k} (hrow : w₀.db.row k = some token)
    (hends : EndsSession w b k token) : IsRevoked w k := by
  cases hends with
  | @reset r tx realm raw id token hmem hr haccount =>
      obtain ⟨earlier, hown, hlaw, -⟩ := own_of_sessions (h₀.trans h) hmem
      obtain ⟨link, hdone⟩ := hlaw.token.ends.reset realm raw hr
      obtain ⟨ids, time, hwent⟩ := hdone.tokens
      obtain ⟨scope, hfound⟩ := hdone.found
      refine isRevoked_of_swept h₀ h hidle hmem (fun _ _ h => h) hown (lists_refreshTokensOf ids)
        (fun _ => rfl) (fun _ => webSweep_retires) hwent hrow ⟨rfl, ?_, by simp⟩
      exact haccount _ ⟨scope, link, hown ▸ List.mem_cons_of_mem _ hfound, rfl⟩
  | @resetMobile r tx realm raw id token hmem hr haccount =>
      obtain ⟨earlier, hown, hlaw, -⟩ := own_of_sessions (h₀.trans h) hmem
      obtain ⟨link, hdone⟩ := hlaw.token.ends.reset realm raw hr
      obtain ⟨ids, time, hwent⟩ := hdone.mobileTokens
      obtain ⟨scope, hfound⟩ := hdone.found
      refine isRevoked_of_swept h₀ h hidle hmem (fun _ _ h => h) hown (lists_mobileTokensOf ids)
        (fun _ => rfl) (fun _ => mobileSweep_retires) hwent hrow ⟨rfl, ?_⟩
      exact haccount _ ⟨scope, link, hown ▸ List.mem_cons_of_mem _ hfound, rfl⟩
  | @secure r tx userId id keep token hmem hr haccount hkept =>
      obtain ⟨earlier, hown, hlaw, -⟩ := own_of_sessions (h₀.trans h) hmem
      obtain ⟨ids, time, hwent⟩ := (hlaw.revoke.1 userId keep hr).tokens
      refine isRevoked_of_swept h₀ h hidle hmem (fun _ _ h => h) hown (lists_refreshTokensOf ids)
        (fun _ => rfl) (fun _ => webSweep_retires) hwent hrow ⟨rfl, haccount, ?_⟩
      intro kept hkeep
      obtain ⟨kept, rfl, rfl⟩ := Option.map_eq_some_iff.1 hkeep
      exact hkept kept rfl
  | @secureMobile r tx userId id keep token hmem hr haccount =>
      obtain ⟨earlier, hown, hlaw, -⟩ := own_of_sessions (h₀.trans h) hmem
      obtain ⟨ids, time, hwent⟩ := (hlaw.revoke.1 userId keep hr).mobileTokens
      exact isRevoked_of_swept h₀ h hidle hmem (fun _ _ h => h) hown (lists_mobileTokensOf ids)
        (fun _ => rfl) (fun _ => mobileSweep_retires) hwent hrow ⟨rfl, haccount⟩
  | @logout r tx realm accountId id raw token hmem hr haccount hhash =>
      obtain ⟨earlier, hown, hlaw, -⟩ := own_of_sessions (h₀.trans h) hmem
      obtain ⟨ids, time, hwent⟩ := hlaw.revoke.2 realm accountId raw hr
      exact isRevoked_of_swept h₀ h hidle hmem (fun _ _ h => h) hown (lists_refreshTokensLike ids)
        (fun _ => rfl) (fun _ => webSweep_retires) hwent hrow ⟨rfl, haccount, hhash⟩
  | @misuse r tx realm dto scope id id' stored token hmem hr hfound hmisused hfamily =>
      obtain ⟨earlier, hown, hlaw, -⟩ := own_of_sessions (h₀.trans h) hmem
      rw [hown] at hfound
      obtain ⟨ids, time, hwent⟩ := hlaw.token.ends.burnt realm dto hr scope id' stored
        ((List.mem_cons.1 hfound).resolve_left (by simp)) hmisused
      exact isRevoked_of_swept h₀ h hidle hmem (fun _ _ h => h) hown (lists_family ids)
        (fun _ => rfl) (fun _ => mobileSweep_retires) hwent hrow ⟨rfl, hfamily⟩

theorem IsRevoked.moved (htrace : World.Trace SessionLaw allow (World.initial db) w)
    (hlater : World.Trace SessionLaw allow w w') {k : Key} (h : IsRevoked w k) : IsRevoked w' k := by
  obtain ⟨x, hx, hrevoked⟩ := h
  have hrel := tokenDiscipline_kept.rel (World.Trace.tidy (World.initial_tidy db) htrace)
    (tokenDiscipline_inv htrace) hlater k
  exact hrevoked.stays (hx ▸ hrel)

/-- What a request that starts later looks up is revoked, if the row was. -/
theorem revoked_of_later (htrace : World.Trace SessionLaw allow (World.initial db) w)
    (hlater : World.Trace SessionLaw allow w w') {k : Key} (h : IsRevoked w k) (hidle : w.own j = [])
    {q : Query} {a : q.Result} (hquery : .query q a ∈ w'.own j) :
    ∃ s x, Query.eval q s = a ∧ s.row k = some x ∧ Revoked k x := by
  obtain ⟨r, hmem⟩ := World.mem_own.1 hquery
  have hnew : (⟨j, r, .query q a⟩ : Entry accounts Request) ∉ w.log := by
    intro hold
    have hown := World.mem_own.2 ⟨r, hold⟩
    rw [hidle] at hown
    cases hown
  obtain ⟨v, v', hv, hm, -⟩ := hlater.exists_move hmem hnew
  obtain ⟨x, hx, hrevoked⟩ := h.moved htrace hv
  have hrel := (tokenDiscipline_inv (htrace.trans hv)).view_rel j k
  obtain ⟨y, hy, hstill⟩ := hrevoked.stays (hx ▸ hrel)
  exact ⟨v.view j, y, hm.act.query_eq, hy, hstill⟩

theorem not_traded_of_revoked (htrace : World.Trace SessionLaw allow (World.initial db) w)
    (hlater : World.Trace SessionLaw allow w w') {k : Key} (h : IsRevoked w k)
    (hidle : w.own j = []) : ¬ Traded w' j k := by
  intro htraded
  have htrace' : World.Trace SessionLaw allow (World.initial db) w' := htrace.trans hlater
  cases htraded with
  | refresh _ _ hrotated =>
      obtain ⟨later, earlier, hown⟩ := List.append_of_mem hrotated
      obtain ⟨v, r, v', -, hm, hearlier, -⟩ := htrace'.exists_own_move j _ _ _ hown
      obtain ⟨scope, accountId, tokenHash, token, hfound⟩ := hm.lawful.rotate
      rw [hearlier] at hfound
      obtain ⟨s, x, heval, hrow, hrevoked⟩ := revoked_of_later htrace hlater h hidle
        (hown ▸ List.mem_append_right later (List.mem_cons_of_mem _ hfound))
      obtain ⟨hrow', -, -, hlive⟩ := row_of_refreshToken heval
      cases hrow.symm.trans hrow'
      rw [Revoked, hlive] at hrevoked
      cases hrevoked
  | mobile _ _ hrotated =>
      obtain ⟨later, earlier, hown⟩ := List.append_of_mem hrotated
      obtain ⟨v, r, v', -, hm, hearlier, -⟩ := htrace'.exists_own_move j _ _ _ hown
      obtain ⟨scope, dto, stored, -, hfound, hgood⟩ := hm.lawful.rotate
      rw [hearlier] at hfound
      obtain ⟨s, x, heval, hrow, hrevoked⟩ := revoked_of_later htrace hlater h hidle
        (hown ▸ List.mem_append_right later (List.mem_cons_of_mem _ hfound))
      cases hrow.symm.trans (row_of_mobileToken heval).1
      rw [Revoked] at hrevoked
      simp [MobileRefreshToken.misused, hrevoked] at hgood

/-- A request that has returned leaves the token it has exchanged revoked. -/
theorem isRevoked_of_rotated (htrace : World.Trace SessionLaw allow (World.initial db) w)
    {tx : List Update} (hmem : ⟨b, r, .returned tx⟩ ∈ w.log) {u : Update}
    (hu : ∀ v x, Update.change u v = some x → Revoked u.key x)
    (hguard : ∀ v, u.guard v = true → (u.change v).isSome = true)
    (hrotated : .update u true ∈ w.own b) : IsRevoked w u.key := by
  obtain ⟨-, -, -, hkeeps, hview⟩ := own_of_sessions htrace hmem
  obtain ⟨later, earlier, hown⟩ := List.append_of_mem hrotated
  rw [IsRevoked, ← hview]
  refine tokenDiscipline_kept.view_since (tokenDiscipline_good db) htrace hkeeps
    (T := fun s => ∃ x, s.row u.key = some x ∧ Revoked u.key x) ?_ hown ?_
  · intro s s' hrel hs
    obtain ⟨x, hx, hrevoked⟩ := hs
    exact hrevoked.stays (hx ▸ hrel u.key)
  · intro v r v' _ hm _
    cases hm.act with
    | hit u hfound hfree =>
        obtain ⟨x, hx⟩ := Option.isSome_iff_exists.1 (hguard _ hfound)
        refine ⟨x, ?_, hu _ x hx⟩
        rw [World.push_view_self]
        exact (applyUpdate_row_self (S := accounts) _ _).trans hx

theorem Traded.isRevoked (htrace : World.Trace SessionLaw allow (World.initial db) w) {k : Key}
    (htraded : Traded w b k) (hreturned : Returned w b) : IsRevoked w k := by
  obtain ⟨r, tx, hmem⟩ := hreturned
  cases htraded with
  | @refresh r tx realm raw id time _ _ hrotated =>
      refine isRevoked_of_rotated htrace hmem (u := .rotateRefresh realm id time) ?_ ?_ hrotated
      · intro v x hx
        obtain ⟨t, -, rfl⟩ := Option.map_eq_some_iff.1 hx
        rfl
      · intro v hv
        exact (Option.isSome_map).trans hv
  | @mobile r accessToken refreshToken id realm dto time _ _ hrotated =>
      refine isRevoked_of_rotated htrace hmem (u := .rotateMobile realm id time) ?_ ?_ hrotated
      · intro v x hx
        obtain ⟨t, -, rfl⟩ := Option.map_eq_some_iff.1 hx
        rfl
      · intro v hv
        exact (Option.isSome_map).trans hv

/-! ## Sessions that have ended -/

/-- **Ended sessions**: when a request that ends the session of a token has returned,
no request that starts later trades it, in every interleaving; the token was there
when the request began. -/
theorem ended_sessions {limits : Limits} {db : Database} {s₀ s t : AccountSystem}
    (h₀ : System.Runs (handler limits) (fun _ => True) (fun _ _ _ _ => True) (System.initial db) s₀)
    (hs : System.Runs (handler limits) (fun _ => True) (fun _ _ _ _ => True) s₀ s)
    (ht : System.Runs (handler limits) (fun _ => True) (fun _ _ _ _ => True) s t)
    {b j : ℕ} {k : Key} {token : Row k} (hb : s₀.proc b = .idle)
    (hrow : s₀.world.db.row k = some token) (hends : EndsSession s.world b k token)
    (hj : s.proc j = .idle) : ¬ Traded t.world j k := by
  obtain ⟨htrace₀, htraced₀⟩ :=
    Traced.trace (fun r _ => handler_sessions limits r) (System.initial_traced db) h₀
  obtain ⟨htrace, htraced⟩ := Traced.trace (fun r _ => handler_sessions limits r) htraced₀ hs
  obtain ⟨hlater, -⟩ := Traced.trace (fun r _ => handler_sessions limits r) htraced ht
  have hrevoked := isRevoked_of_ends htrace₀ htrace (htraced₀.idle b hb) hrow hends
  exact not_traded_of_revoked (htrace₀.trans htrace) hlater hrevoked (htraced.idle j hj)

def phoneToken : MobileRefreshToken := ⟨7, 70, "phone", hashRandom 3, none, none, 9000000, none⟩

def signedIn : Database := invited.set (.mobile .staff 3) (some phoneToken)

def exchangePhone : Request := .mobileRefresh false ⟨3, "phone"⟩

def hasReturned (w : AccountWorld) (i : ℕ) : Bool :=
  w.log.any fun entry => entry.pid == i && match entry.event with
    | .returned _ => true
    | _ => false

theorem returned_of_hasReturned (h : hasReturned w j = true) : Returned w j := by
  obtain ⟨⟨i, r, e⟩, hmem, hentry⟩ := List.any_eq_true.1 h
  simp only [Bool.and_eq_true, beq_iff_eq] at hentry
  obtain ⟨rfl, hreturned⟩ := hentry
  cases e with
  | returned tx => exact ⟨r, tx, hmem⟩
  | _ => cases hreturned

def isIdle (s : AccountSystem) (i : ℕ) : Bool :=
  match s.proc i with
  | .idle => true
  | _ => false

theorem idle_of_isIdle {s : AccountSystem} (h : isIdle s j = true) : s.proc j = .idle := by
  rw [isIdle] at h
  split at h
  · assumption
  · cases h

/-- The first request has reset the account 7 alone, and the second is still to come. -/
def resetDone (s : AccountSystem) : Bool :=
  opened s.world 0 .staff 1 && isIdle s 1 &&
    (s.world.own 0).all fun e => (foundLink (.staff, 1) e).all fun link => link.2.accountId == 7

theorem ends_of_resetDone {s : AccountSystem} (h : resetDone s = true) :
    EndsSession s.world 0 (.mobile .staff 3) phoneToken ∧ s.proc 1 = .idle := by
  obtain ⟨hstart, hfound⟩ := Bool.and_eq_true_iff.1 h
  obtain ⟨hopened, hidle⟩ := Bool.and_eq_true_iff.1 hstart
  obtain ⟨r, tx, hmem, hr⟩ := resetBy_of_opened hopened
  refine ⟨.resetMobile hmem hr fun accountId haccount => ?_, idle_of_isIdle hidle⟩
  obtain ⟨scope, link, hlink, rfl⟩ := haccount
  have hall := List.all_eq_true.1 hfound _ hlink
  simp only [foundLink, and_self, if_true, Option.all_some, beq_iff_eq] at hall
  exact hall.symm

/-- A reset, and an attempt with the phone that was signed in before. -/
theorem ended_sessions_phone : ∃ s t : AccountSystem,
    EndsSession s.world 0 (.mobile .staff 3) phoneToken ∧ Returned t.world 1 ∧
      ¬ Traded t.world 1 (.mobile .staff 3) := by
  obtain ⟨s, t, hs, ht, hreset, hreturned⟩ := System.exists_runs_of_play (handler throttleLimits)
    (fun _ => true) (fun _ _ _ _ => true) (System.initial signedIn)
    [.start 0 (resetWith 1), .steps 0 19 (drawing 50)] [.start 1 exchangePhone, .steps 1 6 (drawing 60)]
    resetDone (fun t => hasReturned t.world 1) (by decide +kernel : _ = some (true, true))
  obtain ⟨hends, hidle⟩ := ends_of_resetDone hreset
  refine ⟨s, t, hends, returned_of_hasReturned hreturned, ?_⟩
  exact ended_sessions .refl (hs.mono (fun _ _ => trivial) fun _ _ _ _ _ => trivial)
    (ht.mono (fun _ _ => trivial) fun _ _ _ _ _ => trivial) rfl rfl hends hidle

/-- What exchanges of tokens promise between a state and a later one: each answered
one has revoked the token it was given, and a request that starts after it trades
another. -/
structure ExchangesHold (s t : AccountSystem) : Prop where
  refreshed : ∀ i r tx realm raw, ⟨i, r, .returned tx⟩ ∈ t.world.log →
    r.refreshes = some (realm, raw) → ∃ id token scope accountId, Traded t.world i (.refresh realm id) ∧
      .query (.refreshToken realm scope accountId (hashToken raw)) (some (id, token)) ∈ t.world.own i
  renewed : ∀ i r accessToken refreshToken realm dto,
    ⟨i, r, .call (.respondMobileRefresh (.ok accessToken refreshToken)) ()⟩ ∈ t.world.log →
    r.exchanges = some (realm, dto) → ∃ id stored scope, Traded t.world i (.mobile realm id) ∧
      .query (.mobileToken realm scope (hashRandom dto.refreshToken)) (some (id, stored)) ∈
        t.world.own i
  once : ∀ i j k, Traded s.world i k → Returned s.world i → s.proc j = .idle → ¬ Traded t.world j k

/-- **Exchanges**: in every interleaving a token is traded by no request that starts
after the exchange of it has returned. -/
theorem exchanges_hold {limits : Limits} {db : Database} {s t : AccountSystem}
    (hs : System.Runs (handler limits) (fun _ => True) (fun _ _ _ _ => True) (System.initial db) s)
    (ht : System.Runs (handler limits) (fun _ => True) (fun _ _ _ _ => True) s t) :
    ExchangesHold s t := by
  obtain ⟨htrace, htraced⟩ :=
    Traced.trace (fun r _ => handler_sessions limits r) (System.initial_traced db) hs
  obtain ⟨hlater, -⟩ := Traced.trace (fun r _ => handler_sessions limits r) htraced ht
  have htrace' := htrace.trans hlater
  constructor
  · intro i r tx realm raw hmem hr
    obtain ⟨earlier, hown, hlaw, -⟩ := own_of_sessions htrace' hmem
    obtain ⟨scope, accountId, id, token, time, -, late, early, rfl, hfound⟩ :=
      hlaw.token.ends.refreshed realm raw hr
    have hrotated : (.update (.rotateRefresh realm id time) true : Ev) ∈ t.world.own i := by
      simp [hown]
    exact ⟨id, token, scope, accountId, .refresh hmem hr hrotated, by simp [hown, hfound]⟩
  · intro i r accessToken refreshToken realm dto hmem hr
    obtain ⟨v, v', hv, hm, hrest⟩ := World.Trace.exists_move htrace' hmem List.not_mem_nil
    obtain ⟨scope, id, stored, time, -, late, early, hown, hfound⟩ :=
      hm.lawful.token.ends accessToken refreshToken rfl realm dto hr
    have hsuffix : v.own i <:+ t.world.own i := by
      refine .trans ?_ (hrest.own_suffix i)
      rw [hm.act.own_self]
      exact List.suffix_cons _ _
    have hrotated : (.update (.rotateMobile realm id time) true : Ev) ∈ t.world.own i :=
      hsuffix.subset (by simp [hown])
    exact ⟨id, stored, scope, .mobile hmem hr hrotated, hsuffix.subset (by simp [hown, hfound])⟩
  · intro i j k htraded hreturned hj
    exact not_traded_of_revoked htrace hlater (htraded.isRevoked htrace hreturned) (htraced.idle j hj)

/-- The first request has traded the token of the phone and has returned, and the
second is still to come. -/
def exchangeDone (s : AccountSystem) : Bool :=
  hasReturned s.world 0 && isIdle s 1 &&
    (s.world.log.any fun entry => entry.pid == 0 && match entry.event, entry.request with
      | .call (.respondMobileRefresh (.ok _ _)) (), .mobileRefresh _ _ => true
      | _, _ => false) &&
    (s.world.own 0).any fun e => match e with
      | .update (.rotateMobile .staff 3 _) true => true
      | _ => false

theorem traded_of_exchangeDone {s : AccountSystem} (h : exchangeDone s = true) :
    Traded s.world 0 (.mobile .staff 3) ∧ Returned s.world 0 ∧ s.proc 1 = .idle := by
  simp only [exchangeDone, Bool.and_eq_true] at h
  obtain ⟨⟨⟨hreturned, hidle⟩, hanswer⟩, hrotated⟩ := h
  obtain ⟨⟨i, r, e⟩, hmem, hentry⟩ := List.any_eq_true.1 hanswer
  simp only [Bool.and_eq_true, beq_iff_eq] at hentry
  obtain ⟨rfl, hentry⟩ := hentry
  split at hentry
  · next accessToken refreshToken inTx dto =>
      obtain ⟨e, he, hrotate⟩ := List.any_eq_true.1 hrotated
      split at hrotate
      · next time =>
          exact ⟨.mobile hmem rfl he, returned_of_hasReturned hreturned, idle_of_isIdle hidle⟩
      · cases hrotate
  · cases hentry

/-- The phone trades its token, and presents it a second time. -/
theorem exchanges_hold_phone : ∃ s t : AccountSystem, Traded s.world 0 (.mobile .staff 3) ∧
    Returned t.world 1 ∧ ¬ Traded t.world 1 (.mobile .staff 3) := by
  obtain ⟨s, t, hs, ht, hdone, hreturned⟩ := System.exists_runs_of_play (handler throttleLimits)
    (fun _ => true) (fun _ _ _ _ => true) (System.initial signedIn)
    [.start 0 exchangePhone, .steps 0 14 (drawing 50)] [.start 1 exchangePhone, .steps 1 7 (drawing 60)]
    exchangeDone (fun t => hasReturned t.world 1) (by decide +kernel : _ = some (true, true))
  obtain ⟨htraded, hfirst, hidle⟩ := traded_of_exchangeDone hdone
  refine ⟨s, t, htraded, returned_of_hasReturned hreturned, ?_⟩
  exact (exchanges_hold (hs.mono (fun _ _ => trivial) fun _ _ _ _ _ => trivial)
    (ht.mono (fun _ _ => trivial) fun _ _ _ _ _ => trivial)).once 0 1 _ htraded hfirst hidle

end WhatStore.Accounts
