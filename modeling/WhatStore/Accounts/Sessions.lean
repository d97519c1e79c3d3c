import WhatStore.Accounts.Kinds
import WhatStore.ReadCommitted.Sequential

/-!
# Web refresh tokens are single-use

Requests served one after the other, at any times. A refresh revokes the row it
finds under the hash of its string, so a string is accepted once as long as no
two rows have it. The tokens of staff are told apart by their `jwtid`; those of
one customer only by the second in which they were issued.
-/

namespace WhatStore.Accounts

open ReadCommitted ReadCommitted.Prog

/-- A request with what the outside answers while it is served. -/
structure Served where
  answer : Answers accounts
  request : Request

def after (limits : Limits) : Database → List Served → Database
  | db, [] => db
  | db, x :: xs => after limits (serve x.answer (handler limits x.request) db) xs

def Request.logsOut : Request → Option (Realm × Id × RawToken)
  | .logout _ userId (some raw) => some (.staff, userId, raw)
  | .logoutCustomer customerId (some raw) => some (.customer, customerId, raw)
  | _ => none

/-- A row has the hash of the string; it belongs to the account. -/
def Stored (db : Database) (realm : Realm) (raw : RawToken) (accountId : Id) : Prop :=
  ∃ id token, db.row (.refresh realm id) = some token ∧ token.tokenHash = hashToken raw ∧
    token.accountId = accountId

/-- The request is a refresh with the string, and is answered with new tokens. -/
def Accepted (limits : Limits) (db : Database) (x : Served) (realm : Realm) (raw : RawToken) :
    Prop :=
  x.request.refreshes = some (realm, raw) ∧ Succeeds x.answer (handler limits x.request) db

/-- The request is a logout with a string that was issued. -/
def LoggedOut (limits : Limits) (db : Database) (x : Served) (realm : Realm) (raw : RawToken) :
    Prop :=
  (∃ accountId issuedTo, x.request.logsOut = some (realm, accountId, raw) ∧
    Stored db realm raw issuedTo) ∧ Succeeds x.answer (handler limits x.request) db

/-- No string is accepted after it was accepted, or after a logout with it. -/
def SingleUse (limits : Limits) (db : Database) (xs : List Served) : Prop :=
  ∀ before x mid y rest realm raw, xs = before ++ x :: (mid ++ y :: rest) →
    Accepted limits (after limits db before) x realm raw ∨
      LoggedOut limits (after limits db before) x realm raw →
    ¬ Accepted limits (after limits db (before ++ x :: mid)) y realm raw

/-! ## When they are -/

def Serves (db : Database) (x : Served) (customerId : Id) : Prop :=
  match x.request with
  | .registerCustomer _ _ => ∃ n, x.answer n .uuid = customerId
  | .loginCustomer tenantId dto =>
      ∃ c, Query.eval (.customerByEmail tenantId dto.email) db = some (customerId, c)
  | .refreshCustomer _ (.signed jwt) => jwt.payload.sub = customerId
  | _ => False

/-- No uuid is drawn that a staff token has as its `jwtid`, no customer is issued two
tokens in the same second, and who logs out does so with a token of their own. -/
structure Orderly (db : Database) (x : Served) : Prop where
  uuids : ∀ n id token jwt, db.row (.refresh .staff id) = some token →
    token.tokenHash = ⟨.signed jwt⟩ → jwt.jti ≠ some (x.answer n .uuid)
  seconds : ∀ n id token jwt, db.row (.refresh .customer id) = some token →
    Serves db x token.accountId → token.tokenHash = ⟨.signed jwt⟩ → jwt.iat ≠ x.answer n .issuedAt
  owner : ∀ realm accountId raw issuedTo, x.request.logsOut = some (realm, accountId, raw) →
    Stored db realm raw issuedTo → issuedTo = accountId

def OrderlyRun (limits : Limits) : Database → List Served → Prop
  | _, [] => True
  | db, x :: xs => Orderly db x ∧ OrderlyRun limits (serve x.answer (handler limits x.request) db) xs

/-! ## The rows of refresh tokens -/

/-- Every stored hash is that of a token of the row's account, and no two rows of a
realm have the same one. -/
structure Sound (db : Database) : Prop where
  signed : ∀ realm id token, db.row (.refresh realm id) = some token →
    ∃ jwt, token.tokenHash = ⟨.signed jwt⟩ ∧ jwt.payload.sub = token.accountId
  distinct : ∀ realm id id' token token', db.row (.refresh realm id) = some token →
    db.row (.refresh realm id') = some token' → token.tokenHash = token'.tokenHash → id = id'

def Dead (db : Database) (realm : Realm) (raw : RawToken) : Prop :=
  ∃ id token, db.row (.refresh realm id) = some token ∧ token.tokenHash = hashToken raw ∧
    token.revokedAt.isSome = true

def Live (db : Database) (realm : Realm) (raw : RawToken) : Prop :=
  ∃ id token, db.row (.refresh realm id) = some token ∧ token.tokenHash = hashToken raw ∧
    token.revokedAt = none

theorem Sound.not_live {db : Database} (h : Sound db) {realm : Realm} {raw : RawToken}
    (hdead : Dead db realm raw) : ¬ Live db realm raw := by
  rintro ⟨id, token, hrow, hhash, hlive⟩
  obtain ⟨id', token', hrow', hhash', hrevoked⟩ := hdead
  have hid := h.distinct realm id id' token token' hrow hrow' (hhash.trans hhash'.symm)
  subst hid
  cases hrow.symm.trans hrow'
  rw [hlive] at hrevoked
  cases hrevoked

/-- The row of a token, whoever revokes it in the meantime. -/
def SameToken (token token' : RefreshToken) : Prop :=
  token'.accountId = token.accountId ∧ token'.tokenHash = token.tokenHash ∧
    (token.revokedAt.isSome = true → token'.revokedAt.isSome = true)

theorem SameToken.refl (token : RefreshToken) : SameToken token token := ⟨rfl, rfl, id⟩

/-- The refresh tokens of `db'` are those of `db`, some of them revoked since. -/
structure SameTokens (db db' : Database) : Prop where
  forth : ∀ realm id token, db.row (.refresh realm id) = some token →
    ∃ token', db'.row (.refresh realm id) = some token' ∧ SameToken token token'
  back : ∀ realm id token', db'.row (.refresh realm id) = some token' →
    ∃ token, db.row (.refresh realm id) = some token ∧ SameToken token token'

theorem SameTokens.refl (db : Database) : SameTokens db db where
  forth _ _ token h := ⟨token, h, .refl token⟩
  back _ _ token h := ⟨token, h, .refl token⟩

theorem SameTokens.trans {db db' db'' : Database} (h : SameTokens db db')
    (h' : SameTokens db' db'') : SameTokens db db'' := by
  constructor
  · intro realm id token hrow
    obtain ⟨token', hrow', h1, h2, h3⟩ := h.forth realm id token hrow
    obtain ⟨token'', hrow'', h1', h2', h3'⟩ := h'.forth realm id token' hrow'
    exact ⟨token'', hrow'', h1'.trans h1, h2'.trans h2, fun hr => h3' (h3 hr)⟩
  · intro realm id token'' hrow''
    obtain ⟨token', hrow', h1', h2', h3'⟩ := h'.back realm id token'' hrow''
    obtain ⟨token, hrow, h1, h2, h3⟩ := h.back realm id token' hrow'
    exact ⟨token, hrow, h1'.trans h1, h2'.trans h2, fun hr => h3' (h3 hr)⟩

/-- Only the creation of a token changes which tokens there are. -/
theorem sameTokens_apply {u : Update} (hu : u.kind ≠ .insertRefresh) (db : Database) :
    SameTokens db (applyUpdate (S := accounts) u db) := by
  have hother : (∀ realm id, Key.refresh realm id ≠ u.key) →
      SameTokens db (applyUpdate (S := accounts) u db) := by
    intro hne
    have hrow : ∀ realm id, (applyUpdate (S := accounts) u db).row (.refresh realm id) =
        db.row (.refresh realm id) := fun realm id => applyUpdate_row_of_ne (S := accounts) u db (hne realm id)
    constructor
    · intro realm id token h
      exact ⟨token, (hrow realm id).trans h, .refl token⟩
    · intro realm id token h
      exact ⟨token, (hrow realm id).symm.trans h, .refl token⟩
  have hrevoke : ∀ realm id at_, SameTokens db (db.set (.refresh realm id)
      ((db.row (.refresh realm id)).map fun t : RefreshToken => { t with revokedAt := some at_ })) := by
    intro realm id at_
    constructor
    · intro realm' id' token h
      by_cases hk : Key.refresh realm' id' = .refresh realm id
      · cases hk
        rw [Store.set_row_self, h]
        exact ⟨_, rfl, rfl, rfl, fun _ => rfl⟩
      · rw [Store.set_row_of_ne _ _ hk]
        exact ⟨token, h, .refl token⟩
    · intro realm' id' token' h
      by_cases hk : Key.refresh realm' id' = .refresh realm id
      · cases hk
        rw [Store.set_row_self] at h
        obtain ⟨token, htoken, rfl⟩ := Option.map_eq_some_iff.1 h
        exact ⟨token, htoken, rfl, rfl, fun _ => rfl⟩
      · rw [Store.set_row_of_ne _ _ hk] at h
        exact ⟨token', h, .refl token'⟩
  cases u with
  | insertRefresh realm id row => exact absurd rfl hu
  | rotateRefresh realm id at_ => exact hrevoke realm id at_
  | revokeRefresh realm id at_ => exact hrevoke realm id at_
  | _ => exact hother fun _ _ h => nomatch h

theorem SameTokens.sound {db db' : Database} (h : SameTokens db db') (hdb : Sound db) :
    Sound db' := by
  constructor
  · intro realm id token' hrow
    obtain ⟨token, htoken, haccount, hhash, -⟩ := h.back realm id token' hrow
    rw [haccount, hhash]
    exact hdb.signed realm id token htoken
  · intro realm id id' token₁ token₂ hrow₁ hrow₂ heq
    obtain ⟨t₁, ht₁, -, hhash₁, -⟩ := h.back realm id token₁ hrow₁
    obtain ⟨t₂, ht₂, -, hhash₂, -⟩ := h.back realm id' token₂ hrow₂
    exact hdb.distinct realm id id' t₁ t₂ ht₁ ht₂ (hhash₁.symm.trans (heq.trans hhash₂))

theorem SameTokens.dead {db db' : Database} (h : SameTokens db db') {realm : Realm}
    {raw : RawToken} (hdead : Dead db realm raw) : Dead db' realm raw := by
  obtain ⟨id, token, hrow, hhash, hrevoked⟩ := hdead
  obtain ⟨token', hrow', -, hhash', hrevoked'⟩ := h.forth realm id token hrow
  exact ⟨id, token', hrow', hhash'.trans hhash, hrevoked' hrevoked⟩

/-! ## What a request keeps -/

/-- What a request that starts on `db` makes of the tokens: they stay sound, and what
was revoked stays so. -/
structure Keeping (db v : Database) : Prop where
  sound : Sound v
  dead : ∀ realm raw, Dead db realm raw → Dead v realm raw

theorem SameTokens.keeping {db v : Database} (h : SameTokens db v) (hdb : Sound db) :
    Keeping db v := ⟨h.sound hdb, fun _ _ hdead => h.dead hdead⟩

variable {limits : Limits} {db : Database} {x : Served} {σ : Session accounts} {α : Type}
  {realm : Realm} {raw : RawToken} {K : List Kind}

/-- The answers of the outside while `x` is served. -/
def Answered (x : Served) (c : Call) (a : c.Answer) : Prop := ∃ n, x.answer n c = a

theorem Does.same {p : Prog accounts α} (hp : Does K p) (hks : .insertRefresh ∉ K)
    (hσ : Upholds (SameTokens db) σ) :
    p.Keeps (Answered x) (SameTokens db) σ fun _ σ' => Upholds (SameTokens db) σ' := by
  refine hp.keeps hσ fun u v hu _ hv => hv.trans (sameTokens_apply (fun heq => ?_) v)
  rcases hu with hu | hu
  · exact absurd (hu.symm.trans heq) (by simp)
  · exact hks (heq ▸ hu)

theorem Does.keeping {p : Prog accounts α} (hp : Does K p) (hks : .insertRefresh ∉ K)
    (hσ : Upholds (Keeping db) σ) :
    p.Keeps (Answered x) (Keeping db) σ fun _ _ => True := by
  refine (hp.keeps hσ fun u v hu _ hv => ?_).mono hσ fun _ _ _ _ => trivial
  have hsame := sameTokens_apply (u := u) (fun heq => ?_) v
  · exact ⟨hsame.sound hv.sound, fun realm raw hdead => hsame.dead (hv.dead realm raw hdead)⟩
  · rcases hu with hu | hu
    · exact absurd (hu.symm.trans heq) (by simp)
    · exact hks (heq ▸ hu)

theorem upholds_keeping (hdb : Sound db) (hσ : Upholds (SameTokens db) σ) :
    Upholds (Keeping db) σ := ⟨hσ.db.keeping hdb, hσ.view.keeping hdb⟩

theorem Does.before {β : Type} {p : Prog accounts α} {f : α → Prog accounts β} (hp : Does K p)
    (hks : .insertRefresh ∉ K) (hdb : Sound db) (hσ : Upholds (SameTokens db) σ)
    (hf : ∀ a σ', Upholds (SameTokens db) σ' →
      (f a).Keeps (Answered x) (Keeping db) σ' fun _ _ => True) :
    (p >>= f).Keeps (Answered x) (Keeping db) σ fun _ _ => True :=
  ((hp.same hks hσ).weaken fun _ hv => hv.keeping hdb).seq (upholds_keeping hdb hσ)
    fun a σ' _ hσ' => hf a σ' hσ'

theorem keeps_settle {inTx : Bool} {I : Database → Prop} :
    (settle inTx).Keeps (Answered x) I σ fun _ _ => True :=
  keeps_runIf.2 ⟨fun _ => trivial, fun _ => trivial⟩

theorem keeps_verify {secret : Secret} {message : String} {f : Jwt → Prog accounts α}
    {I : Database → Prop} {Q : α → Session accounts → Prop}
    (hf : ∀ jwt, raw = .signed jwt → (f jwt).Keeps (Answered x) I σ Q) :
    (verify secret raw message >>= f).Keeps (Answered x) I σ Q := by
  refine (keeps_bind _ _ _).2 (keeps_invoke fun time _ => ?_)
  cases hv : verified secret time raw with
  | none => exact trivial
  | some jwt => exact hf jwt (signed_of_verified hv)

/-- A created token has a hash that no row had. -/
theorem keeps_createRefreshToken {inTx : Bool} {accountId : Id} {jwt : Jwt} {e : Err}
    (hdb : Sound db) (hσ : Upholds (SameTokens db) σ) (hsub : jwt.payload.sub = accountId)
    (hnew : ∀ id token, db.row (.refresh realm id) = some token →
      token.tokenHash ≠ hashToken (.signed jwt)) :
    (createRefreshToken realm inTx accountId jwt e).Keeps (Answered x) (Keeping db) σ
      fun _ _ => True := by
  refine keeps_invoke fun newId _ => (keeps_bind _ _ _).2 ((keeps_bind _ _ _).2 ?_)
  have hview : ∀ id token, σ.view.row (.refresh realm id) = some token →
      token.tokenHash ≠ hashToken (.signed jwt) := by
    intro id token hrow heq
    obtain ⟨token', hrow', -, hhash, -⟩ := hσ.view.back realm id token hrow
    exact hnew id token' hrow' (hhash.symm.trans heq)
  refine keeps_write (fun hguard => ?_) (fun _ => keeps_settle) trivial
  have hsound := hσ.view.sound hdb
  have hnone : σ.view.row (.refresh realm newId) = none := Option.isNone_iff_eq_none.1 hguard
  -- a row of the new view is the created one, or was there before
  have hrow : ∀ realm' id token, (applyUpdate (S := accounts) (.insertRefresh realm newId
      ⟨accountId, hashToken (.signed jwt), jwt.exp * 1000, none⟩) σ.view).row (.refresh realm' id) =
        some token → (realm' = realm ∧ id = newId ∧
          token = ⟨accountId, hashToken (.signed jwt), jwt.exp * 1000, none⟩) ∨
        σ.view.row (.refresh realm' id) = some token := by
    intro realm' id token h
    by_cases hk : Key.refresh realm' id = .refresh realm newId
    · cases hk
      exact .inl ⟨rfl, rfl, (Option.some.inj ((applyUpdate_row_self (S := accounts) _ _).symm.trans h)).symm⟩
    · exact .inr ((applyUpdate_row_of_ne (S := accounts) _ _ hk).symm.trans h)
  refine ⟨⟨?_, ?_⟩, ?_⟩
  · intro realm' id token h
    rcases hrow realm' id token h with ⟨rfl, rfl, rfl⟩ | hold
    · exact ⟨jwt, rfl, hsub⟩
    · exact hsound.signed realm' id token hold
  · intro realm' id id' token token' h h' heq
    rcases hrow realm' id token h with ⟨rfl, rfl, rfl⟩ | hold
    · rcases hrow realm' id' token' h' with ⟨-, rfl, -⟩ | hold'
      · rfl
      · exact absurd heq.symm (hview id' token' hold')
    · rcases hrow realm' id' token' h' with ⟨rfl, rfl, rfl⟩ | hold'
      · exact absurd heq (hview id token hold)
      · exact hsound.distinct realm' id id' token token' hold hold' heq
  · intro realm' raw hdead
    obtain ⟨id, token, hold, hhash, hrevoked⟩ := hσ.view.dead hdead
    have hk : Key.refresh realm' id ≠ .refresh realm newId := by
      intro heq
      cases heq
      cases hnone.symm.trans hold
    exact ⟨id, token, (applyUpdate_row_of_ne (S := accounts) _ _ hk).trans hold, hhash, hrevoked⟩

theorem keeps_staffTokenPair {inTx : Bool} {userId : Id} {user : User} {tenantId : Option Id}
    {tenantRole : Option Auth.TenantMemberRole} {e : Err} (hdb : Sound db) (hx : Orderly db x)
    (hσ : Upholds (SameTokens db) σ) :
    (AuthService.issueTokenPair inTx userId user tenantId tenantRole e).Keeps (Answered x)
      (Keeping db) σ fun _ _ => True := by
  refine does_sign.before (K := []) (by simp) hdb hσ fun _ σ hσ => ?_
  refine keeps_invoke fun jwtid hjwtid => (keeps_bind _ _ _).2 (keeps_invoke fun iat _ => keeps_ret.2 ?_)
  obtain ⟨n, rfl⟩ := hjwtid
  refine (keeps_createRefreshToken hdb hσ ?_ ?_).seq (upholds_keeping hdb hσ) fun _ _ _ _ => ?_
  · exact rfl
  · exact fun id token hrow heq => hx.uuids n id token _ hrow heq rfl
  · exact trivial

theorem keeps_customerTokenPair {customerId tenantId : Id} (hdb : Sound db) (hx : Orderly db x)
    (hserves : Serves db x customerId) (hσ : Upholds (SameTokens db) σ) :
    (CustomersAuthService.issueTokenPair customerId tenantId).Keeps (Answered x) (Keeping db) σ
      fun _ _ => True := by
  refine does_sign.before (K := []) (by simp) hdb hσ fun _ σ hσ => ?_
  refine (keeps_bind _ _ _).2 (keeps_invoke fun iat hiat => keeps_ret.2 ?_)
  obtain ⟨n, rfl⟩ := hiat
  refine (keeps_createRefreshToken hdb hσ ?_ ?_).seq (upholds_keeping hdb hσ) fun _ _ _ _ => ?_
  · exact rfl
  · intro id token hrow heq
    obtain ⟨jwt, hjwt, hsub⟩ := hdb.signed _ id token hrow
    cases hjwt.symm.trans heq
    exact hx.seconds n id token _ hrow (hsub ▸ hserves) heq rfl
  · exact trivial

theorem keeps_mobileTokenFor {inTx : Bool} {accountId : Id} {deviceId : Option String}
    {tenantId : Option Id} {tenantRole : Option Auth.TenantMemberRole} {f : Option Id → Prog accounts α}
    (hσ : Upholds (Keeping db) σ) (hf : ∀ a, Does [] (f a)) :
    (mobileTokenFor realm inTx accountId deviceId tenantId tenantRole >>= f).Keeps (Answered x)
      (Keeping db) σ fun _ _ => True := by
  refine Does.keeping (K := [.insertMobile, .revokeMobile]) ?_ (by simp) hσ
  exact does_bind (does_mobileTokenFor (by simp) (by simp)) fun a =>
    (hf a).mono fun _ he => .inl (by simpa using he)

theorem keeps_completeLogin {inTx : Bool} {userId : Id} {deviceId : Option String}
    (hdb : Sound db) (hx : Orderly db x) (hσ : Upholds (SameTokens db) σ) :
    (AuthService.completeLogin inTx userId deviceId).Keeps (Answered x) (Keeping db) σ
      fun _ _ => True := by
  refine does_findUser.before (K := []) (by simp) hdb hσ fun user σ hσ => keeps_ask ?_
  refine (keeps_staffTokenPair hdb hx hσ).seq (upholds_keeping hdb hσ) fun _ σ hσ _ => ?_
  exact keeps_mobileTokenFor hσ fun _ => does_ret

theorem keeps_assertNotLocked {counter : Counter} {limit : Nat} {β : Type}
    {f : Unit → Prog accounts β} (hσ : Upholds (Keeping db) σ)
    (hf : (f ()).Keeps (Answered x) (Keeping db) σ fun _ _ => True) :
    (assertNotLocked counter limit >>= f).Keeps (Answered x) (Keeping db) σ fun _ _ => True := by
  have hsame : (assertNotLocked counter limit).Keeps (Answered x) (Keeping db) σ
      fun _ σ' => σ' = σ := by
    refine keeps_invoke fun up _ => keeps_runIf.2 ⟨fun _ => keeps_ask ?_, fun _ => rfl⟩
    exact keeps_throwIf.2 fun _ => rfl
  refine hsame.seq hσ fun _ σ' _ heq => ?_
  rw [heq]
  exact hf

/-- What one request keeps, however it ends. -/
theorem handler_keeping (hdb : Sound db) (hx : Orderly db x) :
    (handler limits x.request).Keeps (Answered x) (Keeping db) (.start db) fun _ _ => True := by
  have hσ : Upholds (SameTokens db) (Session.start (S := accounts) db) :=
    ⟨SameTokens.refl db, SameTokens.refl db⟩
  have hσ' := upholds_keeping hdb hσ
  have hlast : ∀ {β : Type} {p : Prog accounts β},
      p.Keeps (Answered x) (Keeping db) (.start db) (fun _ _ => True) →
      (p >>= fun _ => .ret ()).Keeps (Answered x) (Keeping db) (.start db) fun _ _ => True :=
    fun hp => hp.seq hσ' fun _ _ _ _ => trivial
  cases hr : x.request with
  | login inTx dto =>
      refine hlast (keeps_assertNotLocked hσ' (keeps_ask (keeps_invoke fun valid _ => ?_)))
      split
      · exact (does_bind (does_recordFailure (K := [.count]) (by simp)) fun _ =>
          does_throw).keeping (by simp) hσ'
      · refine (does_clear (K := [.count]) (by simp)).before (by simp) hdb hσ fun _ σ hσ => ?_
        split
        · exact (does_bind (does_sign (K := [])) fun _ => does_ret).keeping (by simp)
            (upholds_keeping hdb hσ)
        · exact keeps_completeLogin hdb hx hσ
  | verifyTwoFactor inTx token code deviceId =>
      refine hlast ((does_verify (K := [])).before (by simp) hdb hσ fun jwt σ hσ => ?_)
      refine keeps_demand fun userId _ => keeps_assertNotLocked (upholds_keeping hdb hσ) ?_
      refine keeps_ask (keeps_demand fun secret _ => keeps_invoke fun valid _ => ?_)
      split
      · refine (does_clear (K := [.count]) (by simp)).before (by simp) hdb hσ fun _ σ hσ => ?_
        exact keeps_completeLogin hdb hx hσ
      · exact (does_bind (does_recordFailure (K := [.count]) (by simp)) fun _ =>
          does_throw).keeping (by simp) (upholds_keeping hdb hσ)
  | switchTenant inTx userId tenantId deviceId =>
      refine hlast (keeps_ask (keeps_demand fun membership _ => ?_))
      refine (does_findUser (K := [])).before (by simp) hdb hσ fun user σ hσ => ?_
      refine (keeps_staffTokenPair hdb hx hσ).seq (upholds_keeping hdb hσ) fun _ σ hσ _ => ?_
      exact keeps_mobileTokenFor hσ fun _ => does_ret
  | refresh inTx raw =>
      refine hlast ((does_verify (K := [])).before (by simp) hdb hσ fun jwt σ hσ => ?_)
      refine keeps_ask (keeps_invoke fun time _ => keeps_demand fun stored _ => ?_)
      refine keeps_invoke fun time _ => ?_
      refine (does_write (K := [.rotateRefresh]) (.inr (by simp [Update.kind]))).before (by simp)
        hdb hσ fun _ σ hσ => ?_
      refine (does_findUser (K := [])).before (by simp) hdb hσ fun user σ hσ => ?_
      refine keeps_check fun _ => ?_
      refine (does_currentRole (K := [])).before (by simp) hdb hσ fun role σ hσ => ?_
      exact keeps_demand fun tenantRole _ => keeps_staffTokenPair hdb hx hσ
  | registerCustomer tenantId dto =>
      refine hlast (keeps_ask (keeps_check fun _ => keeps_invoke fun hash _ => ?_))
      refine keeps_invoke fun customerId hid => ?_
      refine (does_write (K := []) (.inl rfl)).before (by simp) hdb hσ fun _ σ hσ => ?_
      refine (keeps_customerTokenPair hdb hx ?_ hσ).seq (upholds_keeping hdb hσ) fun _ σ hσ _ => ?_
      · rw [Serves, hr]
        exact hid
      · exact keeps_mobileTokenFor hσ fun _ => does_ret
  | loginCustomer tenantId dto =>
      refine hlast (keeps_assertNotLocked hσ' (keeps_ask (keeps_invoke fun valid _ => ?_)))
      split
      · exact (does_bind (does_recordFailure (K := [.count]) (by simp)) fun _ =>
          does_throw).keeping (by simp) hσ'
      · next customerId customer hfound =>
          refine (does_clear (K := [.count]) (by simp)).before (by simp) hdb hσ fun _ σ hσ => ?_
          refine (keeps_customerTokenPair hdb hx ?_ hσ).seq (upholds_keeping hdb hσ)
            fun _ σ hσ _ => keeps_mobileTokenFor hσ fun _ => does_ret
          rw [Serves, hr]
          exact ⟨customer, (Option.filter_eq_some_iff.1 hfound).1⟩
  | refreshCustomer tenantId raw =>
      refine hlast (keeps_verify fun jwt hjwt => keeps_ask (keeps_invoke fun time _ => ?_))
      refine keeps_demand fun stored _ => keeps_invoke fun time _ => ?_
      refine (does_write (K := [.rotateRefresh]) (.inr (by simp [Update.kind]))).before (by simp)
        hdb hσ fun _ σ hσ => keeps_customerTokenPair hdb hx ?_ hσ
      rw [Serves, hr, hjwt]
  | _ => exact hr ▸ (handler_does limits x.request).keeping (by simp [hr, Request.kinds]) hσ'

/-- What a request that was served leaves. -/
theorem serve_keeping (hdb : Sound db) (hx : Orderly db x) :
    Keeping db (serve x.answer (handler limits x.request) db) :=
  (handler_keeping hdb hx).serve ⟨hdb, fun _ _ h => h⟩ fun n _ => ⟨n, rfl⟩

theorem after_append (db : Database) (xs ys : List Served) :
    after limits db (xs ++ ys) = after limits (after limits db xs) ys := by
  induction xs generalizing db with
  | nil => rfl
  | cons x xs ih => exact ih _

theorem orderlyRun_append {xs ys : List Served} :
    OrderlyRun limits db (xs ++ ys) ↔
      OrderlyRun limits db xs ∧ OrderlyRun limits (after limits db xs) ys := by
  induction xs generalizing db with
  | nil => simp [OrderlyRun, after]
  | cons x xs ih => simp only [List.cons_append, OrderlyRun, after, ih, and_assoc]

theorem after_keeping {xs : List Served} (hdb : Sound db) (hxs : OrderlyRun limits db xs) :
    Keeping db (after limits db xs) := by
  induction xs generalizing db with
  | nil => exact ⟨hdb, fun _ _ h => h⟩
  | cons x xs ih =>
      have hfirst : Keeping db (serve x.answer (handler limits x.request) db) :=
        serve_keeping hdb hxs.1
      have hrest := ih hfirst.sound hxs.2
      exact ⟨hrest.sound, fun realm raw hdead => hrest.dead realm raw (hfirst.dead realm raw hdead)⟩

/-! ## Acceptance and logout -/

/-- Nothing brings a revoked token back. -/
theorem dead_apply {u : Update} (hguard : u.guard (db.row u.key) = true)
    (hdead : Dead db realm raw) : Dead (applyUpdate (S := accounts) u db) realm raw := by
  by_cases hu : u.kind = .insertRefresh
  · cases u with
    | insertRefresh realm' id' row =>
        obtain ⟨id, token, hrow, hhash, hrevoked⟩ := hdead
        have hk : Key.refresh realm id ≠ .refresh realm' id' := by
          intro heq
          cases heq
          cases (Option.isNone_iff_eq_none.1 hguard).symm.trans hrow
        exact ⟨id, token, (applyUpdate_row_of_ne (S := accounts) _ _ hk).trans hrow, hhash, hrevoked⟩
    | _ => cases hu
  · exact (sameTokens_apply hu db).dead hdead

theorem Does.stays_dead {A : (c : Call) → c.Answer → Prop} {p : Prog accounts α} (hp : Does K p)
    (hks : .undo ∉ K) (hdead : Dead σ.view realm raw) :
    p.Ensures A σ fun _ σ' => Dead σ'.view realm raw :=
  hp.ensures (fun h => hks (h.resolve_left (by simp [kind]))) hdead
    fun _ _ _ hguard h => dead_apply hguard h

section Ensures

variable {A : (c : Call) → c.Answer → Prop} {β : Type} {Q : β → Session accounts → Prop}

theorem ensures_verify {secret : Secret} {message : String} {f : Jwt → Prog accounts β}
    (hf : ∀ jwt, (f jwt).Ensures A σ Q) : (verify secret raw message >>= f).Ensures A σ Q :=
  ensures_seq.2 (ensures_invoke fun _ _ => ensures_orThrow.2 fun jwt _ => hf jwt)

theorem ensures_settle {inTx : Bool} {f : Unit → Prog accounts β}
    (hf : ∀ σ', σ'.view = σ.view → (f ()).Ensures A σ' Q) : (settle inTx >>= f).Ensures A σ Q := by
  refine ensures_seq.2 (ensures_runIf.2 ⟨fun _ => ?_, fun _ => hf σ rfl⟩)
  exact hf σ.commit rfl

theorem ensures_write {inTx : Bool} {u : Update} {e : Err} {f : Unit → Prog accounts β}
    (hf : ∀ σ', σ'.view = applyUpdate (S := accounts) u σ.view → (f ()).Ensures A σ' Q) :
    (write inTx u e >>= f).Ensures A σ Q := by
  refine ensures_seq.2 (ensures_require fun _ => ?_)
  exact ensures_seq.1 (ensures_settle fun σ' hσ' => hf σ' hσ')

end Ensures

theorem dead_rotate {id : Id} {token : RefreshToken} {at_ : Time}
    (hrow : db.row (.refresh realm id) = some token) (hhash : token.tokenHash = hashToken raw) :
    Dead (applyUpdate (S := accounts) (.rotateRefresh realm id at_) db) realm raw := by
  refine ⟨id, { token with revokedAt := some at_ }, ?_, hhash, rfl⟩
  exact (applyUpdate_row_self (S := accounts) _ _).trans (congrArg _ hrow)

/-- A refresh that is answered has found a live row, and has revoked it. -/
theorem refresh_ensures {A : (c : Call) → c.Answer → Prop} (hr : x.request.refreshes = some (realm, raw)) :
    (handler limits x.request).Ensures A (.start db) fun _ σ' =>
      Live db realm raw ∧ Dead σ'.view realm raw := by
  cases hreq : x.request with
  | refresh inTx raw' =>
      rw [hreq, Request.refreshes, Option.some.injEq, Prod.mk.injEq] at hr
      obtain ⟨rfl, rfl⟩ := hr
      refine ensures_seq.2 (ensures_verify fun jwt => ensures_ask (ensures_invoke fun _ _ => ?_))
      refine ensures_demand fun stored hstored => ensures_invoke fun time _ => ?_
      obtain ⟨hrow, -, hhash, hlive⟩ := row_of_refreshToken (Option.filter_eq_some_iff.1 hstored).1
      refine ensures_write fun σ hσ => ?_
      refine Ensures.mono (Does.stays_dead (K := [.insertRefresh]) ?_ (by simp) ?_) fun _ _ h =>
        ⟨⟨_, _, hrow, hhash, hlive⟩, h⟩
      · refine does_bind does_findUser fun _ => does_check (does_bind does_currentRole fun _ => ?_)
        exact does_demand fun _ => does_issueTokenPair (by simp)
      · rw [hσ]
        exact dead_rotate hrow hhash
  | refreshCustomer tenantId raw' =>
      rw [hreq, Request.refreshes, Option.some.injEq, Prod.mk.injEq] at hr
      obtain ⟨rfl, rfl⟩ := hr
      refine ensures_seq.2 (ensures_verify fun jwt => ensures_ask (ensures_invoke fun _ _ => ?_))
      refine ensures_demand fun stored hstored => ensures_invoke fun time _ => ?_
      obtain ⟨hrow, -, hhash, hlive⟩ := row_of_refreshToken (Option.filter_eq_some_iff.1 hstored).1
      refine ensures_write fun σ hσ => ?_
      refine Ensures.mono (Does.stays_dead (K := [.insertRefresh]) ?_ (by simp) ?_) fun _ _ h =>
        ⟨⟨_, _, hrow, hhash, hlive⟩, h⟩
      · exact does_customerTokenPair (by simp)
      · rw [hσ]
        exact dead_rotate hrow hhash
  | _ => simp [hreq, Request.refreshes] at hr

/-- The row has the hash of the string, and is revoked or still to come. -/
def Awaits (realm : Realm) (raw : RawToken) (id : Id) (ids : List Id) (db : Database) : Prop :=
  ∃ token, db.row (.refresh realm id) = some token ∧ token.tokenHash = hashToken raw ∧
    (token.revokedAt.isSome = true ∨ id ∈ ids)

theorem Awaits.revoke {id a : Id} {ids : List Id} {time : Time}
    (h : Awaits realm raw id (a :: ids) db) : Awaits realm raw id ids
      (applyUpdate (S := accounts) (.revokeRefresh realm a time) db) := by
  obtain ⟨token, hrow, hhash, hcase⟩ := h
  by_cases ha : id = a
  · subst ha
    refine ⟨{ token with revokedAt := some time }, ?_, hhash, .inl rfl⟩
    exact (applyUpdate_row_self (S := accounts) _ _).trans (congrArg _ hrow)
  · have hk : Key.refresh realm id ≠ .refresh realm a := fun heq => ha (by cases heq; rfl)
    refine ⟨token, (applyUpdate_row_of_ne (S := accounts) _ _ hk).trans hrow, hhash, ?_⟩
    exact hcase.imp_right fun hmem => (List.mem_cons.1 hmem).resolve_left ha

/-- A row that is not revoked any more by its turn was revoked before. -/
theorem Awaits.miss {id a : Id} {ids : List Id} (time : Time) (h : Awaits realm raw id (a :: ids) db)
    (hmiss : Update.guard (.revokeRefresh realm a time) (db.row (.refresh realm a)) = false) :
    Awaits realm raw id ids db := by
  obtain ⟨token, hrow, hhash, hcase⟩ := h
  refine ⟨token, hrow, hhash, ?_⟩
  rcases hcase with hrevoked | hmem
  · exact .inl hrevoked
  · rcases List.mem_cons.1 hmem with rfl | hmem
    · rw [hrow] at hmiss
      refine .inl ?_
      simpa [Update.guard] using hmiss
    · exact .inr hmem

/-- The rows with the hash of the string are revoked one by one. -/
theorem revokeLike_ensures {A : (c : Call) → c.Answer → Prop} {inTx : Bool} {accountId : Id}
    (hstored : Stored db realm raw accountId) :
    (revokeLike realm inTx accountId raw).Ensures A (.start db) fun _ σ' =>
      Dead σ'.view realm raw := by
  obtain ⟨id, token, hrow, hhash, haccount⟩ := hstored
  refine ensures_invoke fun time _ => ensures_ask ?_
  have hawaits : Awaits realm raw id
      (Query.eval (.refreshTokensLike realm accountId (hashToken raw)) db) db := by
    refine ⟨token, hrow, hhash, ?_⟩
    cases hrevoked : token.revokedAt with
    | some t => exact .inl rfl
    | none =>
        refine .inr (List.mem_map.2 ⟨(id, token), mem_refreshTokensWhere.2 ⟨hrow, ?_⟩, rfl⟩)
        simp [haccount, hhash, hrevoked]
  refine Ensures.seq (Q := fun _ σ => Awaits realm raw id [] σ.view) ?_ fun _ σ hσ => ?_
  · refine ensures_each (I := fun ids (σ : Session accounts) => Awaits realm raw id ids σ.view) ?_ ?_
    · exact hawaits
    · exact fun a ids σ hσ => ⟨fun _ => hσ.revoke, fun hmiss => hσ.miss time hmiss⟩
  · obtain ⟨token', hrow', hhash', hcase⟩ := hσ
    have hdead : Dead σ.view realm raw :=
      ⟨id, token', hrow', hhash', hcase.resolve_right List.not_mem_nil⟩
    exact does_settle.stays_dead (K := []) (by simp) hdead

theorem logout_ensures {A : (c : Call) → c.Answer → Prop} {accountId : Id}
    (hr : x.request.logsOut = some (realm, accountId, raw)) (hstored : Stored db realm raw accountId) :
    (handler limits x.request).Ensures A (.start db) fun _ σ' => Dead σ'.view realm raw := by
  cases hreq : x.request with
  | logout inTx userId raw' =>
      cases raw' with
      | none => simp [hreq, Request.logsOut] at hr
      | some raw' =>
          rw [hreq, Request.logsOut, Option.some.injEq, Prod.mk.injEq, Prod.mk.injEq] at hr
          obtain ⟨rfl, rfl, rfl⟩ := hr
          exact revokeLike_ensures hstored
  | logoutCustomer customerId raw' =>
      cases raw' with
      | none => simp [hreq, Request.logsOut] at hr
      | some raw' =>
          rw [hreq, Request.logsOut, Option.some.injEq, Prod.mk.injEq, Prod.mk.injEq] at hr
          obtain ⟨rfl, rfl, rfl⟩ := hr
          exact revokeLike_ensures hstored
  | _ => simp [hreq, Request.logsOut] at hr

theorem Accepted.live (h : Accepted limits db x realm raw) : Live db realm raw :=
  ((refresh_ensures (A := Answered x) h.1).of_exec (fun n _ => ⟨n, rfl⟩) h.2).1

theorem Accepted.dead (h : Accepted limits db x realm raw) :
    Dead (serve x.answer (handler limits x.request) db) realm raw :=
  ((refresh_ensures (A := Answered x) h.1).of_exec (fun n _ => ⟨n, rfl⟩) h.2).2

theorem LoggedOut.dead (h : LoggedOut limits db x realm raw) (hx : Orderly db x) :
    Dead (serve x.answer (handler limits x.request) db) realm raw := by
  obtain ⟨⟨accountId, issuedTo, hr, hstored⟩, hsucceeds⟩ := h
  have howner := hx.owner realm accountId raw issuedTo hr hstored
  subst howner
  exact (logout_ensures (A := Answered x) hr hstored).of_exec (fun n _ => ⟨n, rfl⟩) hsucceeds

/-- **Web refresh tokens are single-use** in every run of orderly requests. -/
theorem refresh_single_use {xs : List Served} (hdb : Sound db) (hxs : OrderlyRun limits db xs) :
    SingleUse limits db xs := by
  rintro before x mid y rest realm raw rfl hx hy
  obtain ⟨hbefore, hx', hrest⟩ := orderlyRun_append.1 hxs
  have hmid := (orderlyRun_append.1 hrest).1
  have hsound := (after_keeping hdb hbefore).sound
  have hdead : Dead (serve x.answer (handler limits x.request) (after limits db before)) realm raw :=
    hx.elim Accepted.dead fun h => h.dead hx'
  have hserved : Keeping _ (serve x.answer (handler limits x.request) (after limits db before)) :=
    serve_keeping hsound hx'
  have hkeeping := after_keeping hserved.sound hmid
  rw [after_append] at hy
  exact hkeeping.sound.not_live (hkeeping.dead realm raw hdead) hy.live

/-! ## A run -/

/-- The outside in one second: every call draws a new number from `seed` on. -/
def during (second seed : Nat) : Answers accounts := fun n c => match c with
  | .redis => true
  | .now => second * 1000
  | .issuedAt => second
  | .uuid => seed + n
  | .randomBytes => seed + n
  | .generateSecret => "JBSWY3DP"
  | .comparePassword password passwordHash => passwordHash == some password
  | .hashPassword password => password
  | .checkTotp code secret => code == secret
  | .sendResetMail _ => true
  | .respondMobileRefresh _ => ()

def mugs : Database :=
  Store.empty.set (.customer 5) (some ⟨1, some "ana@mugs.test", "Ana", none, some "cobalt"⟩)

theorem sound_of_none (h : ∀ realm id, db.row (.refresh realm id) = none) : Sound db := by
  constructor
  · intro realm id token hrow
    cases (h realm id).symm.trans hrow
  · intro realm id id' token token' hrow
    cases (h realm id).symm.trans hrow

theorem mugs_sound : Sound mugs := sound_of_none fun _ _ => rfl

theorem orderly_of_none (h : ∀ realm id, db.row (.refresh realm id) = none)
    (hx : x.request.logsOut = none) : Orderly db x := by
  constructor
  · intro n id token jwt hrow
    cases (h .staff id).symm.trans hrow
  · intro n id token jwt hrow
    cases (h .customer id).symm.trans hrow
  · intro realm accountId raw issuedTo hr
    cases hx.symm.trans hr

def anaLogin (second seed : Nat) : Served :=
  ⟨during second seed, .loginCustomer 1 ⟨"ana@mugs.test", "cobalt", none⟩⟩

def anaToken (second : Nat) : RawToken :=
  .signed ⟨.refresh .customer, .customer 5 1, second, second + refreshExpiresIn, none⟩

def anaRefresh (second seed issued : Nat) : Served :=
  ⟨during second seed, .refreshCustomer 1 (anaToken issued)⟩

/-- Every refresh token of a database satisfies `p`. -/
def allTokens (p : Realm → Id → RefreshToken → Bool) (db : Database) : Bool :=
  db.keys.all fun
    | .refresh realm id => (db.row (.refresh realm id)).all (p realm id)
    | _ => true

theorem of_allTokens {p : Realm → Id → RefreshToken → Bool} (h : allTokens p db = true) {id : Id}
    {token : RefreshToken} (hrow : db.row (.refresh realm id) = some token) :
    p realm id token = true := by
  have hkey := List.all_eq_true.1 h _ (db.mem_keys_of_row hrow)
  simpa [hrow] using hkey

/-- A login, and a refresh a second later. -/
theorem refresh_single_use_login :
    Accepted throttleLimits (after throttleLimits mugs [anaLogin 7 100]) (anaRefresh 8 200 7) .customer
      (anaToken 7) ∧
    SingleUse throttleLimits mugs [anaLogin 7 100, anaRefresh 8 200 7] := by
  refine ⟨⟨rfl, succeeds_of_isOk (by decide +kernel)⟩, refresh_single_use mugs_sound ?_⟩
  have htoken : ∀ realm id token, (after throttleLimits mugs [anaLogin 7 100]).row (.refresh realm id) =
      some token → realm = .customer ∧ token.tokenHash = ⟨anaToken 7⟩ := by
    intro realm id token hrow
    have hall : allTokens (fun realm _ token => decide (realm = .customer ∧
        token.tokenHash = ⟨anaToken 7⟩)) (after throttleLimits mugs [anaLogin 7 100]) = true := by
      decide +kernel
    exact of_decide_eq_true (of_allTokens hall hrow)
  refine ⟨orderly_of_none (fun _ _ => rfl) rfl, ⟨fun _ id token jwt hrow => ?_, ?_, nofun⟩, trivial⟩
  · cases (htoken _ id token hrow).1
  · intro n id token jwt hrow _ hhash
    have hjwt := (htoken _ id token hrow).2.symm.trans hhash
    cases hjwt
    simp [anaRefresh, during]

/-- Ana logs in on two computers in the same second. The two tokens are the same
string with two rows, and a refresh revokes one of them: the string is accepted
again. -/
theorem refresh_accepted_twice : Sound mugs ∧ ¬ SingleUse throttleLimits mugs
    [anaLogin 7 100, anaLogin 7 200, anaRefresh 8 300 7, anaRefresh 9 400 7] := by
  refine ⟨mugs_sound, fun h => ?_⟩
  refine h [anaLogin 7 100, anaLogin 7 200] (anaRefresh 8 300 7) [] (anaRefresh 9 400 7) [] .customer
    (anaToken 7) rfl (.inl ⟨rfl, succeeds_of_isOk (by decide +kernel)⟩) ?_
  exact ⟨rfl, succeeds_of_isOk (by decide +kernel)⟩

end WhatStore.Accounts
