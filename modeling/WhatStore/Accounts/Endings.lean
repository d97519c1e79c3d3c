import WhatStore.Accounts.Draws

/-!
# What a request has done when it ends

A reset that returns has claimed its link and gone through the other links and the
tokens of the account. An exchange that is answered has revoked the token it was
given, and one that found the token misused has gone through its family.
-/

namespace WhatStore.Accounts

open ReadCommitted ReadCommitted.Prog

/-- The process listed `ids` and has updated each of them since. -/
structure WentThrough (q : Query) (x : q.Result) (ids : List Id) (u : Id → Update) (h : List Ev) :
    Prop where
  listed : .query q x ∈ h
  each : ∀ id ∈ ids, ∃ hit late early, h = late ++ .update (u id) hit :: early ∧ .query q x ∈ early

/-- A link of the account was found by the token and claimed, and everything that
could open the account was gone through. -/
structure ResetDone (realm : Realm) (raw : Id) (link : Id × PasswordResetToken) (h : List Ev) :
    Prop where
  found : ∃ scope, .query (.resetToken realm scope (hashRandom raw)) (some link) ∈ h
  claimed : ∃ time, .update (.useLink realm link.1 time) true ∈ h
  links : ∃ (ids : List Id) (time : Time), WentThrough (.linksOf realm link.2.accountId) ids ids
    (fun id => .useLink realm id time) h
  tokens : ∃ (ids : List Id) (time : Time), WentThrough
    (.refreshTokensOf realm link.2.accountId none) ids ids (fun id => .revokeRefresh realm id time) h
  mobileTokens : ∃ (ids : List Id) (time : Time), WentThrough
    (.mobileTokensOf realm link.2.accountId) ids ids (fun id => .revokeMobile realm id time) h

/-- A misused token was found, and its family gone through. -/
def Burnt (realm : Realm) (dto : MobileRefreshDto) (h : List Ev) : Prop :=
  ∀ scope id stored, .query (.mobileToken realm scope (hashRandom dto.refreshToken))
    (some (id, stored)) ∈ h → stored.misused dto = true →
      ∃ (ids : List Id) (time : Time), WentThrough (.family realm stored.familyId) ids ids
        (fun id => .revokeMobile realm id time) h

/-- The process has looked up a single token, and then revoked it. -/
structure Exchanged (found : Ev) (u : Update) (h : List Ev) : Prop where
  only : ∀ e ∈ h, kind e = .find → e = found
  rotated : ∃ late early, h = late ++ .update u true :: early ∧ found ∈ early

def ExchangedMobile (realm : Realm) (raw : Id) (h : List Ev) : Prop :=
  ∃ scope id stored time, Exchanged (.query (.mobileToken realm scope (hashRandom raw))
    (some (id, stored))) (.rotateMobile realm id time) h

def ExchangedWeb (realm : Realm) (raw : RawToken) (h : List Ev) : Prop :=
  ∃ scope accountId id token time, Exchanged (.query (.refreshToken realm scope accountId
    (hashToken raw)) (some (id, token))) (.rotateRefresh realm id time) h

structure Ended (r : Request) (h : List Ev) : Prop where
  reset : ∀ realm raw, r.resets = some (realm, raw) → ∃ link, ResetDone realm raw link h
  burnt : ∀ realm dto, r.exchanges = some (realm, dto) → Burnt realm dto h
  refreshed : ∀ realm raw, r.refreshes = some (realm, raw) → ExchangedWeb realm raw h

def Request.trades (r : Request) : Bool := r.refreshes.isSome || r.exchanges.isSome

/-- An exchange issues a token only in the place of one of the same account. -/
def Trades (h : List Ev) : Update → Prop
  | .insertRefresh realm _ row => ∃ scope tokenHash id token time,
      Exchanged (.query (.refreshToken realm scope row.accountId tokenHash) (some (id, token)))
        (.rotateRefresh realm id time) h
  | .insertMobile realm _ row => ∃ scope tokenHash id stored time,
      Exchanged (.query (.mobileToken realm scope tokenHash) (some (id, stored)))
        (.rotateMobile realm id time) h ∧ stored.accountId = row.accountId
  | _ => True

def EndLaw (r : Request) (h : List Ev) : Ev → Prop
  | .returned _ => Ended r h
  | .update u _ => r.trades = true → Trades h u
  | .call x _ => ∀ accessToken refreshToken, x = .respondMobileRefresh (.ok accessToken refreshToken) →
      ∀ realm dto, r.exchanges = some (realm, dto) → ExchangedMobile realm dto.refreshToken h
  | _ => True

variable {r : Request} {h h' : List Ev} {α β : Type} {K : List Kind}

theorem WentThrough.mono {q : Query} {x : q.Result} {ids : List Id} {u : Id → Update}
    (hw : WentThrough q x ids u h) (hsuffix : h <:+ h') : WentThrough q x ids u h' := by
  obtain ⟨es, rfl⟩ := hsuffix
  refine ⟨List.mem_append_right _ hw.listed, fun id hid => ?_⟩
  obtain ⟨hit, late, early, rfl, hquery⟩ := hw.each id hid
  exact ⟨hit, es ++ late, early, by rw [List.append_assoc], hquery⟩

/-- A history that goes on without looking a mobile token up. -/
structure Passed (h h' : List Ev) : Prop where
  suffix : h <:+ h'
  quiet : ∀ e ∈ h', kind e = .find → e ∈ h

theorem Passed.refl (h : List Ev) : Passed h h := ⟨List.suffix_refl h, fun _ he _ => he⟩

theorem Passed.trans {h'' : List Ev} (hp : Passed h h') (hp' : Passed h' h'') : Passed h h'' :=
  ⟨hp.suffix.trans hp'.suffix, fun e he hkind => hp.quiet e (hp'.quiet e he hkind) hkind⟩

theorem Passed.cons {e : Ev} (hkind : kind e ≠ .find) : Passed h (e :: h) := by
  refine ⟨List.suffix_cons _ _, fun e' he' hfind => ?_⟩
  rcases List.mem_cons.1 he' with rfl | he'
  · exact absurd hfind hkind
  · exact he'

theorem kind_update_ne_find (u : Update) {hit : Bool} : kind (.update u hit) ≠ .find := by
  cases u <;> simp [kind, Update.kind]

/-- Neither a look-up of a token, nor a new token, nor an answer to an exchange. -/
def Kind.still : Kind → Bool
  | .find => false
  | .respond => false
  | .insertRefresh => false
  | .insertMobile => false
  | _ => true

theorem trades_of_still {u : Update} (hu : u.kind.still = true) : Trades h u := by
  cases u <;> trivial

/-- A program that neither looks a token up nor issues or answers one passes. -/
theorem Does.passes {p : Prog accounts α} (hp : Does K p) (hks : ∀ k ∈ K, k.still = true) :
    p.Along (EndLaw r) h fun _ h' => Passed h h' := by
  refine Only.along_keeping hp (.refl h) fun h' e hlive hI he => ?_
  have hstill : (kind e).still = true := by
    rcases he with he | he
    · rw [he]
      rfl
    · exact hks _ he
  refine ⟨?_, hI.trans (.cons fun hfind => ?_)⟩
  · cases e with
    | returned tx => exact absurd rfl (hlive tx)
    | update u hit => exact fun _ => trades_of_still hstill
    | call x a =>
        rintro accessToken refreshToken rfl
        cases hstill
    | _ => trivial
  · rw [hfind] at hstill
    cases hstill

theorem Exchanged.passed {found : Ev} {u : Update} (hx : Exchanged found u h)
    (hpassed : Passed h h') : Exchanged found u h' := by
  obtain ⟨late, early, heq, hfound⟩ := hx.rotated
  obtain ⟨later, rfl⟩ := hpassed.suffix
  refine ⟨fun e he hkind => hx.only e (hpassed.quiet e he hkind) hkind, later ++ late, early, ?_,
    hfound⟩
  rw [heq, List.append_assoc]

theorem updateEach_along {inTx : Bool} {q : Query} {x : q.Result} {ids : List Id}
    {u : Id → Update} (hu : ∀ id, (u id).kind.still = true) (hlisted : .query q x ∈ h) :
    (updateEach inTx ids u).Along (EndLaw r) h fun _ h' =>
      Passed h h' ∧ WentThrough q x ids u h' := by
  refine along_seq.2 ((along_each (I := fun rest h' => Passed h h' ∧
    ∀ id ∈ ids, id ∉ rest → ∃ hit late early, h' = late ++ .update (u id) hit :: early ∧
      .query q x ∈ early) ⟨.refl h, fun id hid hnot => absurd hid hnot⟩ ?_).mono ?_)
  · intro id rest h' hI hit
    refine ⟨fun _ => trades_of_still (hu id), hI.1.trans (.cons (kind_update_ne_find _)),
      fun id' hid' hnot => ?_⟩
    by_cases heq : id' = id
    · subst heq
      exact ⟨hit, [], h', rfl, hI.1.suffix.subset hlisted⟩
    · obtain ⟨hit', late, early, rfl, hquery⟩ := hI.2 id' hid' (by simp [heq, hnot])
      exact ⟨hit', _ :: late, early, rfl, hquery⟩
  · rintro - h' ⟨hpassed, heach⟩
    refine ((does_settle (K := [])).passes (by simp)).mono fun _ h'' hpassed' => ?_
    have hw : WentThrough q x ids u h' :=
      ⟨hpassed.suffix.subset hlisted, fun id hid => heach id hid (by simp)⟩
    exact ⟨hpassed.trans hpassed', hw.mono hpassed'.suffix⟩

/-! ## Resets -/

theorem along_now {f : Time → Prog accounts β} {Q : β → List Ev → Prop}
    (hf : ∀ t, (f t).Along (EndLaw r) (.call .now t :: h) Q) : (now >>= f).Along (EndLaw r) h Q :=
  along_invoke (fun _ => nofun) hf

/-- What a reset does once it has claimed its link. -/
theorem afterClaim_along {realm : Realm} {inTx : Bool} {raw : Id} {link : Id × PasswordResetToken}
    {password : String} {u : String → Update} (hu : ∀ x, (u x).kind = .plain)
    (hfound : ∃ scope, .query (.resetToken realm scope (hashRandom raw)) (some link) ∈ h)
    (hclaimed : ∃ time, .update (.useLink realm link.1 time) true ∈ h) :
    (do
      let time ← now
      let links : List Id ← .query (.linksOf realm link.2.accountId) .ret
      updateEach inTx links fun id => .useLink realm id time
      let passwordHash : String ← .call (.hashPassword password) .ret
      write inTx (u passwordHash) .recordNotFound
      let time ← now
      let tokens : List Id ← .query (.refreshTokensOf realm link.2.accountId none) .ret
      updateEach inTx tokens fun id => .revokeRefresh realm id time
      let time ← now
      let mobileTokens : List Id ← .query (.mobileTokensOf realm link.2.accountId) .ret
      updateEach inTx mobileTokens fun id => .revokeMobile realm id time :
      Prog accounts Unit).Along (EndLaw r) h fun _ h' => ResetDone realm raw link h' := by
  refine along_now fun time => along_ask (fun _ => trivial) fun s => ?_
  refine along_seq.2 ((updateEach_along (fun _ => rfl) List.mem_cons_self).mono ?_)
  rintro - h₁ ⟨hpassed₁, hlinks⟩
  refine along_invoke (fun _ => nofun) fun hash => along_seq.2 ?_
  refine ((does_write (K := []) (.inl (hu hash))).passes (by simp)).mono fun _ h₂ hpassed₂ => ?_
  refine along_now fun time' => along_ask (fun _ => trivial) fun s' => ?_
  refine along_seq.2 ((updateEach_along (fun _ => rfl) List.mem_cons_self).mono ?_)
  rintro - h₃ ⟨hpassed₃, htokens⟩
  refine along_now fun time'' => along_ask (fun _ => trivial) fun s'' => ?_
  refine (updateEach_along (fun _ => rfl) List.mem_cons_self).mono ?_
  rintro - h₄ ⟨hpassed₄, hmobile⟩
  have h₁₃ : h₁ <:+ h₃ := ((List.suffix_cons _ _).trans hpassed₂.suffix).trans
    (((List.suffix_cons _ _).trans (List.suffix_cons _ _)).trans hpassed₃.suffix)
  have h₃₄ : h₃ <:+ h₄ :=
    ((List.suffix_cons _ _).trans (List.suffix_cons _ _)).trans hpassed₄.suffix
  have h₀₄ : h <:+ h₄ := ((((List.suffix_cons _ _).trans (List.suffix_cons _ _)).trans
    hpassed₁.suffix).trans h₁₃).trans h₃₄
  constructor
  · obtain ⟨scope, hmem⟩ := hfound
    exact ⟨scope, h₀₄.subset hmem⟩
  · obtain ⟨time, hmem⟩ := hclaimed
    exact ⟨time, h₀₄.subset hmem⟩
  · exact ⟨_, time, hlinks.mono (h₁₃.trans h₃₄)⟩
  · exact ⟨_, time', htokens.mono h₃₄⟩
  · exact ⟨_, time'', hmobile⟩

theorem resetPassword_along {inTx : Bool} {dto : ResetPasswordDto} :
    (AuthService.resetPassword inTx dto).Along (EndLaw r) [] fun _ h =>
      ∃ link, ResetDone .staff dto.token link h := by
  refine along_ask (fun _ => trivial) fun s => along_now fun time => along_seq.2 ?_
  refine along_orThrow.2 ⟨fun _ => trivial, fun link hlink => along_now fun time => ?_⟩
  have hfound := (Option.filter_eq_some_iff.1 hlink).1
  refine Lenient.issue (fun _ _ => trades_of_still rfl) fun claimed => along_seq.2 (along_throwIf.2 ⟨?_, ?_⟩)
  · exact fun _ => trivial
  · intro hclaimed
    obtain rfl : claimed = true := by simpa using hclaimed
    refine along_seq.2 (((does_settle (K := [])).passes (by simp)).mono fun _ h₁ hpassed => ?_)
    refine (afterClaim_along (fun _ => rfl) ⟨none, ?_⟩ ⟨time, ?_⟩).mono fun _ _ hdone => ⟨link, hdone⟩
    · refine hpassed.suffix.subset ?_
      rw [← hfound]
      simp
    · exact hpassed.suffix.subset List.mem_cons_self

theorem resetPasswordCustomer_along {tenantId : Id} {dto : ResetPasswordDto} :
    (CustomersAuthService.resetPassword tenantId dto).Along (EndLaw r) [] fun _ h =>
      ∃ link, ResetDone .customer dto.token link h := by
  refine along_ask (fun _ => trivial) fun s => along_now fun time => along_seq.2 ?_
  refine along_orThrow.2 ⟨fun _ => trivial, fun link hlink => along_ask (fun _ => trivial) fun s' => ?_⟩
  have hfound := (Option.filter_eq_some_iff.1 hlink).1
  refine along_seq.2 (along_throwIf.2 ⟨fun _ => trivial, fun _ => along_now fun time => ?_⟩)
  refine Lenient.issue (fun _ _ => trades_of_still rfl) fun claimed => along_seq.2 (along_throwIf.2 ⟨?_, ?_⟩)
  · exact fun _ => trivial
  · intro hclaimed
    obtain rfl : claimed = true := by simpa using hclaimed
    refine (afterClaim_along (fun _ => rfl) ⟨some tenantId, ?_⟩ ⟨time, ?_⟩).mono
      fun _ _ hdone => ⟨link, hdone⟩
    · rw [← hfound]
      simp
    · exact List.mem_cons_self

/-! ## Exchanges -/

/-- What an exchange of mobile tokens answers: a new token for one it has revoked,
and a refusal after it has gone through the family of a misused one. -/
def Answers (realm : Realm) (dto : MobileRefreshDto) (result : MobileRefreshResult)
    (h : List Ev) : Prop :=
  Burnt realm dto h ∧ ∀ accessToken refreshToken, result = .ok accessToken refreshToken →
    ExchangedMobile realm dto.refreshToken h

/-- The token that was looked up is not a misused one. -/
theorem burnt_of_found {realm : Realm} {dto : MobileRefreshDto} {scope : Option Id}
    {tokenHash : TokenHash} {found : Option (Id × MobileRefreshToken)}
    (hpassed : Passed [.query (.mobileToken realm scope tokenHash) found] h)
    (hgood : ∀ id stored, found = some (id, stored) → stored.misused dto = false) :
    Burnt realm dto h := by
  intro scope' id stored hmem hmisused
  have hquery := List.mem_singleton.1 (hpassed.quiet _ hmem rfl)
  cases hquery
  rw [hgood id stored rfl] at hmisused
  cases hmisused

theorem revokeFamily_along {realm : Realm} {inTx : Bool} {familyId : Id} :
    (revokeFamily realm inTx familyId).Along (EndLaw r) h fun _ h' => Passed h h' ∧
      ∃ (ids : List Id) (time : Time), WentThrough (.family realm familyId) ids ids
        (fun id => .revokeMobile realm id time) h' := by
  refine along_now fun time => along_ask (fun _ => trivial) fun s => ?_
  refine (updateEach_along (fun _ => rfl) List.mem_cons_self).mono ?_
  rintro - h' ⟨hpassed, hwent⟩
  refine ⟨.trans ?_ hpassed, _, time, hwent⟩
  exact (Passed.cons (by simp [kind])).trans (.cons (by simp [kind]))

theorem write_along {inTx : Bool} {u : Update} {e : Err} (hu : r.trades = true → Trades h u) :
    (write inTx u e).Along (EndLaw r) h fun _ h' => Passed h h' ∧
      ∃ late, h' = late ++ .update u true :: h := by
  refine along_seq.2 (along_seq.2 fun hit => ⟨hu, along_throwIf.2 ⟨fun _ => trivial, ?_⟩⟩)
  intro hhit
  obtain rfl : hit = true := by simpa using hhit
  refine ((does_settle (K := [])).passes (by simp)).mono fun _ h' hpassed => ?_
  obtain ⟨late, rfl⟩ := hpassed.suffix
  exact ⟨(Passed.cons (kind_update_ne_find u)).trans hpassed, late, rfl⟩

variable {realm : Realm} {dto : MobileRefreshDto} {scope : Option Id}

theorem refused_of_found {found : Option (Id × MobileRefreshToken)}
    (hpassed : Passed [.query (.mobileToken realm scope (hashRandom dto.refreshToken)) found] h)
    (hgood : ∀ id stored, found = some (id, stored) → stored.misused dto = false) :
    Answers realm dto .refused h := ⟨burnt_of_found hpassed hgood, nofun⟩

/-- A misused token is answered with a refusal after its family was gone through. -/
theorem misused_along {inTx : Bool} {id : Id} {stored : MobileRefreshToken} :
    (revokeFamily realm inTx stored.familyId >>= fun _ =>
      (.ret .refused : Prog accounts MobileRefreshResult)).Along (EndLaw r)
      [.query (.mobileToken realm scope (hashRandom dto.refreshToken)) (some (id, stored))]
      fun result h => Answers realm dto result h := by
  refine along_seq.2 (revokeFamily_along.mono ?_)
  rintro - h ⟨hpassed, hwent⟩
  refine ⟨fun scope' id' stored' hmem _ => ?_, nofun⟩
  cases List.mem_singleton.1 (hpassed.quiet _ hmem rfl)
  exact hwent

theorem createMobileRefreshToken_along {inTx : Bool} {tokenHash : TokenHash} {id : Id}
    {stored : MobileRefreshToken} {time : Time} {deviceId : String} {familyId : Id}
    {tenantId : Option Id} {tenantRole : Option Auth.TenantMemberRole}
    (hx : Exchanged (.query (.mobileToken realm scope tokenHash) (some (id, stored)))
      (.rotateMobile realm id time) h) :
    (createMobileRefreshToken realm inTx stored.accountId deviceId familyId tenantId
      tenantRole).Along (EndLaw r) h fun _ h' => Passed h h' := by
  refine along_now fun time' => along_invoke (fun _ => nofun) fun id' => ?_
  refine along_invoke (fun _ => nofun) fun rawToken => ?_
  have hpassed : Passed h (.call .randomBytes rawToken :: .call .uuid id' :: .call .now time' :: h) :=
    ((Passed.cons (by simp [kind])).trans (.cons (by simp [kind]))).trans (.cons (by simp [kind]))
  refine along_seq.2 ((write_along fun _ => ?_).mono fun _ _ hwrote => hpassed.trans hwrote.1)
  exact ⟨scope, tokenHash, id, stored, time, hx.passed hpassed, rfl⟩

/-- The end of an exchange that has revoked its token: the answer that stands for a
member who has left, or a new token. -/
theorem exchanged_along {p : Prog accounts MobileRefreshResult} {id : Id}
    {stored : MobileRefreshToken} {time : Time} {e : Err} {inTx : Bool}
    (hp : ∀ h', Exchanged (.query (.mobileToken realm scope (hashRandom dto.refreshToken))
      (some (id, stored))) (.rotateMobile realm id time) h' →
        p.Along (EndLaw r) h' fun _ h'' => Passed h' h'')
    (hgood : stored.misused dto = false)
    (hpassed : Passed [.query (.mobileToken realm scope (hashRandom dto.refreshToken))
      (some (id, stored))] h) :
    (write inTx (.rotateMobile realm id time) e >>= fun _ => p).Along (EndLaw r) h fun result h' =>
      Answers realm dto result h' := by
  refine along_seq.2 ((write_along fun _ => by trivial).mono ?_)
  rintro - h₁ ⟨hpassed₁, late, rfl⟩
  have hx : Exchanged (.query (.mobileToken realm scope (hashRandom dto.refreshToken))
      (some (id, stored))) (.rotateMobile realm id time)
      (late ++ .update (.rotateMobile realm id time) true :: h) :=
    ⟨fun e he hkind => List.mem_singleton.1 ((hpassed.trans hpassed₁).quiet e he hkind),
      late, h, rfl, hpassed.suffix.subset List.mem_cons_self⟩
  refine (hp _ hx).mono fun result h₂ hpassed₂ => ⟨?_, fun _ _ _ => ?_⟩
  · refine burnt_of_found ((hpassed.trans hpassed₁).trans hpassed₂) fun id' stored' heq => ?_
    cases heq
    exact hgood
  · exact ⟨scope, id, stored, time, hx.passed hpassed₂⟩

theorem retired_along {id : Id} {time : Time} {inTx : Bool} {found : Option (Id × MobileRefreshToken)}
    (hpassed : Passed [.query (.mobileToken realm scope (hashRandom dto.refreshToken)) found] h)
    (hgood : ∀ id stored, found = some (id, stored) → stored.misused dto = false) :
    (write inTx (.retireMobile realm id time) .recordNotFound >>= fun _ =>
      (.ret .refused : Prog accounts MobileRefreshResult)).Along (EndLaw r) h fun result h' =>
        Answers realm dto result h' :=
  along_seq.2 ((write_along fun _ => by trivial).mono fun _ _ hwrote =>
    refused_of_found (hpassed.trans hwrote.1) hgood)

theorem renewed_along {inTx : Bool} {tokenHash : TokenHash} {id : Id} {stored : MobileRefreshToken}
    {time : Time} {tenantRole : Option Auth.TenantMemberRole} {accessToken : Prog accounts Jwt}
    (hsign : Does [] accessToken)
    (hx : Exchanged (.query (.mobileToken realm scope tokenHash) (some (id, stored)))
      (.rotateMobile realm id time) h) :
    (createMobileRefreshToken realm inTx stored.accountId stored.deviceId stored.familyId
      stored.tenantId tenantRole >>= fun refreshToken => accessToken >>= fun accessToken =>
        (.ret (.ok accessToken refreshToken) : Prog accounts MobileRefreshResult)).Along
      (EndLaw r) h fun _ h' => Passed h h' := by
  refine along_seq.2 ((createMobileRefreshToken_along hx).mono fun _ _ hpassed => ?_)
  exact along_seq.2 ((hsign.passes (by simp)).mono fun _ _ hpassed' => hpassed.trans hpassed')

theorem mobileRefresh_along {inTx : Bool} :
    (AuthService.mobileRefresh inTx dto).Along (EndLaw r) [] fun result h =>
      Answers .staff dto result h := by
  refine along_ask (fun _ => trivial) fun s => ?_
  generalize accounts.eval (.mobileToken .staff none (hashRandom dto.refreshToken)) s = found
  cases found with
  | none => exact refused_of_found (.refl _) nofun
  | some found =>
      obtain ⟨id, stored⟩ := found
      dsimp only
      split
      · exact misused_along
      · next hmisused =>
          have hgood : ∀ id' stored', some (id, stored) = some (id', stored') →
              stored'.misused dto = false := by
            rintro id' stored' heq
            cases heq
            simpa using hmisused
          refine along_now fun time => ?_
          have hpassed := Passed.cons (e := .call .now time) (h := [.query (.mobileToken .staff none
            (hashRandom dto.refreshToken)) (some (id, stored))]) (by simp [kind])
          split
          · exact refused_of_found hpassed hgood
          · refine along_ask (fun _ => trivial) fun s => along_now fun time' => ?_
            have hpassed' := (hpassed.trans (.cons (e := .query (.user stored.accountId)
              (accounts.eval (.user stored.accountId) s)) (by simp [kind]))).trans
              (.cons (e := .call .now time') (by simp [kind]))
            split
            · exact retired_along hpassed' hgood
            · refine exchanged_along (fun h' hx => ?_) (hgood id stored rfl) hpassed'
              refine along_seq.2 (((does_currentRole (K := [])).passes (by simp)).mono ?_)
              intro role h₁ hpassed₁
              split
              · exact along_seq.2 (revokeFamily_along.mono fun _ _ hrevoked =>
                  hpassed₁.trans hrevoked.1)
              · exact (renewed_along does_sign (hx.passed hpassed₁)).mono fun _ _ hpassed₂ =>
                  hpassed₁.trans hpassed₂

theorem mobileRefreshCustomer_along {tenantId : Id} :
    (CustomersAuthService.mobileRefresh tenantId dto).Along (EndLaw r) [] fun result h =>
      Answers .customer dto result h := by
  refine along_ask (fun _ => trivial) fun s => ?_
  generalize accounts.eval (.mobileToken .customer (some tenantId) (hashRandom dto.refreshToken)) s =
    found
  cases found with
  | none => exact refused_of_found (.refl _) nofun
  | some found =>
      obtain ⟨id, stored⟩ := found
      dsimp only
      split
      · exact misused_along
      · next hmisused =>
          have hgood : ∀ id' stored', some (id, stored) = some (id', stored') →
              stored'.misused dto = false := by
            rintro id' stored' heq
            cases heq
            simpa using hmisused
          refine along_now fun time => ?_
          have hpassed := Passed.cons (e := .call .now time) (h := [.query (.mobileToken .customer
            (some tenantId) (hashRandom dto.refreshToken)) (some (id, stored))]) (by simp [kind])
          split
          · exact refused_of_found hpassed hgood
          · refine along_ask (fun _ => trivial) fun s => along_now fun time' => ?_
            have hpassed' := (hpassed.trans (.cons (e := .query (.customer tenantId stored.accountId)
              (accounts.eval (.customer tenantId stored.accountId) s)) (by simp [kind]))).trans
              (.cons (e := .call .now time') (by simp [kind]))
            split
            · exact retired_along hpassed' hgood
            · exact exchanged_along (fun h' hx => renewed_along does_sign hx) (hgood id stored rfl)
                hpassed'

theorem createRefreshToken_along {inTx : Bool} {accountId : Id} {refreshToken : Jwt} {e : Err}
    {tokenHash : RefreshHash} {id : Id} {token : RefreshToken} {time : Time}
    (hx : Exchanged (.query (.refreshToken realm scope accountId tokenHash) (some (id, token)))
      (.rotateRefresh realm id time) h) :
    (createRefreshToken realm inTx accountId refreshToken e).Along (EndLaw r) h fun _ h' =>
      Passed h h' := by
  refine along_invoke (fun _ => nofun) fun id' => ?_
  have hpassed : Passed h (.call .uuid id' :: h) := .cons (by simp [kind])
  refine (write_along fun _ => ?_).mono fun _ _ hwrote => hpassed.trans hwrote.1
  exact ⟨scope, tokenHash, id, token, time, hx.passed hpassed⟩

theorem rotated_along {raw : RawToken} {accountId : Id} {found : Id × RefreshToken} {time : Time}
    {e : Err} {inTx : Bool} {p : Prog accounts TokenPair}
    (hfound : .query (.refreshToken realm scope accountId (hashToken raw)) (some found) ∈ h)
    (honly : ∀ e ∈ h, kind e = .find →
      e = .query (.refreshToken realm scope accountId (hashToken raw)) (some found))
    (hp : ∀ h', Exchanged (.query (.refreshToken realm scope accountId (hashToken raw)) (some found))
      (.rotateRefresh realm found.1 time) h' → p.Along (EndLaw r) h' fun _ h'' => Passed h' h'') :
    (write inTx (.rotateRefresh realm found.1 time) e >>= fun _ => p).Along (EndLaw r) h fun _ h' =>
      ExchangedWeb realm raw h' := by
  refine along_seq.2 ((write_along fun _ => by trivial).mono ?_)
  rintro - h₁ ⟨hpassed₁, late, rfl⟩
  have hx : Exchanged (.query (.refreshToken realm scope accountId (hashToken raw)) (some found))
      (.rotateRefresh realm found.1 time)
      (late ++ .update (.rotateRefresh realm found.1 time) true :: h) :=
    ⟨fun e he hkind => honly e (hpassed₁.quiet e he hkind) hkind, late, h, rfl, hfound⟩
  exact (hp _ hx).mono fun _ _ hpassed =>
    ⟨scope, accountId, found.1, found.2, time, hx.passed hpassed⟩

theorem refresh_along {inTx : Bool} {raw : RawToken} :
    (AuthService.refresh inTx raw).Along (EndLaw r) [] fun _ h => ExchangedWeb .staff raw h := by
  refine along_seq.2 (along_now fun time => along_orThrow.2 ⟨fun _ => trivial, fun jwt _ => ?_⟩)
  refine along_ask (fun _ => trivial) fun s => along_now fun time => along_seq.2 ?_
  refine along_orThrow.2 ⟨fun _ => trivial, fun found hfound => along_now fun time => ?_⟩
  have heval := (Option.filter_eq_some_iff.1 hfound).1
  refine rotated_along (?_ : (.query (.refreshToken .staff none jwt.payload.sub
    (hashToken raw)) (some found) : Ev) ∈ _) ?_ fun h' hx => ?_
  · rw [← heval]
    simp
  · rw [← heval]
    simp [kind]
  · refine along_seq.2 (((does_findUser (K := [])).passes (by simp)).mono fun user h₁ hpassed₁ => ?_)
    refine along_seq.2 (((does_throwIf (K := [])).passes (by simp)).mono fun _ h₂ hpassed₂ => ?_)
    refine along_seq.2 (((does_currentRole (K := [])).passes (by simp)).mono fun role h₃ hpassed₃ => ?_)
    refine along_seq.2 (along_orThrow.2 ⟨fun _ => trivial, fun tenantRole _ => ?_⟩)
    have hpassed := (hpassed₁.trans hpassed₂).trans hpassed₃
    refine along_seq.2 (((does_sign (K := [])).passes (by simp)).mono fun _ h₄ hpassed₄ => ?_)
    refine along_invoke (fun _ _ _ h => by cases h) fun jwtid => ?_
    refine along_seq.2 (((does_sign (K := [])).passes (by simp)).mono fun _ h₅ hpassed₅ => ?_)
    have hpassed' := ((hpassed.trans hpassed₄).trans (.cons (by simp [kind]))).trans hpassed₅
    exact along_seq.2 ((createRefreshToken_along (hx.passed hpassed')).mono fun _ _ hpassed₆ =>
      hpassed'.trans hpassed₆)

theorem refreshCustomer_along {tenantId : Id} {raw : RawToken} :
    (CustomersAuthService.refresh tenantId raw).Along (EndLaw r) [] fun _ h =>
      ExchangedWeb .customer raw h := by
  refine along_seq.2 (along_now fun time => along_orThrow.2 ⟨fun _ => trivial, fun jwt _ => ?_⟩)
  refine along_ask (fun _ => trivial) fun s => along_now fun time => along_seq.2 ?_
  refine along_orThrow.2 ⟨fun _ => trivial, fun found hfound => along_now fun time => ?_⟩
  have heval := (Option.filter_eq_some_iff.1 hfound).1
  refine rotated_along (?_ : (.query (.refreshToken .customer (some tenantId) jwt.payload.sub
    (hashToken raw)) (some found) : Ev) ∈ _) ?_ fun h' hx => ?_
  · rw [← heval]
    simp
  · rw [← heval]
    simp [kind]
  · refine along_seq.2 (((does_sign (K := [])).passes (by simp)).mono fun _ h₁ hpassed₁ => ?_)
    refine along_seq.2 (((does_sign (K := [])).passes (by simp)).mono fun _ h₂ hpassed₂ => ?_)
    have hpassed := hpassed₁.trans hpassed₂
    exact along_seq.2 ((createRefreshToken_along (hx.passed hpassed)).mono fun _ _ hpassed₃ =>
      hpassed.trans hpassed₃)

/-! ## Requests -/

/-- A request that is no reset, no refresh and no exchange. -/
theorem ended_of_other (hreset : r.resets = none) (hexchange : r.exchanges = none)
    (hrefresh : r.refreshes = none) : Ended r h := by
  constructor
  · intro realm raw hr
    cases hreset.symm.trans hr
  · intro realm dto hr
    cases hexchange.symm.trans hr
  · intro realm raw hr
    cases hrefresh.symm.trans hr

theorem ended_of_reset {raw : Id} (hr : r.resets = some (realm, raw))
    (hexchange : r.exchanges = none) (hrefresh : r.refreshes = none)
    (hdone : ∃ link, ResetDone realm raw link h) : Ended r h := by
  refine ⟨fun realm' raw' hr' => ?_, fun realm dto hr' => ?_, fun realm raw hr' => ?_⟩
  · cases hr.symm.trans hr'
    exact hdone
  · cases hexchange.symm.trans hr'
  · cases hrefresh.symm.trans hr'

theorem ended_of_refresh {raw : RawToken} (hr : r.refreshes = some (realm, raw))
    (hreset : r.resets = none) (hexchange : r.exchanges = none)
    (hdone : ExchangedWeb realm raw h) : Ended r h := by
  refine ⟨fun realm raw hr' => ?_, fun realm dto hr' => ?_, fun realm' raw' hr' => ?_⟩
  · cases hreset.symm.trans hr'
  · cases hexchange.symm.trans hr'
  · cases hr.symm.trans hr'
    exact hdone

theorem respond_follows {p : Prog accounts MobileRefreshResult}
    (hr : r.exchanges = some (realm, dto)) (hreset : r.resets = none) (hrefresh : r.refreshes = none)
    (hp : p.Along (EndLaw r) [] fun result h => Answers realm dto result h) :
    (p >>= fun result => Prog.call (S := accounts) (.respondMobileRefresh result) .ret).Follows
      (EndLaw r) := by
  refine along_seq.2 (hp.mono fun result h hanswers a => ⟨?_, ?_⟩)
  · intro accessToken refreshToken hok realm' dto' hr'
    cases hr.symm.trans hr'
    cases hok
    exact hanswers.2 _ _ rfl
  · refine ⟨fun realm raw hr' => ?_, fun realm' dto' hr' => ?_, fun realm raw hr' => ?_⟩
    · cases hreset.symm.trans hr'
    · cases hr.symm.trans hr'
      intro scope id stored hmem hmisused
      obtain ⟨ids, time, hwent⟩ := hanswers.1 scope id stored (by simpa using hmem) hmisused
      exact ⟨ids, time, hwent.mono (List.suffix_cons _ _)⟩
    · cases hrefresh.symm.trans hr'

theorem handler_ends (limits : Limits) (r : Request) : (handler limits r).Follows (EndLaw r) := by
  have hother : ∀ r : Request, r.resets = none → r.exchanges = none → r.refreshes = none →
      (handler limits r).Follows (EndLaw r) := by
    intro r hreset hexchange hrefresh
    have hdoes : (handler limits r).Follows fun _ e => kind e = .plain ∨ kind e ∈ r.kinds :=
      (handler_does limits r []).mono fun _ _ _ => .inl rfl
    refine hdoes.weaken fun h e _ => ?_
    cases e with
    | returned tx => exact ended_of_other hreset hexchange hrefresh
    | update u hit =>
        intro htrades
        rw [Request.trades, hrefresh, hexchange] at htrades
        cases htrades
    | call x a =>
        intro accessToken refreshToken _ realm dto hr
        cases hexchange.symm.trans hr
    | _ => trivial
  cases r with
  | refresh inTx raw =>
      exact along_seq.2 (refresh_along.mono fun _ _ hdone => ended_of_refresh rfl rfl rfl hdone)
  | refreshCustomer tenantId raw =>
      exact along_seq.2 (refreshCustomer_along.mono fun _ _ hdone => ended_of_refresh rfl rfl rfl hdone)
  | mobileRefresh inTx dto => exact respond_follows rfl rfl rfl mobileRefresh_along
  | mobileRefreshCustomer tenantId dto =>
      exact respond_follows rfl rfl rfl mobileRefreshCustomer_along
  | resetPassword inTx dto =>
      exact resetPassword_along.mono fun _ _ hdone => ended_of_reset rfl rfl rfl hdone
  | resetPasswordCustomer tenantId dto =>
      exact resetPasswordCustomer_along.mono fun _ _ hdone => ended_of_reset rfl rfl rfl hdone
  | _ => exact hother _ rfl rfl rfl

structure TokenLaw (r : Request) (h : List Ev) (e : Ev) : Prop where
  kinds : kind e = .plain ∨ kind e ∈ r.kinds
  draws : DrawLaw h e
  ends : EndLaw r h e

theorem handler_tokenLaw (limits : Limits) (r : Request) :
    (handler limits r).Follows (TokenLaw r) := by
  have hkinds : (handler limits r).Follows fun _ e => kind e = .plain ∨ kind e ∈ r.kinds :=
    (handler_does limits r []).mono fun _ _ _ => .inl rfl
  have hdraws : (handler limits r).Follows DrawLaw :=
    (handler_draws limits r []).mono fun _ _ _ => trivial
  exact ((hkinds.and hdraws).and (handler_ends limits r)).weaken fun _ _ hlaw =>
    ⟨hlaw.1.1, hlaw.1.2, hlaw.2⟩

variable {allow : AccountWorld → ℕ → Request → Ev → Prop} {db : Database} {w : AccountWorld} {i : ℕ}

theorem undo_notMem (r : Request) : .undo ∉ r.kinds := by
  cases r <;> simp [Request.kinds]

theorem not_rolledBack (htrace : World.Trace TokenLaw allow (World.initial db) w) :
    .rolledBack ∉ w.own i := by
  intro hmem
  obtain ⟨later, earlier, hown⟩ := List.append_of_mem hmem
  obtain ⟨v, r, v', -, hm, -, -⟩ := htrace.exists_own_move i later _ earlier hown
  rcases hm.lawful.kinds with hkind | hkind
  · cases hkind
  · exact undo_notMem r hkind

/-- A request that has returned gave nothing up, and has done what it ends with. -/
theorem own_of_returned (htrace : World.Trace TokenLaw allow (World.initial db) w)
    {tx : List Update} (hmem : ⟨i, r, .returned tx⟩ ∈ w.log) :
    ∃ earlier, w.own i = .returned tx :: earlier ∧ Ended r earlier ∧
      (∀ e ∈ earlier, ¬ e.Final) ∧ ∀ e ∈ w.own i, ¬ e.GivesUp := by
  obtain ⟨earlier, hown, hlaw, hlive⟩ := htrace.own_of_final hmem trivial
  refine ⟨earlier, hown, hlaw.ends, hlive, fun e he hgives => ?_⟩
  rw [hown] at he
  rcases List.mem_cons.1 he with rfl | he'
  · exact hgives
  · cases e with
    | rolledBack => exact not_rolledBack htrace (hown ▸ he)
    | threw err => exact hlive _ he' trivial
    | _ => exact hgives

end WhatStore.Accounts
