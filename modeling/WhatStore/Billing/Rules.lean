import WhatStore.Billing.Services
import WhatStore.ReadCommitted.Sequential

/-!
# Rules for the services that write subscriptions

An invariant is kept by a request when it is kept by the writes the request makes.
The statements and the parts of services that several proofs share are gone through
here once, for an invariant of any kind.
-/

namespace WhatStore.Billing

open ReadCommitted ReadCommitted.Prog

abbrev Allowed := (c : Call) → c.Answer → Prop

/-- The program keeps `I` while the outside answers within `A`. -/
abbrev KeepsUnder {α : Type} (A : Allowed) (I : Database → Prop) (p : Prog billing α)
    (σ : Session billing) (Q : α → Session billing → Prop) : Prop :=
  p.Keeps (S := billing) A I σ Q

/-- The program keeps `I`, whatever the outside answers. -/
abbrev AlwaysKeeps {α : Type} (I : Database → Prop) (p : Prog billing α) (σ : Session billing)
    (Q : α → Session billing → Prop) : Prop :=
  KeepsUnder (fun _ _ => True) I p σ Q

abbrev Holds (I : Database → Prop) (σ : Session billing) : Prop := Upholds (S := billing) I σ

variable {A : Allowed} {I : Database → Prop} {α β : Type} {σ : Session billing}
  {Q : α → Session billing → Prop} {inTx : Bool} {tenantId : Id}

/-! ## Statements -/

theorem keeps_settle (hσ : Holds I σ) {f : Unit → Prog billing α}
    (hk : ∀ σ', Holds I σ' → σ'.view = σ.view → KeepsUnder A I (f ()) σ' Q) :
    KeepsUnder A I (settle inTx >>= f) σ Q := by
  cases inTx with
  | true => exact hk σ hσ rfl
  | false => exact hk _ hσ.commit rfl

theorem keeps_settle_last : KeepsUnder A I (settle inTx) σ fun _ σ' => σ'.view = σ.view := by
  cases inTx <;> exact rfl

theorem keeps_updateOne {u : Update} (hu : billing.guard u (σ.view.row (billing.key u)) = true →
      I (applyUpdate (S := billing) u σ.view)) :
    KeepsUnder A I (updateOne u) σ fun _ σ' => σ'.view = applyUpdate (S := billing) u σ.view :=
  keeps_write hu (fun _ => rfl) trivial

theorem keeps_insertOne {u : Update} (hu : billing.guard u (σ.view.row (billing.key u)) = true →
      I (applyUpdate (S := billing) u σ.view)) :
    KeepsUnder A I (insertOne u) σ fun _ σ' =>
      billing.guard u (σ.view.row (billing.key u)) = true ∧
        σ'.view = applyUpdate (S := billing) u σ.view :=
  keeps_write hu (fun hguard => ⟨hguard, rfl⟩) trivial

theorem keeps_writeIn {u : Update} (hσ : Holds I σ)
    (hu : billing.guard u (σ.view.row (billing.key u)) = true →
      I (applyUpdate (S := billing) u σ.view)) :
    KeepsUnder A I (write inTx u) σ fun _ σ' =>
      σ'.view = applyUpdate (S := billing) u σ.view :=
  (keeps_updateOne hu).seq hσ fun _ _ hσ' hview =>
    keeps_settle_last.mono hσ' fun _ _ _ hsame => hsame.trans hview

/-- A subscription that is created is that of a store, on a plan there is. -/
theorem keeps_createSubscription {sub : Subscription} (hσ : Holds I σ)
    (hu : ∀ id, σ.view.row (.subscription id) = none →
      (∃ t, σ.view.row (.tenant sub.tenantId) = some t) → (∃ p, findPlan σ.view sub.planId = some p) →
        I (applyUpdate (S := billing) (.insertSubscription id sub) σ.view)) :
    KeepsUnder A I (createSubscription sub) σ fun id σ' =>
      σ.view.row (.subscription id) = none ∧
        σ'.view = applyUpdate (S := billing) (.insertSubscription id sub) σ.view := by
  refine keeps_ask (keeps_ask (keeps_check fun hexists => keeps_invoke fun id _ => ?_))
  simp only [Query.eval, Bool.or_eq_false_iff, Option.isNone_eq_false_iff,
    Option.isSome_iff_exists] at hexists
  refine (keeps_insertOne fun hguard => ?_).seq hσ fun _ σ' _ ⟨hguard, hview⟩ => ?_
  · exact hu id (Option.isNone_iff_eq_none.1 hguard) hexists.1 hexists.2
  · exact ⟨Option.isNone_iff_eq_none.1 hguard, hview⟩

/-! ## Plans -/

def entitlementsAt (db : Database) (tenantId : Id) (time : Time) : PlanEntitlements :=
  applyLimitsOverride
    (planEntitlements ((Query.eval (.currentSubscription tenantId) db).filter fun c =>
      !isLapsed c time))
    ((Query.eval (.tenant tenantId) db).bind Tenant.limitsOverride)

theorem keeps_getEntitlements (tenantId : Id) :
    KeepsUnder A I (getEntitlements tenantId) σ fun entitlements σ' => σ' = σ ∧
      ∃ time, A .now time ∧ entitlements = entitlementsAt σ.view tenantId time :=
  keeps_ask (keeps_ask (keeps_invoke fun time htime => ⟨rfl, time, htime, rfl⟩))

theorem getEntitlements_exec {answer : Answers billing} {n : ℕ} {db : Database} :
    (getEntitlements tenantId).exec (S := billing) answer n (.start db) =
      ⟨.ok (entitlementsAt db tenantId (answer n .now)), n + 1, .start db⟩ := rfl

theorem keeps_hideProductsOverLimit (hσ : Holds I σ)
    (hunpublish : ∀ db id, I db → I (applyUpdate (S := billing) (.unpublish id) db))
    (tenantId : Id) : KeepsUnder A I (hideProductsOverLimit inTx tenantId) σ fun _ _ => True := by
  refine (keeps_getEntitlements tenantId).seq hσ fun entitlements σ' hσ' _ => ?_
  split
  · exact trivial
  refine keeps_check fun _ => keeps_ask ?_
  refine (keeps_each hσ' fun id σ hσ => ?_).seq hσ' fun _ σ'' hσ'' _ => ?_
  · exact keeps_write (fun _ => hunpublish _ id hσ.view) (fun _ => trivial) trivial
  · exact keeps_settle hσ'' fun _ _ _ => trivial

theorem keeps_assertUnderNewProductLimit (tenantId : Id) (maxProducts : Int) :
    KeepsUnder A I (assertUnderNewProductLimit tenantId maxProducts) σ fun _ σ' => σ' = σ ∧
      (maxProducts ≠ -1 → (billing.eval (.productCount tenantId) σ.view : Int) ≤ maxProducts) := by
  unfold assertUnderNewProductLimit
  split
  · next hunlimited =>
      exact ⟨rfl, fun hlimited => absurd (by simpa using hunlimited) hlimited⟩
  · exact keeps_ask (keeps_throwIf.2 fun hroom => ⟨rfl, fun _ => by simpa using hroom⟩)

theorem keeps_findSubscription {f : Current → Prog billing α} (id : Id)
    (hk : ∀ c, billing.eval (.subscription id) σ.view = some c → KeepsUnder A I (f c) σ Q) :
    KeepsUnder A I (findSubscription id >>= f) σ Q :=
  (keeps_bind _ _ _).2 (keeps_ask ((keeps_bind _ _ _).1 (keeps_demand hk)))

theorem keeps_assertBilledOnce (period : PaidPeriod) (id : Option Id) :
    KeepsUnder A I (assertBilledOnce period id) σ fun _ σ' => σ' = σ := by
  unfold assertBilledOnce
  split
  · exact rfl
  · exact keeps_ask (keeps_throwIf.2 fun _ => rfl)

/-! ## Card billing -/

theorem keeps_requireStripe {f : Unit → Prog billing α} (hk : KeepsUnder A I (f ()) σ Q) :
    KeepsUnder A I (requireStripe >>= f) σ Q :=
  (keeps_bind _ _ _).2 (keeps_invoke fun _ _ => (keeps_bind _ _ _).1 (keeps_check fun _ => hk))

theorem keeps_requirePlansLink {f : String → Prog billing α}
    (hk : ∀ link, KeepsUnder A I (f link) σ Q) : KeepsUnder A I (requirePlansLink >>= f) σ Q :=
  (keeps_bind _ _ _).2 (keeps_invoke fun _ _ => keeps_demand fun _ _ => hk _)

theorem keeps_orThrow {o : Option α} {e : Err} : KeepsUnder A I (orThrow o e) σ fun _ σ' => σ' = σ := by
  cases o with
  | none => exact trivial
  | some a => exact rfl

theorem keeps_createCheckout (hσ : Holds I σ) (tenantId planId : Id) :
    KeepsUnder A I (createCheckout tenantId planId) σ fun _ σ' => σ' = σ := by
  refine keeps_requireStripe (keeps_ask (keeps_demand fun plan _ => keeps_check fun _ => ?_))
  refine (keeps_assertUnderNewProductLimit tenantId plan.maxProducts).seq hσ fun _ σ' _ ⟨hsame, _⟩ => ?_
  subst hsame
  refine keeps_ask (keeps_check fun _ => keeps_ask (keeps_demand fun _ _ => ?_))
  exact keeps_requirePlansLink fun _ => keeps_invoke fun _ _ => keeps_orThrow

theorem keeps_createPortal (tenantId : Id) :
    KeepsUnder A I (createPortal tenantId) σ fun _ σ' => σ' = σ := by
  refine keeps_requireStripe (keeps_ask (keeps_demand fun _ _ => ?_))
  exact keeps_requirePlansLink fun _ => keeps_invoke fun _ _ => keeps_orThrow

theorem keeps_cancelStripeSubscription (id : Option Id) :
    KeepsUnder A I (match id with
      | none => .ret ()
      | some id => cancelStripeSubscription id) σ fun _ σ' => σ' = σ := by
  cases id with
  | none => exact rfl
  | some id => exact fun _ _ => rfl

theorem keeps_retrieve {f : StripeSubscription → Prog billing α} (id : Id)
    (hk : ∀ sub, KeepsUnder A I (f sub) σ Q) : KeepsUnder A I (retrieve id >>= f) σ Q := by
  refine (keeps_bind _ _ _).2 (keeps_requireStripe (keeps_invoke fun answer _ => ?_))
  exact (keeps_bind _ _ _).1 (keeps_demand fun sub _ => hk sub)

theorem keeps_updateBilled (hσ : Holds I σ) (stripeSubscriptionId : Id) {u : Id → Update}
    (hu : ∀ id db, I db → billing.guard (u id) (db.row (billing.key (u id))) = true →
      I (applyUpdate (S := billing) (u id) db)) :
    KeepsUnder A I (updateBilled inTx stripeSubscriptionId u) σ fun _ _ => True := by
  refine keeps_ask ((keeps_each hσ fun id σ hσ => ?_).seq hσ fun _ σ' hσ' _ => ?_)
  · exact keeps_write (hu id _ hσ.view) (fun _ => trivial) trivial
  · exact keeps_settle_last.mono hσ' fun _ _ _ _ => trivial

/-! ## The hourly sweep -/

structure SweepKeeps (I : Database → Prop) : Prop where
  claim : ∀ db id expiresAt notice, I db →
    I (applyUpdate (S := billing) (.claimNotice id expiresAt notice) db)
  notices : ∀ db id notices, I db → I (applyUpdate (S := billing) (.setNotices id notices) db)
  downgrade : ∀ db id, I db → I (applyUpdate (S := billing) (.downgrade id (Query.eval .freePlan db)) db)
  unpublish : ∀ db id, I db → I (applyUpdate (S := billing) (.unpublish id) db)

theorem keeps_downgrade (h : SweepKeeps I) (hσ : Holds I σ) (current : Current) :
    KeepsUnder A I (downgrade current) σ fun _ _ => True := by
  have hrest : KeepsUnder A I (do
      let freePlan ← findFreePlan
      write false (.downgrade current.id freePlan)
      let _ ← hideProductsOverLimit false current.subscription.tenantId
      .ret ()) σ fun _ _ => True := by
    refine keeps_ask ((keeps_writeIn hσ fun _ => h.downgrade _ _ hσ.view).seq hσ fun _ σ' hσ' _ => ?_)
    exact (keeps_hideProductsOverLimit hσ' h.unpublish _).seq hσ' fun _ _ _ _ => trivial
  unfold downgrade
  split
  · exact hrest
  · exact fun _ _ => hrest

theorem keeps_handleCandidate (h : SweepKeeps I) (hσ : Holds I σ) (current : Current)
    (time : Time) : KeepsUnder A I (handleCandidate current time) σ fun _ _ => True := by
  unfold handleCandidate
  split
  · exact trivial
  next notice _ =>
  have hrest : ∀ claimed σ, Holds I σ → KeepsUnder A I (do
      settle false
      Prog.runIf claimed do
        let acted ← Prog.attempt do
          Prog.runIf (notice == .downgraded) (downgrade current)
          notify current notice
        Prog.runIf acted.isNone do
          releaseNotice current.id notice
          .throw (.failure "Expiry check failed")) σ fun _ _ => True := by
    intro claimed σ hσ
    refine keeps_settle hσ fun σ hσ _ => keeps_runIf.2 ⟨fun _ => ?_, fun _ => trivial⟩
    have hacted : KeepsUnder A I (do
        Prog.runIf (notice == .downgraded) (downgrade current)
        notify current notice) σ fun _ _ => True := by
      refine Keeps.seq (keeps_runIf.2 ⟨fun _ => keeps_downgrade h hσ current, fun _ => trivial⟩) hσ
        fun _ _ _ _ => ?_
      exact keeps_invoke fun _ _ => keeps_throwIf.2 fun _ => trivial
    refine hacted.attempt.seq hσ fun acted σ hσ _ => keeps_runIf.2 ⟨fun _ => ?_, fun _ => trivial⟩
    refine (keeps_bind _ _ _).2 (keeps_ask ?_)
    split
    · exact trivial
    · exact (keeps_writeIn hσ fun _ => h.notices _ _ _ hσ.view).mono hσ fun _ _ _ _ => trivial
  have hclaim := h.claim σ.view current.id current.subscription.expiresAt notice hσ.view
  exact keeps_write (fun _ => hclaim) (fun _ => hrest true _ (hσ.apply hclaim)) (hrest false σ hσ)

theorem keeps_run (h : SweepKeeps I) (hσ : Holds I σ) : KeepsUnder A I run σ fun _ _ => True := by
  refine keeps_invoke fun time _ => keeps_ask (keeps_each hσ fun current σ hσ => ?_)
  exact (keeps_handleCandidate h hσ current time).attempt.seq hσ fun _ _ _ _ => trivial

/-! ## Products -/

theorem keeps_assertUnderProductLimit (hσ : Holds I σ) {f : Unit → Prog billing α}
    (hk : ∀ time, A .now time →
      ((entitlementsAt σ.view tenantId time).maxProducts ≠ -1 →
        (billing.eval (.productCount tenantId) σ.view : Int) <
          (entitlementsAt σ.view tenantId time).maxProducts) → KeepsUnder A I (f ()) σ Q) :
    KeepsUnder A I (ProductsService.assertUnderProductLimit tenantId >>= f) σ Q := by
  refine (keeps_bind _ _ _).2 (keeps_invoke fun _ _ => ?_)
  refine (keeps_getEntitlements tenantId).seq hσ fun entitlements σ' _ ⟨hsame, time, htime, heq⟩ => ?_
  subst hsame heq
  split
  · next hunlimited =>
      exact hk time htime fun hlimited => absurd (by simpa using hunlimited) hlimited
  · exact keeps_ask (keeps_throwIf.2 fun hroom => hk time htime fun _ => by simpa using hroom)

theorem keeps_assertUnderLiveProductLimit (hσ : Holds I σ) (productId : Id) :
    KeepsUnder A I (ProductsService.assertUnderLiveProductLimit tenantId productId) σ
      fun _ σ' => σ' = σ ∧ ∃ time, A .now time ∧
        ((entitlementsAt σ.view tenantId time).maxProducts ≠ -1 →
          (billing.eval (.otherLiveCount tenantId productId) σ.view : Int) <
            (entitlementsAt σ.view tenantId time).maxProducts) := by
  refine keeps_invoke fun _ _ => ?_
  refine (keeps_getEntitlements tenantId).seq hσ fun entitlements σ' _ ⟨hsame, time, htime, heq⟩ => ?_
  subst hsame heq
  split
  · next hunlimited =>
      exact ⟨rfl, time, htime, fun hlimited => absurd (by simpa using hunlimited) hlimited⟩
  · exact keeps_ask (keeps_throwIf.2 fun hroom => ⟨rfl, time, htime, fun _ => by simpa using hroom⟩)

theorem keeps_create (hσ : Holds I σ) (dto : ProductsService.ProductDto)
    (hu : ∀ id (row : Product) time, row.tenantId = tenantId → σ.view.row (.product id) = none →
      A .now time → ((entitlementsAt σ.view tenantId time).maxProducts ≠ -1 →
        (billing.eval (.productCount tenantId) σ.view : Int) <
          (entitlementsAt σ.view tenantId time).maxProducts) →
      I (applyUpdate (S := billing) (.insertProduct id row) σ.view)) :
    KeepsUnder A I (ProductsService.create tenantId dto) σ fun _ _ => True := by
  refine keeps_assertUnderProductLimit hσ fun time htime hroom => ?_
  refine keeps_invoke fun createdAt _ => keeps_invoke fun id _ => ?_
  refine (keeps_insertOne fun hguard => ?_).mono hσ fun _ _ _ _ => trivial
  exact hu id _ time rfl (Option.isNone_iff_eq_none.1 hguard) htime hroom

theorem keeps_findOne {f : Product → Prog billing α} (id : Id)
    (hk : ∀ p : Product, σ.view.row (.product id) = some p → p.tenantId = tenantId →
      KeepsUnder A I (f p) σ Q) :
    KeepsUnder A I (ProductsService.findOne tenantId id >>= f) σ Q := by
  refine (keeps_bind _ _ _).2 (keeps_ask ((keeps_bind _ _ _).1 (keeps_demand fun p hp => ?_)))
  obtain ⟨hrow, htenant⟩ := Option.filter_eq_some_iff.1 hp
  exact hk p hrow (by simpa using htenant)

theorem keeps_update (hσ : Holds I σ) (id : Id) (dto : ProductsService.ProductDto)
    (hu : ∀ p : Product, σ.view.row (.product id) = some p → p.tenantId = tenantId →
      (dto.isActive.getD p.isActive && dto.isPublished.getD p.isPublished &&
          !(p.isActive && p.isPublished)) = false ∨
        (∃ time, A .now time ∧ ((entitlementsAt σ.view tenantId time).maxProducts ≠ -1 →
          (billing.eval (.otherLiveCount tenantId id) σ.view : Int) <
            (entitlementsAt σ.view tenantId time).maxProducts)) →
      I (applyUpdate (S := billing) (.updateProduct id dto.isActive dto.isPublished) σ.view)) :
    KeepsUnder A I (ProductsService.update tenantId id dto) σ fun _ _ => True := by
  refine keeps_findOne id fun p hrow htenant => ?_
  have hchecked : KeepsUnder A I (runIf (dto.isActive.getD p.isActive &&
      dto.isPublished.getD p.isPublished && !(p.isActive && p.isPublished))
      (ProductsService.assertUnderLiveProductLimit tenantId id)) σ fun _ σ' => σ' = σ ∧
        I (applyUpdate (S := billing) (.updateProduct id dto.isActive dto.isPublished) σ.view) := by
    refine keeps_runIf.2 ⟨fun _ => ?_, fun hsame => ⟨rfl, hu p hrow htenant (.inl hsame)⟩⟩
    exact (keeps_assertUnderLiveProductLimit hσ id).mono hσ fun _ _ _ ⟨hsame, hroom⟩ =>
      ⟨hsame, hu p hrow htenant (.inr hroom)⟩
  refine hchecked.seq hσ fun _ σ' hσ' ⟨hsame, hwrite⟩ => ?_
  subst hsame
  exact (keeps_updateOne fun _ => hwrite).mono hσ' fun _ _ _ _ => trivial

theorem keeps_remove (hσ : Holds I σ) (id : Id)
    (hu : ∀ p : Product, σ.view.row (.product id) = some p → p.tenantId = tenantId →
      I (applyUpdate (S := billing) (.deleteProduct id) σ.view)) :
    KeepsUnder A I (ProductsService.remove tenantId id) σ fun _ _ => True := by
  refine keeps_findOne id fun p hrow htenant => keeps_invoke fun _ _ => keeps_demand fun _ _ => ?_
  refine (keeps_updateOne fun _ => hu p hrow htenant).seq hσ fun _ _ _ _ => ?_
  exact fun _ _ => trivial

theorem keeps_moderate (hσ : Holds I σ) (id : Id) (isActive : Bool)
    (hu : ∀ p : Product, σ.view.row (.product id) = some p →
      I (applyUpdate (S := billing) (.updateProduct id (some isActive) none) σ.view)) :
    KeepsUnder A I (PlatformProductsService.moderate id isActive) σ fun _ _ => True := by
  refine keeps_ask (keeps_check fun hexists => ?_)
  obtain ⟨p, hp⟩ := Option.isSome_iff_exists.1 (Option.isNone_eq_false_iff.1 hexists)
  exact (keeps_updateOne fun _ => hu p hp).mono hσ fun _ _ _ _ => trivial

end WhatStore.Billing
