import WhatStore.Billing.Rules

/-!
# The one subscription of a store

About ten operations of three services write overlapping columns of a
subscription. A store has at most one, and its columns agree: a plan is requested
exactly while an upgrade is pending, Stripe is the provider exactly when it bills
a subscription, and only such a subscription can end with its period.

A pending upgrade is never billed by Stripe: this is what an approval rests on,
which hands the store back to manual billing without clearing the Stripe id.
-/

namespace WhatStore.Billing

open ReadCommitted ReadCommitted.Prog

/-! ## The invariant -/

structure Consistent (sub : Subscription) : Prop where
  isOpen : sub.isOpen = true
  pending_iff : sub.status = .pendingUpgrade ↔ sub.requestedPlanId.isSome = true
  stripe_iff : sub.billingProvider = .stripe ↔ sub.stripeSubscriptionId.isSome = true
  cancel_billed : sub.cancelAtPeriodEnd = true → sub.stripeSubscriptionId.isSome = true
  pending_unbilled : sub.status = .pendingUpgrade → sub.stripeSubscriptionId = none

def Unsubscribed (tenantId : Id) (db : Database) : Prop :=
  ∀ id sub, db.row (.subscription id) = some sub → sub.tenantId ≠ tenantId

/-- Every subscription is consistent, belongs to a store, and is the only one of it. -/
structure Sound (db : Database) : Prop where
  consistent : ∀ id sub, db.row (.subscription id) = some sub → Consistent sub
  owned : ∀ id sub, db.row (.subscription id) = some sub → ∃ t, db.row (.tenant sub.tenantId) = some t
  unique : ∀ id id' sub sub', db.row (.subscription id) = some sub →
    db.row (.subscription id') = some sub' → sub.tenantId = sub'.tenantId → id = id'

variable {db : Database} {id : Id} {sub : Subscription} {c : Current} {tenantId : Id}

theorem consistent_new (tenantId planId : Id) (expiresAt : Option Time) (createdAt : Time) :
    Consistent (newSubscription tenantId planId expiresAt createdAt) where
  isOpen := rfl
  pending_iff := by simp [newSubscription]
  stripe_iff := by simp [newSubscription]
  cancel_billed := nofun
  pending_unbilled := nofun

/-- A subscription that is not billed by Stripe does not end with a period. -/
theorem Consistent.unbilled (h : Consistent sub) (hnone : sub.stripeSubscriptionId = none) :
    sub.billingProvider ≠ .stripe ∧ sub.cancelAtPeriodEnd = false := by
  constructor
  · intro hstripe
    simpa [hnone] using h.stripe_iff.1 hstripe
  · by_contra hcancel
    simpa [hnone] using h.cancel_billed (by simpa using hcancel)

/-! ## What one write keeps -/

theorem tenant_set (db : Database) (id t : Id) (v : Option Subscription) :
    (db.set (.subscription id) v).row (.tenant t) = db.row (.tenant t) :=
  Store.set_row_of_ne _ _ (by simp)

theorem subscription_set (db : Database) {id j : Id} (v : Option Subscription) (h : j ≠ id) :
    (db.set (.subscription id) v).row (.subscription j) = db.row (.subscription j) :=
  Store.set_row_of_ne _ _ (by simpa using h)

theorem Sound.patch (h : Sound db) {f : Subscription → Subscription}
    (hf : ∀ sub, db.row (.subscription id) = some sub →
      Consistent (f sub) ∧ (f sub).tenantId = sub.tenantId) :
    Sound (db.set (.subscription id) ((db.row (.subscription id)).map f)) := by
  have hback : ∀ {j sub'}, (db.set (.subscription id) ((db.row (.subscription id)).map f)).row
      (.subscription j) = some sub' → ∃ sub, db.row (.subscription j) = some sub ∧
        (Consistent sub → Consistent sub') ∧ sub'.tenantId = sub.tenantId := by
    intro j sub' hrow
    by_cases hj : j = id
    · subst hj
      rw [Store.set_row_self] at hrow
      obtain ⟨sub, hsub, rfl⟩ := Option.map_eq_some_iff.1 hrow
      exact ⟨sub, hsub, fun _ => (hf sub hsub).1, (hf sub hsub).2⟩
    · rw [subscription_set _ _ hj] at hrow
      exact ⟨sub', hrow, fun hsame => hsame, rfl⟩
  constructor
  · intro j sub' hrow
    obtain ⟨sub, hsub, hconsistent, -⟩ := hback hrow
    exact hconsistent (h.consistent j sub hsub)
  · intro j sub' hrow
    obtain ⟨sub, hsub, -, htenant⟩ := hback hrow
    rw [tenant_set, htenant]
    exact h.owned j sub hsub
  · intro j j' sub₁ sub₂ hrow hrow' heq
    obtain ⟨sub₁', hsub₁, -, htenant₁⟩ := hback hrow
    obtain ⟨sub₂', hsub₂, -, htenant₂⟩ := hback hrow'
    exact h.unique j j' _ _ hsub₁ hsub₂ (htenant₁.symm.trans (heq.trans htenant₂))

theorem Sound.insert (h : Sound db) (hnew : Consistent sub)
    (howned : ∃ t, db.row (.tenant sub.tenantId) = some t)
    (hfresh : Unsubscribed sub.tenantId db) :
    Sound (db.set (.subscription id) (some sub)) := by
  constructor
  · intro j sub' hrow
    by_cases hj : j = id
    · subst hj
      rw [Store.set_row_self, Option.some.injEq] at hrow
      exact hrow ▸ hnew
    · rw [subscription_set _ _ hj] at hrow
      exact h.consistent j sub' hrow
  · intro j sub' hrow
    rw [tenant_set]
    by_cases hj : j = id
    · subst hj
      rw [Store.set_row_self, Option.some.injEq] at hrow
      exact hrow ▸ howned
    · rw [subscription_set _ _ hj] at hrow
      exact h.owned j sub' hrow
  · intro j j' sub₁ sub₂ hrow hrow' heq
    by_cases hj : j = id
    · by_cases hj' : j' = id
      · exact hj.trans hj'.symm
      · subst hj
        rw [Store.set_row_self, Option.some.injEq] at hrow
        rw [subscription_set _ _ hj'] at hrow'
        exact absurd (hrow ▸ heq.symm) (hfresh j' sub₂ hrow')
    · rw [subscription_set _ _ hj] at hrow
      by_cases hj' : j' = id
      · subst hj'
        rw [Store.set_row_self, Option.some.injEq] at hrow'
        exact absurd (hrow' ▸ heq) (hfresh j sub₁ hrow)
      · rw [subscription_set _ _ hj'] at hrow'
        exact h.unique j j' _ _ hrow hrow' heq

theorem Sound.other (h : Sound db) {k : Key} {v : Option (Row k)}
    (hsub : ∀ id, Key.subscription id ≠ k)
    (htenant : ∀ id t, db.row (.tenant id) = some t → ∃ t', (db.set k v).row (.tenant id) = some t') :
    Sound (db.set k v) := by
  have hrow : ∀ id, (db.set k v).row (.subscription id) = db.row (.subscription id) :=
    fun id => Store.set_row_of_ne _ _ (hsub id)
  constructor
  · intro id sub hsub
    exact h.consistent id sub (hrow id ▸ hsub)
  · intro id sub hsub
    obtain ⟨t, ht⟩ := h.owned id sub (hrow id ▸ hsub)
    exact htenant _ t ht
  · intro id id' sub sub' hsub hsub' heq
    exact h.unique id id' sub sub' (hrow id ▸ hsub) (hrow id' ▸ hsub') heq

theorem Sound.insertUser (h : Sound db) (id : Id) (row : User) :
    Sound (applyUpdate (S := billing) (.insertUser id row) db) :=
  h.other (by simp [Update.key]) fun j t ht =>
    ⟨t, by rwa [Store.set_row_of_ne _ _ (by simp [Update.key])]⟩

theorem Sound.product (h : Sound db) (id : Id) (v : Option Product) :
    Sound (db.set (.product id) v) :=
  h.other (by simp) fun j t ht => ⟨t, by rwa [Store.set_row_of_ne _ _ (by simp)]⟩

theorem Sound.insertTenant (h : Sound db) (id : Id) (row : Tenant) :
    Sound (applyUpdate (S := billing) (.insertTenant id row) db) := by
  refine h.other (by simp [Update.key]) fun j t ht => ?_
  by_cases hj : j = id
  · subst hj
    exact ⟨row, Store.set_row_self _ _ _⟩
  · exact ⟨t, by rwa [Store.set_row_of_ne _ _ (by simpa [Update.key] using hj)]⟩

/-- A store that is new has no subscription: it would belong to a store already. -/
theorem Sound.unsubscribed (h : Sound db) (hnone : db.row (.tenant tenantId) = none) :
    Unsubscribed tenantId db := by
  intro id sub hsub heq
  obtain ⟨t, ht⟩ := h.owned id sub hsub
  rw [heq, hnone] at ht
  cases ht

/-! ## What the queries answer -/

theorem mem_subscriptionsWhere {p : Subscription → Bool} (hc : c ∈ subscriptionsWhere db p) :
    db.row (.subscription c.id) = some c.subscription ∧ p c.subscription = true := by
  obtain ⟨k, -, hk⟩ := List.mem_filterMap.1 hc
  cases k with
  | subscription id =>
      obtain ⟨sub, hsub, rfl⟩ := Option.map_eq_some_iff.1 hk
      exact Option.filter_eq_some_iff.1 hsub
  | _ => cases hk

theorem plan_of_mem {p : Subscription → Bool} (hc : c ∈ subscriptionsWhere db p) :
    c.plan = findPlan db c.subscription.planId := by
  obtain ⟨k, -, hk⟩ := List.mem_filterMap.1 hc
  cases k with
  | subscription id =>
      obtain ⟨sub, hsub, rfl⟩ := Option.map_eq_some_iff.1 hk
      rfl
  | _ => cases hk

theorem subscriptionsWhere_eq_nil {p : Subscription → Bool} (h : subscriptionsWhere db p = [])
    (hsub : db.row (.subscription id) = some sub) : p sub = false := by
  by_contra hp
  have hmem : (⟨id, sub, findPlan db sub.planId⟩ : Current) ∈ subscriptionsWhere db p := by
    refine List.mem_filterMap.2 ⟨.subscription id, db.mem_keys_of_row hsub, ?_⟩
    simp [hsub, Option.filter, hp]
  rw [h] at hmem
  cases hmem

theorem mem_of_newest {rows : List Current} (h : (newestFirst rows).head? = some c) : c ∈ rows :=
  (List.mem_insertionSort _).1 (List.mem_of_head? h)

theorem eq_nil_of_newest {rows : List Current} (h : (newestFirst rows).head? = none) : rows = [] := by
  have hnil := List.head?_eq_none_iff.1 h
  have hlength := List.length_insertionSort (fun a b : Current =>
    b.subscription.createdAt ≤ a.subscription.createdAt) rows
  rw [show rows.insertionSort _ = [] from hnil] at hlength
  exact List.eq_nil_of_length_eq_zero hlength.symm

theorem current_some (h : Query.eval (.currentSubscription tenantId) db = some c) :
    db.row (.subscription c.id) = some c.subscription ∧ c.subscription.tenantId = tenantId := by
  have hmem := mem_subscriptionsWhere (mem_of_newest h)
  exact ⟨hmem.1, by simpa using hmem.2⟩

theorem current_plan (h : Query.eval (.currentSubscription tenantId) db = some c) :
    c.plan = findPlan db c.subscription.planId := plan_of_mem (mem_of_newest h)

theorem current_none (h : Query.eval (.currentSubscription tenantId) db = none) :
    Unsubscribed tenantId db := by
  intro id sub hsub
  simpa using subscriptionsWhere_eq_nil (eq_nil_of_newest h) hsub

theorem open_some (h : Query.eval (.openSubscription tenantId) db = some c) :
    db.row (.subscription c.id) = some c.subscription ∧ c.subscription.tenantId = tenantId := by
  have hmem := mem_subscriptionsWhere (mem_of_newest h)
  simp only [Bool.and_eq_true, beq_iff_eq] at hmem
  exact ⟨hmem.1, hmem.2.1⟩

theorem open_none (hdb : ∀ (id : Id) (sub : Subscription), db.row (.subscription id) = some sub →
    sub.isOpen = true) (h : Query.eval (.openSubscription tenantId) db = none) :
    Unsubscribed tenantId db := by
  intro id sub hsub
  have hno := subscriptionsWhere_eq_nil (eq_nil_of_newest h) hsub
  simpa [hdb id sub hsub] using hno

theorem find_some (h : Query.eval (.subscription id) db = some c) :
    c.id = id ∧ db.row (.subscription id) = some c.subscription := by
  obtain ⟨sub, hsub, rfl⟩ := Option.map_eq_some_iff.1 h
  exact ⟨rfl, hsub⟩

theorem mem_plansWhere {f : Plan → Bool} {plan : Plan} :
    (id, plan) ∈ plansWhere db f ↔ db.row (.plan id) = some plan ∧ f plan = true := by
  rw [plansWhere, List.mem_filterMap]
  constructor
  · rintro ⟨k, -, hk⟩
    cases k with
    | plan id' =>
        obtain ⟨plan', hplan', heq⟩ := Option.map_eq_some_iff.1 hk
        cases heq
        exact Option.filter_eq_some_iff.1 hplan'
    | _ => cases hk
  · intro h
    refine ⟨.plan id, db.mem_keys_of_row h.1, ?_⟩
    exact Option.map_eq_some_iff.2 ⟨plan, Option.filter_eq_some_iff.2 h, rfl⟩

theorem freePlan_some (h : Query.eval .freePlan db = some id) :
    ∃ p : Plan, db.row (.plan id) = some p ∧ p.isActive = true ∧ p.price = 0 := by
  obtain ⟨⟨id', p⟩, hhead, rfl⟩ := Option.map_eq_some_iff.1 h
  obtain ⟨hrow, hfree⟩ := mem_plansWhere.1 ((List.mem_insertionSort _).1 (List.mem_of_head? hhead))
  exact ⟨p, hrow, by simpa using hfree⟩

/-- The cheapest plan is active, and no active plan costs less. -/
theorem cheapestPlan_some (h : Query.eval .cheapestPlan db = some id) :
    ∃ p : Plan, db.row (.plan id) = some p ∧ p.isActive = true ∧
      ∀ (id' : Id) (p' : Plan), db.row (.plan id') = some p' → p'.isActive = true →
        p.price ≤ p'.price := by
  obtain ⟨⟨id', p⟩, hhead, rfl⟩ := Option.map_eq_some_iff.1 h
  obtain ⟨hrow, hactive⟩ := mem_plansWhere.1 ((List.mem_insertionSort _).1 (List.mem_of_head? hhead))
  refine ⟨p, hrow, hactive, fun j p' hrow' hactive' => ?_⟩
  have : Std.Total fun a b : Id × Plan => a.2.price ≤ b.2.price := ⟨fun a b => Int.le_total _ _⟩
  have : IsTrans (Id × Plan) fun a b => a.2.price ≤ b.2.price := ⟨fun a b c => Int.le_trans⟩
  have hsorted := List.pairwise_insertionSort (fun a b : Id × Plan => a.2.price ≤ b.2.price)
    (plansWhere db Plan.isActive)
  obtain ⟨rest, hrest⟩ := List.head?_eq_some_iff.1 hhead
  have hmem := (List.mem_insertionSort fun a b : Id × Plan => a.2.price ≤ b.2.price).2
    (mem_plansWhere.2 ⟨hrow', hactive'⟩)
  rw [hrest] at hsorted hmem
  rcases List.mem_cons.1 hmem with heq | hmem
  · cases heq
    exact Int.le_refl _
  · exact List.rel_of_pairwise_cons hsorted hmem

/-! ## What the services keep -/

abbrev KeepsSound {α : Type} (p : Prog billing α) (σ : Session billing)
    (Q : α → Session billing → Prop) : Prop := AlwaysKeeps Sound p σ Q

abbrev UpholdsSound (σ : Session billing) : Prop := Holds Sound σ

variable {σ : Session billing} {inTx : Bool}

theorem keeps_firstSubscription (hσ : UpholdsSound σ) (hnew : Consistent sub)
    (hfresh : Unsubscribed sub.tenantId σ.view) :
    KeepsSound (createSubscription sub) σ fun id σ' =>
      σ'.view.row (.subscription id) = some sub := by
  refine (keeps_createSubscription hσ fun id _ howned _ => ?_).mono hσ fun id σ' _ ⟨_, hview⟩ => ?_
  · exact hσ.view.insert hnew howned hfresh
  · rw [hview]
    exact Store.set_row_self _ _ _

theorem keeps_insertTenant (hσ : UpholdsSound σ) (id : Id) (row : Tenant) :
    KeepsSound (insertOne (.insertTenant id row)) σ fun _ σ' => Unsubscribed id σ'.view := by
  refine keeps_write (fun _ => hσ.view.insertTenant id row) (fun hguard => ?_) trivial
  intro j sub hsub
  have hsame : (applyUpdate (S := billing) (.insertTenant id row) σ.view).row (.subscription j) =
      σ.view.row (.subscription j) := Store.set_row_of_ne _ _ (by simp [Update.key])
  exact hσ.view.unsubscribed (Option.isNone_iff_eq_none.1 hguard) j sub (hsame ▸ hsub)

/-- The store is moved to a free plan, unless Stripe bills it. -/
theorem keeps_subscribe (hσ : UpholdsSound σ) (tenantId planId : Id) :
    KeepsSound (subscribe tenantId planId) σ fun _ _ => True := by
  refine keeps_ask (keeps_demand fun plan _ => keeps_check fun _ => ?_)
  refine (keeps_assertUnderNewProductLimit tenantId plan.maxProducts).seq hσ fun _ σ' hσ ⟨hsame, _⟩ => ?_
  subst hsame
  refine keeps_ask (keeps_check fun hunbilled => keeps_invoke fun time _ => keeps_ask ?_)
  split
  · next existing hopen =>
      obtain ⟨hrow, htenant⟩ := open_some hopen
      have hnone : existing.subscription.stripeSubscriptionId = none := by
        cases hcurrent : Query.eval (.currentSubscription tenantId) σ'.view with
        | none => exact absurd htenant (current_none hcurrent _ _ hrow)
        | some current =>
            obtain ⟨hrow', htenant'⟩ := current_some hcurrent
            have hid := hσ.view.unique _ _ _ _ hrow' hrow (htenant'.trans htenant.symm)
            rw [hid, hrow, Option.some.injEq] at hrow'
            simpa [hcurrent, hrow'] using hunbilled
      have hswitch : Sound (applyUpdate (S := billing) (.switchFree existing.id planId
          (computeExpiry plan.duration time)) σ'.view) := by
        refine hσ.view.patch fun sub hsub => ⟨?_, rfl⟩
        rw [hrow, Option.some.injEq] at hsub
        subst hsub
        have hmanual := (hσ.view.consistent _ _ hrow).unbilled hnone
        exact ⟨rfl, by simp, by simp [hnone], by simp [hmanual.2], by simp⟩
      exact (keeps_updateOne fun _ => hswitch).mono hσ fun _ _ _ _ => trivial
  · next hopen =>
      have hfresh := open_none (fun j s hs => (hσ.view.consistent j s hs).isOpen) hopen
      exact (keeps_firstSubscription hσ (consistent_new tenantId planId _ time) hfresh).seq hσ
        fun _ _ _ _ => trivial

/-- An upgrade is asked for, unless Stripe bills the store. -/
theorem keeps_requestUpgrade (hσ : UpholdsSound σ) (tenantId planId : Id)
    (paymentReference : Option String) :
    KeepsSound (requestUpgrade tenantId planId paymentReference) σ fun _ _ => True := by
  refine keeps_ask (keeps_demand fun plan _ => keeps_check fun _ => ?_)
  refine keeps_ask (keeps_check fun hunbilled => ?_)
  -- the row the request is attached to is not billed by Stripe
  have hrow : KeepsSound (subscriptionToUpgrade tenantId
      (Query.eval (.currentSubscription tenantId) σ.view)) σ fun id σ' =>
        ∃ sub, σ'.view.row (.subscription id) = some sub ∧ sub.stripeSubscriptionId = none := by
    unfold subscriptionToUpgrade
    split
    · next current hcurrent =>
        exact ⟨current.subscription, (current_some hcurrent).1, by simpa [hcurrent] using hunbilled⟩
    · next hcurrent =>
        refine keeps_ask (keeps_demand fun freePlanId _ => keeps_invoke fun time _ => ?_)
        refine (keeps_firstSubscription hσ (consistent_new tenantId freePlanId none time)
          (current_none hcurrent)).mono hσ fun id σ' _ hrow => ⟨_, hrow, rfl⟩
  refine hrow.seq hσ fun id σ' hσ' ⟨sub, hsub, hnone⟩ => ?_
  have hrequest : Sound (applyUpdate (S := billing)
      (.requestUpgrade id planId paymentReference) σ'.view) := by
    refine hσ'.view.patch fun sub' hsub' => ⟨?_, rfl⟩
    rw [hsub, Option.some.injEq] at hsub'
    subst hsub'
    have hmanual := (hσ'.view.consistent _ _ hsub).unbilled hnone
    exact ⟨rfl, by simp, by simp [hnone, hmanual.1], by simp [hmanual.2], fun _ => hnone⟩
  exact (keeps_updateOne fun _ => hrequest).mono hσ' fun _ _ _ _ => trivial

/-- A pending upgrade is not billed by Stripe, so approving it leaves no Stripe id
behind. -/
theorem keeps_approveUpgrade (hσ : UpholdsSound σ) (id : Id) :
    KeepsSound (approveUpgrade inTx id) σ fun _ _ => True := by
  refine keeps_findSubscription id fun c hfound => ?_
  have hrow := (find_some hfound).2
  refine keeps_check fun hpending => keeps_demand fun planId _ => ?_
  refine keeps_ask (keeps_demand fun plan _ => keeps_invoke fun time _ => ?_)
  have hstatus : c.subscription.status = .pendingUpgrade := by simpa using hpending
  have hnone := (hσ.view.consistent _ _ hrow).pending_unbilled hstatus
  have hmanual := (hσ.view.consistent _ _ hrow).unbilled hnone
  have happrove : ∀ expiresAt, Sound (applyUpdate (S := billing)
      (.approveUpgrade id planId expiresAt) σ.view) := by
    intro expiresAt
    refine hσ.view.patch fun sub hsub => ⟨?_, rfl⟩
    rw [hrow, Option.some.injEq] at hsub
    subst hsub
    exact ⟨rfl, by simp, by simp [hnone], by simp [hmanual.2], by simp⟩
  refine (keeps_writeIn hσ fun _ => happrove _).seq hσ fun _ σ' hσ' _ => ?_
  refine keeps_runIf.2 ⟨fun _ => ?_, fun _ => trivial⟩
  exact (keeps_hideProductsOverLimit hσ' (fun _ id hdb => hdb.product id _) _).seq hσ'
    fun _ _ _ _ => trivial

theorem keeps_rejectUpgrade (hσ : UpholdsSound σ) (id : Id) :
    KeepsSound (rejectUpgrade inTx id) σ fun _ _ => True := by
  refine keeps_findSubscription id fun c hfound => keeps_check fun _ => ?_
  have hreject : Sound (applyUpdate (S := billing) (.rejectUpgrade id) σ.view) := by
    refine hσ.view.patch fun sub hsub => ⟨?_, rfl⟩
    have hsub := hσ.view.consistent _ _ hsub
    exact ⟨rfl, by simp, hsub.stripe_iff, hsub.cancel_billed, by simp⟩
  exact (keeps_writeIn hσ fun _ => hreject).mono hσ fun _ _ _ _ => trivial

/-- What a provider confirms is consistent by itself, whatever the row was. -/
theorem keeps_activatePlan (hσ : UpholdsSound σ) (tenantId planId : Id) (period : PaidPeriod) :
    KeepsSound (activatePlan inTx tenantId planId period) σ fun _ _ => True := by
  refine keeps_ask ?_
  refine (keeps_assertBilledOnce period _).seq hσ fun _ σ' hσ hsame => ?_
  subst hsame
  split
  · next current hcurrent =>
      have hactivate : Sound (applyUpdate (S := billing)
          (.activatePlan current.id planId period) σ'.view) := by
        refine hσ.view.patch fun sub hsub => ⟨?_, rfl⟩
        exact ⟨rfl, by simp, period.provider_iff, period.cancel_billed, by simp⟩
      refine keeps_ask (keeps_check fun _ => ?_)
      exact (keeps_writeIn hσ fun _ => hactivate).mono hσ fun _ _ _ _ => trivial
  · next hcurrent =>
      refine keeps_invoke fun time _ => ?_
      refine (keeps_firstSubscription hσ ⟨rfl, ?_, period.provider_iff, period.cancel_billed, ?_⟩
        (current_none hcurrent)).seq hσ fun _ _ hσ _ => keeps_settle_last.mono hσ
          fun _ _ _ _ => trivial
      · simp [newSubscription]
      · simp [newSubscription]

/-! ## Opening a store -/

theorem keeps_register (hσ : UpholdsSound σ) (email storeSlug : String) :
    KeepsSound (register email storeSlug) σ fun _ _ => True := by
  refine keeps_ask (keeps_check fun _ => keeps_ask (keeps_check fun _ => ?_))
  refine keeps_invoke fun userId _ => ?_
  refine (keeps_insertOne fun _ => hσ.view.insertUser userId _).seq hσ fun _ σ₁ hσ₁ _ => ?_
  refine keeps_invoke fun t _ => (keeps_insertTenant hσ₁ t _).seq hσ₁ fun _ σ₂ hσ₂ hfresh => ?_
  refine keeps_ask ?_
  have hrest : ∀ σ, UpholdsSound σ → KeepsSound (do
      settle false
      let issued : Bool ← .call (.issueTokens userId t) .ret
      Prog.throwIf (!issued) (.failure "No tokens")) σ fun _ _ => True :=
    fun σ hσ => keeps_settle hσ fun _ _ _ => keeps_invoke fun _ _ => keeps_throwIf.2 fun _ => trivial
  split
  · exact hrest _ hσ₂
  · next planId _ =>
      refine keeps_invoke fun time _ => ?_
      exact (keeps_firstSubscription hσ₂ (consistent_new t planId none time) hfresh).seq hσ₂
        fun _ σ hσ _ => hrest σ hσ

theorem keeps_createAdditional (hσ : UpholdsSound σ) (userId : Id) (slug : String) :
    KeepsSound (createAdditional userId slug) σ fun _ _ => True := by
  refine keeps_ask (keeps_ask (keeps_invoke fun time _ => keeps_check fun _ => ?_))
  refine keeps_ask (keeps_check fun _ => keeps_ask (keeps_invoke fun t _ => ?_))
  refine (keeps_insertTenant hσ t _).seq hσ fun _ σ' hσ' hfresh => ?_
  split
  · exact trivial
  · next planId _ =>
      exact (keeps_firstSubscription hσ' (consistent_new t planId none time) hfresh).seq hσ'
        fun _ _ _ _ => trivial

/-! ## The Stripe webhook -/

theorem keeps_applyStripeSubscription (hσ : UpholdsSound σ) (subscription : StripeSubscription)
    (fromCheckout : Bool) :
    KeepsSound (applyStripeSubscription inTx subscription fromCheckout) σ fun _ _ => True := by
  unfold applyStripeSubscription
  split
  · refine keeps_runIf.2 ⟨fun _ => keeps_ask (keeps_runIf.2 ⟨fun _ => ?_, fun _ => trivial⟩),
      fun _ => trivial⟩
    exact (keeps_activatePlan hσ _ _ _).seq hσ fun _ _ hσ _ =>
      (keeps_cancelStripeSubscription _).mono hσ fun _ _ _ _ => trivial
  · exact trivial

theorem keeps_onCheckoutCompleted (hσ : UpholdsSound σ) (session : CheckoutSession) :
    KeepsSound (onCheckoutCompleted inTx session) σ fun _ _ => True := by
  unfold onCheckoutCompleted
  split
  · exact trivial
  split
  · split
    · exact trivial
    · exact keeps_retrieve _ fun sub => keeps_applyStripeSubscription hσ sub true
  · split
    · refine keeps_ask ?_
      exact (keeps_activatePlan hσ _ _ _).seq hσ fun _ _ hσ _ =>
      (keeps_cancelStripeSubscription _).mono hσ fun _ _ _ _ => trivial
    · exact trivial

theorem keeps_onInvoicePaid (hσ : UpholdsSound σ) (subscription : Option Id) :
    KeepsSound (onInvoicePaid inTx subscription) σ fun _ _ => True := by
  unfold onInvoicePaid
  split
  · exact trivial
  · exact keeps_retrieve _ fun sub => keeps_applyStripeSubscription hσ sub false

theorem Sound.mirrorCancel (h : Sound db) {stripeId : Id} {cancel : Bool}
    (hguard : billing.guard (.mirrorCancel id stripeId cancel)
      (db.row (.subscription id)) = true) :
    Sound (applyUpdate (S := billing) (.mirrorCancel id stripeId cancel) db) := by
  refine h.patch fun sub hsub => ⟨?_, rfl⟩
  obtain ⟨sub', hsub', hbilled⟩ := (Option.any_eq_true _ _).1 hguard
  rw [hsub, Option.some.injEq] at hsub'
  subst hsub'
  have hc := h.consistent id sub hsub
  exact ⟨hc.isOpen, hc.pending_iff, hc.stripe_iff, fun _ => by simp [eq_of_beq hbilled],
    hc.pending_unbilled⟩

theorem Sound.endBilling (h : Sound db) (id stripeId : Id) :
    Sound (applyUpdate (S := billing) (.endBilling id stripeId) db) := by
  refine h.patch fun sub hsub => ⟨?_, rfl⟩
  have hc := h.consistent id sub hsub
  exact ⟨hc.isOpen, hc.pending_iff, by simp, by simp, fun _ => rfl⟩

theorem keeps_handleWebhook (hσ : UpholdsSound σ) (event : Option StripeEvent) :
    KeepsSound (handleWebhook inTx event) σ fun _ _ => True := by
  refine keeps_requireStripe (keeps_demand fun event _ => ?_)
  cases event with
  | checkoutCompleted session => exact keeps_onCheckoutCompleted hσ session
  | invoicePaid subscription => exact keeps_onInvoicePaid hσ subscription
  | subscriptionUpdated subscription =>
      exact keeps_updateBilled hσ _ fun id db hdb hguard => hdb.mirrorCancel hguard
  | subscriptionDeleted subscription =>
      exact keeps_updateBilled hσ _ fun id db hdb _ => hdb.endBilling id _
  | other => exact trivial

/-! ## The hourly sweep -/

theorem Sound.notices (h : Sound db) (id : Id) (f : Subscription → List ExpiryNotice) :
    Sound (db.set (.subscription id) ((db.row (.subscription id)).map fun sub : Subscription =>
      { sub with expiryNoticesSent := f sub })) := by
  refine h.patch fun sub hsub => ⟨?_, rfl⟩
  have hc := h.consistent id sub hsub
  exact ⟨hc.isOpen, hc.pending_iff, hc.stripe_iff, hc.cancel_billed, hc.pending_unbilled⟩

/-- A pending request is left open by a downgrade. -/
theorem Sound.downgrade (h : Sound db) (id : Id) (freePlan : Option Id) :
    Sound (applyUpdate (S := billing) (.downgrade id freePlan) db) := by
  refine h.patch fun sub hsub => ⟨?_, rfl⟩
  have hc := h.consistent _ sub hsub
  exact ⟨hc.isOpen, hc.pending_iff, by simp, by simp, fun _ => rfl⟩

theorem sweep_sound : SweepKeeps Sound where
  claim _ id _ _ hdb := hdb.notices id _
  notices _ id notices hdb := hdb.notices id fun _ => notices
  downgrade _ id hdb := hdb.downgrade id _
  unpublish _ id hdb := hdb.product id _

/-! ## Every sequential run -/

theorem handler_keeps (r : Request) (hdb : Sound db) :
    KeepsSound (handler r) (.start db) fun _ _ => True := by
  have hσ : UpholdsSound (.start db) := ⟨hdb, hdb⟩
  cases r with
  | register email storeSlug => exact keeps_register hσ email storeSlug
  | createAdditional userId slug => exact keeps_createAdditional hσ userId slug
  | subscribe tenantId planId => exact keeps_subscribe hσ tenantId planId
  | requestUpgrade tenantId planId reference => exact keeps_requestUpgrade hσ tenantId planId reference
  | createCheckout tenantId planId =>
      exact (keeps_createCheckout hσ tenantId planId).seq hσ fun _ _ _ _ => trivial
  | createPortal tenantId => exact (keeps_createPortal tenantId).seq hσ fun _ _ _ _ => trivial
  | approveUpgrade inTx id => exact keeps_approveUpgrade hσ id
  | rejectUpgrade inTx id => exact keeps_rejectUpgrade hσ id
  | activatePlan inTx tenantId planId period => exact keeps_activatePlan hσ tenantId planId period
  | stripeWebhook inTx event => exact keeps_handleWebhook hσ event
  | lifecycle => exact keeps_run sweep_sound hσ
  | createProduct tenantId dto => exact keeps_create hσ dto fun id _ _ _ _ _ _ => hdb.product id _
  | updateProduct tenantId id dto => exact keeps_update hσ id dto fun _ _ _ _ => hdb.product id _
  | removeProduct tenantId id => exact keeps_remove hσ id fun _ _ _ => hdb.product id _
  | moderateProduct id isActive => exact keeps_moderate hσ id isActive fun _ _ => hdb.product id _

theorem sound_of_serial {db' : Database} (hdb : Sound db)
    (h : Serial handler (fun _ _ => True) db db') : Sound db' :=
  h.induct hdb fun _ _ r hdb _ => (handler_keeps r hdb).serve hdb fun _ _ => trivial

theorem sound_of_none (h : ∀ id, db.row (.subscription id) = none) : Sound db := by
  constructor
  · intro id sub hsub
    rw [h id] at hsub
    cases hsub
  · intro id sub hsub
    rw [h id] at hsub
    cases hsub
  · intro id id' sub sub' hsub
    rw [h id] at hsub
    cases hsub

/-- **The subscription of a store**, after any requests served one after the other
on a sound database: it is the only one, a plan is requested exactly while an upgrade
is pending, Stripe is the provider exactly when it bills a subscription, and only
such a one is cancelled at the end of its period. -/
theorem subscription_rows {db' : Database} (hdb : Sound db)
    (h : Serial handler (fun _ _ => True) db db') :
    (∀ id id' sub sub', db'.row (.subscription id) = some sub →
      db'.row (.subscription id') = some sub' → sub.tenantId = sub'.tenantId → id = id') ∧
    ∀ id sub, db'.row (.subscription id) = some sub →
      (sub.status = .pendingUpgrade ↔ sub.requestedPlanId.isSome = true) ∧
      (sub.billingProvider = .stripe ↔ sub.stripeSubscriptionId.isSome = true) ∧
      (sub.cancelAtPeriodEnd = true → sub.stripeSubscriptionId.isSome = true) := by
  have hsound := sound_of_serial hdb h
  refine ⟨hsound.unique, fun id sub hsub => ?_⟩
  have hc := hsound.consistent id sub hsub
  exact ⟨hc.pending_iff, hc.stripe_iff, hc.cancel_billed⟩

def platform : Database :=
  (Store.empty.set (.plan 0) (some ⟨"Free", 0, .lifetime, 1, 20, [.whatsapp], true, 0⟩)).set
    (.plan 1) (some ⟨"Pro", 1000, .monthly, 3, 500, [.whatsapp, .stripe], true, 1⟩)

/-- A card subscription of the store 2 to the monthly plan, which ends with its period. -/
def proByCard : StripeSubscription :=
  ⟨70, some planCheckoutKind, some 2, some 1, "active", some 80, 1000, true⟩

/-- An outside in which everything works, and the n-th call draws the number n + 1. -/
def working : Answers billing := fun n c => match c with
  | .now => 0
  | .uuid => n + 1
  | .publicWebUrl => some "https://shop.test"
  | .createCheckoutSession _ => some none
  | .createPortalSession _ _ => none
  | .cardBillingEnabled => true
  | .retrieve _ => some proByCard
  | .cancel _ => ()
  | .enqueueNotice _ _ => true
  | .issueTokens _ _ => true
  | .advisoryLock _ => ()
  | .filesForProductDeletion _ _ => some []
  | .removeStoredFiles _ => ()

/-- A store registers, asks for the monthly plan, and then buys it by card. -/
def paidByCard : Database :=
  serve working (handler (.stripeWebhook false (some (.invoicePaid (some 70)))))
    (serve working (handler (.requestUpgrade 2 1 none))
      (serve working (handler (.register "ana@mugs.test" "mugs")) platform))

theorem subscription_rows_card :
    (subscriptionsWhere paidByCard fun _ => true).map (fun c => c.subscription.cancelAtPeriodEnd) =
      [true] ∧
    (∀ id id' sub sub', paidByCard.row (.subscription id) = some sub →
      paidByCard.row (.subscription id') = some sub' → sub.tenantId = sub'.tenantId → id = id') ∧
    ∀ id sub, paidByCard.row (.subscription id) = some sub →
      (sub.status = .pendingUpgrade ↔ sub.requestedPlanId.isSome = true) ∧
      (sub.billingProvider = .stripe ↔ sub.stripeSubscriptionId.isSome = true) ∧
      (sub.cancelAtPeriodEnd = true → sub.stripeSubscriptionId.isSome = true) := by
  have hplatform : Sound platform := sound_of_none fun id => rfl
  have hrun : Serial handler (fun _ _ => True) platform paidByCard :=
    ((Relation.ReflTransGen.refl.tail ⟨working, _, trivial, rfl⟩).tail
      ⟨working, _, trivial, rfl⟩).tail ⟨working, _, trivial, rfl⟩
  exact ⟨by decide +kernel, subscription_rows hplatform hrun⟩

end WhatStore.Billing
