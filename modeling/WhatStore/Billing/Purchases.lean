import WhatStore.Billing.Effects

/-!
# Paid plans are bought

A store gets to a paid plan in two ways: a Super Admin approves its request, or
Stripe tells of a payment. Every other operation picks a plan by itself, the
registration the cheapest there is and the others a free one. When a cheapest plan
is free, the limits of a paid plan are had only for a purchase whose period and
grace are not over.
-/

namespace WhatStore.Billing

open ReadCommitted ReadCommitted.Prog

variable {db db' : Database} {bought : Id → Id → Prop} {sub : Subscription} {id t p : Id}

/-! ## Where a plan comes from -/

/-- The plan and the end of its period are those of a row the store had in `db`, or
the plan is free or bought. -/
def Accounted (bought : Id → Id → Prop) (db : Database) (sub : Subscription) : Prop :=
  (∃ id sub₀, db.row (.subscription id) = some sub₀ ∧ sub₀.tenantId = sub.tenantId ∧
    sub₀.planId = sub.planId ∧ sub₀.expiresAt = sub.expiresAt) ∨
  isPaidPlan (findPlan db sub.planId) = false ∨ bought sub.tenantId sub.planId

/-- The plans are as in `db`, and the plan of every row is accounted for. -/
structure Accountable (bought : Id → Id → Prop) (db db' : Database) : Prop where
  plans : ∀ id, findPlan db' id = findPlan db id
  rows : ∀ id sub, db'.row (.subscription id) = some sub → Accounted bought db sub

theorem Accountable.refl (bought : Id → Id → Prop) (db : Database) : Accountable bought db db where
  plans _ := rfl
  rows id sub hrow := .inl ⟨id, sub, hrow, rfl, rfl, rfl⟩

theorem Accounted.of_same {sub' : Subscription} (h : Accounted bought db sub)
    (htenant : sub'.tenantId = sub.tenantId) (hplan : sub'.planId = sub.planId)
    (hexpires : sub'.expiresAt = sub.expiresAt) : Accounted bought db sub' := by
  unfold Accounted
  rw [htenant, hplan, hexpires]
  exact h

theorem Accountable.set (h : Accountable bought db db') {v : Option Subscription}
    (hv : ∀ sub, v = some sub → Accounted bought db sub) :
    Accountable bought db (db'.set (.subscription id) v) := by
  constructor
  · intro p
    exact (Store.set_row_of_ne _ _ (by simp)).trans (h.plans p)
  · intro j sub hrow
    by_cases hj : j = id
    · subst hj
      rw [Store.set_row_self] at hrow
      exact hv sub hrow
    · rw [subscription_set _ _ hj] at hrow
      exact h.rows j sub hrow

theorem Accountable.patch (h : Accountable bought db db') {f : Subscription → Subscription}
    (hf : ∀ sub, db'.row (.subscription id) = some sub → Accounted bought db sub →
      Accounted bought db (f sub)) :
    Accountable bought db (db'.set (.subscription id) ((db'.row (.subscription id)).map f)) := by
  refine h.set fun sub hsub => ?_
  obtain ⟨sub₀, hrow, rfl⟩ := Option.map_eq_some_iff.1 hsub
  exact hf sub₀ hrow (h.rows id sub₀ hrow)

/-- The updates that leave every plan and every period as it is. -/
def Update.keepsPlans : Update → Bool
  | .insertUser _ _ => true
  | .insertTenant _ _ => true
  | .requestUpgrade _ _ _ => true
  | .rejectUpgrade _ => true
  | .mirrorCancel _ _ _ => true
  | .endBilling _ _ => true
  | .claimNotice _ _ _ => true
  | .setNotices _ _ => true
  | .downgrade _ none => true
  | .unpublish _ => true
  | .insertProduct _ _ => true
  | .updateProduct _ _ _ => true
  | .deleteProduct _ => true
  | _ => false

theorem Accountable.other (h : Accountable bought db db') {k : Key} {v : Option (Row k)}
    (hsub : ∀ id, Key.subscription id ≠ k) (hplan : ∀ id, Key.plan id ≠ k) :
    Accountable bought db (db'.set k v) where
  plans p := (Store.set_row_of_ne _ _ (hplan p)).trans (h.plans p)
  rows j sub hrow := h.rows j sub (Store.set_row_of_ne db' v (hsub j) ▸ hrow)

theorem Accountable.keep (h : Accountable bought db db') {u : Update} (hu : u.keepsPlans = true) :
    Accountable bought db (applyUpdate (S := billing) u db') := by
  cases u with
  | insertUser id row => exact h.other (by simp [Update.key]) (by simp [Update.key])
  | insertTenant id row => exact h.other (by simp [Update.key]) (by simp [Update.key])
  | unpublish id => exact h.other (by simp [Update.key]) (by simp [Update.key])
  | insertProduct id row => exact h.other (by simp [Update.key]) (by simp [Update.key])
  | updateProduct id isActive isPublished =>
      exact h.other (by simp [Update.key]) (by simp [Update.key])
  | deleteProduct id => exact h.other (by simp [Update.key]) (by simp [Update.key])
  | insertSubscription id row => cases hu
  | switchFree id planId expiresAt => cases hu
  | approveUpgrade id planId expiresAt => cases hu
  | activatePlan id planId period => cases hu
  | downgrade id freePlan =>
      cases freePlan with
      | none => exact h.patch fun sub _ hsub => hsub.of_same rfl rfl rfl
      | some planId => cases hu
  | _ => exact h.patch fun sub _ hsub => hsub.of_same rfl rfl rfl

theorem Accountable.free (h : Accountable bought db db') (hfree : Query.eval .freePlan db' = some p) :
    isPaidPlan (findPlan db p) = false := by
  obtain ⟨plan, hrow, -, hprice⟩ := freePlan_some hfree
  rw [← h.plans p, findPlan, hrow]
  simp [isPaidPlan, hprice]

def FreeIfAny (db : Database) : Prop :=
  ∀ (id : Id) (plan : Plan), db.row (.plan id) = some plan → plan.isActive = true →
    ∃ (id' : Id) (plan' : Plan), db.row (.plan id') = some plan' ∧ plan'.isActive = true ∧
      plan'.price ≤ 0

/-! ## What the services keep -/

variable {σ : Session billing} {inTx : Bool}

abbrev KeepsAccountable {α : Type} (bought : Id → Id → Prop) (db : Database) (prog : Prog billing α)
    (σ : Session billing) (Q : α → Session billing → Prop) : Prop :=
  AlwaysKeeps (Accountable bought db) prog σ Q

theorem accountable_createSubscription (hσ : Holds (Accountable bought db) σ)
    (hsub : Accounted bought db sub) :
    KeepsAccountable bought db (createSubscription sub) σ fun _ _ => True := by
  refine (keeps_createSubscription hσ fun id _ _ _ => ?_).mono hσ fun _ _ _ _ => trivial
  refine hσ.view.set fun sub' heq => ?_
  cases heq
  exact hsub

theorem accountable_subscribe (hσ : Holds (Accountable bought db) σ) (tenantId planId : Id) :
    KeepsAccountable bought db (subscribe tenantId planId) σ fun _ _ => True := by
  refine keeps_ask (keeps_demand fun plan hplan => keeps_check fun hprice => ?_)
  have hfree : isPaidPlan (findPlan db planId) = false := by
    have hrow := (Option.filter_eq_some_iff.1 hplan).1
    rw [← hσ.view.plans planId, hrow]
    simpa [isPaidPlan] using hprice
  refine (keeps_assertUnderNewProductLimit tenantId plan.maxProducts).seq hσ fun _ σ' hσ _ => ?_
  refine keeps_ask (keeps_check fun _ => keeps_invoke fun time _ => keeps_ask ?_)
  split
  · exact (keeps_updateOne fun _ => hσ.view.patch fun sub _ _ => .inr (.inl hfree)).mono hσ
      fun _ _ _ _ => trivial
  · exact (accountable_createSubscription hσ (.inr (.inl hfree))).seq hσ fun _ _ _ _ => trivial

theorem accountable_requestUpgrade (hσ : Holds (Accountable bought db) σ) (tenantId planId : Id)
    (paymentReference : Option String) :
    KeepsAccountable bought db (requestUpgrade tenantId planId paymentReference) σ
      fun _ _ => True := by
  refine keeps_ask (keeps_demand fun plan _ => keeps_check fun _ => ?_)
  refine keeps_ask (keeps_check fun _ => ?_)
  have hattached : KeepsAccountable bought db (subscriptionToUpgrade tenantId
      (Query.eval (.currentSubscription tenantId) σ.view)) σ fun _ _ => True := by
    unfold subscriptionToUpgrade
    split
    · exact trivial
    · refine keeps_ask (keeps_demand fun freePlanId hfree => keeps_invoke fun time _ => ?_)
      exact accountable_createSubscription hσ (.inr (.inl (hσ.view.free hfree)))
  refine hattached.seq hσ fun id σ' hσ' _ => ?_
  exact (keeps_updateOne fun _ => hσ'.view.keep rfl).mono hσ'
    fun _ _ _ _ => trivial

/-- An approval moves the row to the plan its store has asked for. -/
theorem accountable_approveUpgrade (hσ : Holds (Accountable bought db) σ) (id : Id)
    (hbought : ∀ (sub : Subscription) p, σ.view.row (.subscription id) = some sub →
      sub.status = .pendingUpgrade → sub.requestedPlanId = some p → bought sub.tenantId p) :
    KeepsAccountable bought db (approveUpgrade inTx id) σ fun _ _ => True := by
  refine keeps_findSubscription id fun c hfound => ?_
  have hrow := (find_some hfound).2
  refine keeps_check fun hpending => keeps_demand fun planId hplan => ?_
  refine keeps_ask (keeps_demand fun plan _ => keeps_invoke fun time _ => ?_)
  have happrove : ∀ expiresAt, Accountable bought db (applyUpdate (S := billing)
      (.approveUpgrade id planId expiresAt) σ.view) := by
    intro expiresAt
    refine hσ.view.patch fun sub hsub _ => .inr (.inr ?_)
    rw [hrow, Option.some.injEq] at hsub
    subst hsub
    exact hbought c.subscription planId hrow (by simpa using hpending) hplan
  refine (keeps_writeIn hσ fun _ => happrove _).seq hσ fun _ σ' hσ' _ => ?_
  refine keeps_runIf.2 ⟨fun _ => ?_, fun _ => trivial⟩
  exact (keeps_hideProductsOverLimit hσ' (fun _ id hdb => hdb.keep rfl) _).seq hσ'
    fun _ _ _ _ => trivial

theorem accountable_rejectUpgrade (hσ : Holds (Accountable bought db) σ) (id : Id) :
    KeepsAccountable bought db (rejectUpgrade inTx id) σ fun _ _ => True :=
  keeps_findSubscription id fun _ _ => keeps_check fun _ =>
    (keeps_writeIn hσ fun _ => hσ.view.keep rfl).mono hσ fun _ _ _ _ => trivial

/-- A payment moves the store to the plan it was for. -/
theorem accountable_activatePlan (hσ : Holds (Accountable bought db) σ) (period : PaidPeriod)
    (hbought : bought t p) :
    KeepsAccountable bought db (activatePlan inTx t p period) σ fun _ _ => True := by
  refine keeps_ask ((keeps_assertBilledOnce period _).seq hσ fun _ σ' hσ hsame => ?_)
  subst hsame
  split
  · next current hcurrent =>
      obtain ⟨hrow, htenant⟩ := current_some hcurrent
      have hactivate : Accountable bought db (applyUpdate (S := billing)
          (.activatePlan current.id p period) σ'.view) := by
        refine hσ.view.patch fun sub hsub _ => .inr (.inr ?_)
        rw [hrow, Option.some.injEq] at hsub
        subst hsub
        exact htenant ▸ hbought
      refine keeps_ask (keeps_check fun _ => ?_)
      exact (keeps_writeIn hσ fun _ => hactivate).mono hσ fun _ _ _ _ => trivial
  · refine keeps_invoke fun time _ => ?_
    refine (accountable_createSubscription hσ (.inr (.inr hbought))).seq hσ fun _ _ hσ _ => ?_
    exact keeps_settle_last.mono hσ fun _ _ _ _ => trivial

theorem accountable_createAdditional (hσ : Holds (Accountable bought db) σ) (userId : Id) (slug : String) :
    KeepsAccountable bought db (createAdditional userId slug) σ fun _ _ => True := by
  refine keeps_ask (keeps_ask (keeps_invoke fun time _ => keeps_check fun _ => ?_))
  refine keeps_ask (keeps_check fun _ => keeps_ask (keeps_invoke fun t _ => ?_))
  refine (keeps_insertOne fun _ => hσ.view.keep rfl).seq hσ fun _ σ' hσ' _ => ?_
  split
  · exact trivial
  · next planId hfree =>
      exact (accountable_createSubscription hσ' (.inr (.inl (hσ.view.free hfree)))).seq hσ'
        fun _ _ _ _ => trivial

theorem accountable_register (hσ : Holds (Accountable bought db) σ) (email storeSlug : String)
    (hfree : Query.eval (.userByEmail email) σ.view = none →
      Query.eval (.tenantBySlug storeSlug) σ.view = none → FreeIfAny db) :
    KeepsAccountable bought db (register email storeSlug) σ fun _ _ => True := by
  refine keeps_ask (keeps_check fun hemail => keeps_ask (keeps_check fun hslug => ?_))
  have hfree := hfree (Option.isSome_eq_false_iff.1 hemail |> Option.isNone_iff_eq_none.1)
    (Option.isSome_eq_false_iff.1 hslug |> Option.isNone_iff_eq_none.1)
  refine keeps_invoke fun userId _ => ?_
  refine (keeps_insertOne fun _ => hσ.view.keep rfl).seq hσ fun _ σ₁ hσ₁ _ => ?_
  refine keeps_invoke fun t _ => ?_
  refine (keeps_insertOne fun _ => hσ₁.view.keep rfl).seq hσ₁ fun _ σ₂ hσ₂ _ => keeps_ask ?_
  have hrest : ∀ σ, Holds (Accountable bought db) σ → KeepsAccountable bought db (do
      settle false
      let issued : Bool ← .call (.issueTokens userId t) .ret
      Prog.throwIf (!issued) (.failure "No tokens")) σ fun _ _ => True :=
    fun σ hσ => keeps_settle hσ fun _ _ _ => keeps_invoke fun _ _ => keeps_throwIf.2 fun _ => trivial
  split
  · exact hrest _ hσ₂
  · next planId hcheapest =>
      refine keeps_invoke fun time _ => ?_
      have hunpaid : isPaidPlan (findPlan db planId) = false := by
        obtain ⟨plan, hrow, hactive, hleast⟩ := cheapestPlan_some hcheapest
        have hstart : findPlan db planId = some plan := (hσ₂.view.plans planId).symm.trans hrow
        obtain ⟨id', plan', hrow', hactive', hprice⟩ := hfree planId plan hstart hactive
        have hle := hleast id' plan' ((hσ₂.view.plans id').trans hrow') hactive'
        simpa [hstart, isPaidPlan] using hle.trans hprice
      exact (accountable_createSubscription hσ₂ (.inr (.inl hunpaid))).seq hσ₂
        fun _ σ hσ _ => hrest σ hσ

/-! ## The events of Stripe -/

section Events

variable {answer : Answers billing} {e : StripeEvent} {x : StripeSubscription}
  {fromCheckout : Bool} {stripeId : Id} {n : ℕ}

/-- Stripe tells of a payment of the plan by the store: a subscription that is paid up, or
the checkout of a lifetime plan. -/
inductive Told (answer : Answers billing) (e : StripeEvent) (t p : Id) : Prop
  | subscription {stripeId : Id} {x : StripeSubscription} {fromCheckout : Bool}
      (hevent : PaidEvent stripeId e) (hshown : shownBy answer e = some (x, fromCheckout))
      (hpays : x.pays = some (t, p))
  | lifetime {session : CheckoutSession} (hevent : e = .checkoutCompleted session)
      (hmode : session.mode ≠ "subscription") (hpaid : session.completes = true)
      (htenant : session.tenantId = some t) (hplan : session.planId = some p)

theorem accountable_applyStripeSubscription (hσ : Holds (Accountable bought db) σ)
    (hbought : ∀ t p, x.pays = some (t, p) → bought t p) :
    KeepsAccountable bought db (applyStripeSubscription inTx x fromCheckout) σ fun _ _ => True := by
  unfold applyStripeSubscription
  split
  · next t p ht hp =>
      refine keeps_runIf.2 ⟨fun hpaid => ?_, fun _ => trivial⟩
      refine keeps_ask (keeps_runIf.2 ⟨fun _ => ?_, fun _ => trivial⟩)
      have hpays : x.pays = some (t, p) := by simp [StripeSubscription.pays, hpaid, ht, hp]
      exact (accountable_activatePlan hσ x.period (hbought t p hpays)).seq hσ fun _ _ hσ _ =>
        (keeps_cancelStripeSubscription _).mono hσ fun _ _ _ _ => trivial
  · exact trivial

theorem accountable_lifetime {session : CheckoutSession} (hσ : Holds (Accountable bought db) σ)
    (hmode : session.mode ≠ "subscription")
    (hbought : ∀ t p, session.completes = true → session.tenantId = some t →
      session.planId = some p → bought t p) :
    KeepsAccountable bought db (onCheckoutCompleted inTx session) σ fun _ _ => True := by
  unfold onCheckoutCompleted
  split
  · exact trivial
  next hpaid =>
  rw [if_neg (by simpa using hmode)]
  split
  · next t p ht hp =>
      have hcompletes : session.completes = true := by simpa [CheckoutSession.completes] using hpaid
      refine keeps_ask ?_
      exact (accountable_activatePlan hσ session.lifetime (hbought t p hcompletes ht hp)).seq hσ
        fun _ _ hσ _ => (keeps_cancelStripeSubscription _).mono hσ fun _ _ _ _ => trivial
  · exact trivial

/-- An event of Stripe moves a store to the plan it tells of, and no other. -/
theorem accountable_event (hbought : ∀ t p, Told answer e t p → bought t p) :
    Accountable bought db (serve answer (handler (.stripeWebhook inTx (some e))) db) := by
  have hstart : Holds (Accountable bought db) (.start db) := ⟨.refl _ _, .refl _ _⟩
  refine event_keeps hstart.view (A := fun _ _ => True) (fun _ _ => trivial) ?_ ?_ ?_ ?_
  · exact fun hevent hshown => accountable_applyStripeSubscription hstart fun t p hpays =>
      hbought t p (.subscription hevent hshown hpays)
  · exact fun hevent hmode => accountable_lifetime hstart hmode fun t p hpaid ht hp =>
      hbought t p (.lifetime hevent hmode hpaid ht hp)
  · exact fun _ _ _ _ hv _ => hv.keep rfl
  · exact fun _ _ _ hv _ => hv.keep rfl

end Events

/-! ## Every sequential run -/

/-- A Super Admin approves the request of the store for the plan. -/
def Approval (db : Database) (r : Request) (t p : Id) : Prop :=
  ∃ (inTx : Bool) (id : Id) (sub : Subscription), r = .approveUpgrade inTx id ∧
    db.row (.subscription id) = some sub ∧ sub.status = .pendingUpgrade ∧ sub.tenantId = t ∧
    sub.requestedPlanId = some p

/-- The request is a webhook in which Stripe tells of a payment of the plan. -/
def Payment (answer : Answers billing) (r : Request) (t p : Id) : Prop :=
  ∃ inTx e, r = .stripeWebhook inTx (some e) ∧ Told answer e t p

def OnPlan (db : Database) (t p : Id) (expiresAt : Option Time) : Prop :=
  ∃ (id : Id) (sub : Subscription), db.row (.subscription id) = some sub ∧ sub.tenantId = t ∧
    sub.planId = p ∧ sub.expiresAt = expiresAt

/-- By an approval or a payment the store has got to the plan until then. -/
def Bought (s : Served billing Request) (t p : Id) (expiresAt : Option Time) : Prop :=
  (Approval s.found s.request t p ∨ Payment s.answer s.request t p) ∧
    ¬ OnPlan s.found t p expiresAt ∧ OnPlan (s.left handler) t p expiresAt

/-- What store owners, Super Admins, Stripe and the clock set off. -/
def Request.isOperation : Request → Bool
  | .activatePlan _ _ _ _ => false
  | _ => true

/-- A store is registered only while a free plan is active, if any plan is. -/
def RegistersFree (db : Database) (r : Request) : Prop :=
  r.isOperation = true ∧ ∀ email storeSlug, r = .register email storeSlug →
    Query.eval (.userByEmail email) db = none → Query.eval (.tenantBySlug storeSlug) db = none →
      FreeIfAny db

/-- Every row that one request leaves on a paid plan was so before, or was bought by it. -/
theorem served_accountable (s : Served billing Request) (hok : RegistersFree s.found s.request) :
    Accountable (fun t p => Approval s.found s.request t p ∨ Payment s.answer s.request t p) s.found
      (s.left handler) := by
  obtain ⟨db, answer, r⟩ := s
  obtain ⟨hoperation, hregister⟩ := hok
  have hstart : ∀ {bought}, Holds (Accountable bought db) (.start db) := ⟨.refl _ _, .refl _ _⟩
  have hkept : ∀ {bought}, KeepsAccountable bought db (handler r) (.start db) (fun _ _ => True) →
      Accountable bought db (serve answer (handler r) db) := fun h => h.serve (.refl _ _) fun _ _ => trivial
  cases r with
  | register email storeSlug =>
      exact hkept (accountable_register hstart email storeSlug (hregister email storeSlug rfl))
  | createAdditional userId slug => exact hkept (accountable_createAdditional hstart userId slug)
  | subscribe tenantId planId => exact hkept (accountable_subscribe hstart tenantId planId)
  | requestUpgrade tenantId planId reference =>
      exact hkept (accountable_requestUpgrade hstart tenantId planId reference)
  | createCheckout tenantId planId =>
      exact hkept ((keeps_createCheckout hstart tenantId planId).seq hstart fun _ _ _ _ => trivial)
  | createPortal tenantId =>
      exact hkept ((keeps_createPortal tenantId).seq hstart fun _ _ _ _ => trivial)
  | approveUpgrade inTx id =>
      refine hkept (accountable_approveUpgrade hstart id fun sub p hrow hpending hplan => .inl ?_)
      exact ⟨inTx, id, sub, rfl, hrow, hpending, rfl, hplan⟩
  | rejectUpgrade inTx id => exact hkept (accountable_rejectUpgrade hstart id)
  | activatePlan inTx tenantId planId period => cases hoperation
  | stripeWebhook inTx event =>
      cases event with
      | none => exact hkept (keeps_requireStripe trivial)
      | some e => exact accountable_event fun t p htold => .inr ⟨inTx, e, rfl, htold⟩
  | lifecycle =>
      refine hkept (keeps_run ⟨?_, ?_, ?_, ?_⟩ hstart)
      · exact fun _ _ _ _ h => h.keep rfl
      · exact fun _ _ _ h => h.keep rfl
      · intro v id h
        cases hfree : Query.eval .freePlan v with
        | none => exact h.keep rfl
        | some freePlan => exact h.patch fun _ _ _ => .inr (.inl (h.free hfree))
      · exact fun _ _ h => h.keep rfl
  | createProduct tenantId dto =>
      exact hkept (keeps_create hstart dto fun _ _ _ _ _ _ _ => hstart.view.keep rfl)
  | updateProduct tenantId id dto =>
      exact hkept (keeps_update hstart id dto fun _ _ _ _ => hstart.view.keep rfl)
  | removeProduct tenantId id =>
      exact hkept (keeps_remove hstart id fun _ _ _ => hstart.view.keep rfl)
  | moderateProduct id isActive =>
      exact hkept (keeps_moderate hstart id isActive fun _ _ => hstart.view.keep rfl)

def NonePaid (db : Database) : Prop :=
  ∀ (id : Id) (sub : Subscription), db.row (.subscription id) = some sub →
    isPaidPlan (findPlan db sub.planId) = false

theorem onPlan_bought {db₀ : Database} {steps : List (Served billing Request)}
    {expiresAt : Option Time} (hstart : NonePaid db₀)
    (hrun : Journal handler RegistersFree db₀ steps db) (hon : OnPlan db t p expiresAt)
    (hpaid : isPaidPlan (findPlan db p) = true) : ∃ s ∈ steps, Bought s t p expiresAt := by
  induction hrun with
  | nil =>
      obtain ⟨id, sub, hrow, rfl, rfl, rfl⟩ := hon
      rw [hstart id sub hrow] at hpaid
      cases hpaid
  | cons s hsteps hok ih =>
      have haccount := served_accountable s hok
      rw [haccount.plans] at hpaid
      by_cases hbefore : OnPlan s.found t p expiresAt
      · obtain ⟨s', hmem, hbought⟩ := ih hbefore hpaid
        exact ⟨s', List.mem_cons_of_mem _ hmem, hbought⟩
      · refine ⟨s, List.mem_cons_self, ?_, hbefore, hon⟩
        obtain ⟨id, sub, hrow, rfl, rfl, rfl⟩ := hon
        rcases haccount.rows id sub hrow with ⟨id₀, sub₀, hrow₀, hsame⟩ | hfree | hbought
        · exact absurd ⟨id₀, sub₀, hrow₀, hsame⟩ hbefore
        · rw [hpaid] at hfree
          cases hfree
        · exact hbought

/-- A plan that the entitlements name is that of the store's row, which is not lapsed. -/
theorem getEntitlements_onPlan {answer : Answers billing} {n : ℕ} {entitlements : PlanEntitlements}
    (h : ((getEntitlements t).exec (S := billing) answer n (.start db)).value = .ok entitlements)
    (hp : entitlements.planId = some p) :
    ∃ expiresAt, OnPlan db t p expiresAt ∧ (isPaidPlan (findPlan db p) = true →
      ∀ graceEnd, graceEndsAt expiresAt = some graceEnd → answer n .now < graceEnd) := by
  rw [getEntitlements_exec, Except.ok.injEq] at h
  subst h
  have hnamed : (planEntitlements ((Query.eval (.currentSubscription t) db).filter
      fun c => !isLapsed c (answer n .now))).planId = some p := by
    rw [← hp, entitlementsAt]
    cases (Query.eval (.tenant t) db).bind Tenant.limitsOverride <;> rfl
  cases hlive : (Query.eval (.currentSubscription t) db).filter
      fun c => !isLapsed c (answer n .now) with
  | none =>
      rw [hlive] at hnamed
      cases hnamed
  | some c =>
      obtain ⟨hcurrent, hlapsed⟩ := Option.filter_eq_some_iff.1 hlive
      obtain ⟨hrow, htenant⟩ := current_some hcurrent
      have hplan := current_plan hcurrent
      have hid : c.subscription.planId = p := by
        obtain ⟨id, sub, plan⟩ := c
        cases plan with
        | none =>
            rw [hlive] at hnamed
            cases hnamed
        | some plan =>
            rw [hlive] at hnamed
            exact Option.some.inj hnamed
      refine ⟨c.subscription.expiresAt, ⟨c.id, c.subscription, hrow, htenant, hid, rfl⟩, ?_⟩
      intro hpaid graceEnd hgrace
      rw [← hid, ← hplan] at hpaid
      simpa [isLapsed, hpaid, hgrace] using hlapsed

/-- **No paid plan without payment**, in every sequential run in which stores are
registered only while a free plan is active, if any plan is: the limits of a paid plan
are those of a plan the store has bought until a time that, with the grace, is not
over. -/
theorem paid_plan_bought {db₀ : Database} {steps : List (Served billing Request)}
    {answer : Answers billing} {n : ℕ} {entitlements : PlanEntitlements} {plan : Plan}
    (hstart : NonePaid db₀) (hrun : Journal handler RegistersFree db₀ steps db)
    (hentitled : ((getEntitlements t).exec (S := billing) answer n (.start db)).value =
      .ok entitlements)
    (hp : entitlements.planId = some p) (hplan : findPlan db p = some plan)
    (hprice : 0 < plan.price) :
    ∃ s ∈ steps, ∃ expiresAt, Bought s t p expiresAt ∧
      ∀ graceEnd, graceEndsAt expiresAt = some graceEnd → answer n .now < graceEnd := by
  have hpaid : isPaidPlan (findPlan db p) = true := by simp [isPaidPlan, hplan, hprice]
  obtain ⟨expiresAt, hon, hgrace⟩ := getEntitlements_onPlan hentitled hp
  obtain ⟨s, hmem, hbought⟩ := onPlan_bought hstart hrun hon hpaid
  exact ⟨s, hmem, expiresAt, hbought, hgrace hpaid⟩

/-- A store registers, asks for the monthly plan, and buys it by card. -/
def cardSteps : List (Served billing Request) :=
  let registered := serve working (handler (.register "ana@mugs.test" "mugs")) platform
  let requested := serve working (handler (.requestUpgrade 2 1 none)) registered
  [⟨requested, working, .stripeWebhook false (some (.invoicePaid (some 70)))⟩,
    ⟨registered, working, .requestUpgrade 2 1 none⟩,
    ⟨platform, working, .register "ana@mugs.test" "mugs"⟩]

theorem platform_freeIfAny : FreeIfAny platform := fun _ _ _ _ => ⟨0, _, rfl, rfl, le_refl 0⟩

theorem platform_nonePaid : NonePaid platform := fun _ _ hrow => nomatch hrow

theorem cardSteps_journal : Journal handler RegistersFree platform cardSteps paidByCard :=
  .cons _ (.cons _ (.cons _ .nil ⟨rfl, fun _ _ _ _ _ => platform_freeIfAny⟩)
    ⟨rfl, fun _ _ h => nomatch h⟩) ⟨rfl, fun _ _ h => nomatch h⟩

theorem paid_plan_bought_card : ∃ s ∈ cardSteps, ∃ expiresAt, Bought s 2 1 expiresAt ∧
    ∀ graceEnd, graceEndsAt expiresAt = some graceEnd → working 0 .now < graceEnd := by
  obtain ⟨entitlements, hvalue, hp⟩ := Option.map_eq_some_iff.1 (by decide +kernel :
    (((getEntitlements 2).exec (S := billing) working 0 (.start paidByCard)).value.toOption.map
      PlanEntitlements.planId) = some (some 1))
  obtain ⟨plan, hplan, hprice⟩ := Option.map_eq_some_iff.1 (by decide +kernel :
    (findPlan paidByCard 1).map Plan.price = some (1000 : Cents))
  exact paid_plan_bought platform_nonePaid cardSteps_journal (eq_ok_of_toOption hvalue) hp hplan
    (by rw [hprice]; decide)

/-- A platform on which the only active plan is a paid one. -/
def paidOnly : Database :=
  Store.empty.set (.plan 1) (some ⟨"Pro", 1000, .monthly, 3, 500, [.whatsapp, .stripe], true, 1⟩)

/-- A store is registered on the only plan there is, for nothing and for ever. -/
theorem paid_plan_registered : ¬ ∀ (db₀ db : Database) (steps : List (Served billing Request))
    (answer : Answers billing) (n : ℕ) (entitlements : PlanEntitlements) (t p : Id) (plan : Plan),
    NonePaid db₀ → Journal handler (fun _ r => r.isOperation = true) db₀ steps db →
    ((getEntitlements t).exec (S := billing) answer n (.start db)).value = .ok entitlements →
    entitlements.planId = some p → findPlan db p = some plan → 0 < plan.price →
    ∃ s ∈ steps, ∃ expiresAt, Bought s t p expiresAt ∧
      ∀ graceEnd, graceEndsAt expiresAt = some graceEnd → answer n .now < graceEnd := by
  intro h
  obtain ⟨entitlements, hvalue, hp⟩ := Option.map_eq_some_iff.1 (by decide +kernel :
    (((getEntitlements 2).exec (S := billing) working 0 (.start
      (serve working (handler (.register "ana@mugs.test" "mugs")) paidOnly))).value.toOption.map
        PlanEntitlements.planId) = some (some 1))
  obtain ⟨plan, hplan, hprice⟩ := Option.map_eq_some_iff.1 (by decide +kernel :
    (findPlan (serve working (handler (.register "ana@mugs.test" "mugs")) paidOnly) 1).map
      Plan.price = some (1000 : Cents))
  obtain ⟨s, hmem, expiresAt, ⟨hbuys, -⟩, -⟩ := h paidOnly _
    [⟨paidOnly, working, .register "ana@mugs.test" "mugs"⟩] working 0 entitlements 2 1 plan
    (fun _ _ hrow => nomatch hrow) (.cons _ .nil rfl) (eq_ok_of_toOption hvalue) hp hplan
    (by rw [hprice]; decide)
  rw [List.mem_singleton.1 hmem] at hbuys
  rcases hbuys with ⟨_, _, _, hrequest, -⟩ | ⟨_, _, hrequest, -⟩
  · cases hrequest
  · cases hrequest

end WhatStore.Billing
