import WhatStore.Billing.Events

/-!
# A Stripe subscription that was replaced

A completed checkout may replace the Stripe subscription of a store, by another
one or by a lifetime plan. The old one is cancelled at Stripe, and a
cancellation that fails is only logged, so events about it may still arrive. An
update or a deletion finds no row that it bills. A payment is only refused when
the store is billed by another subscription and the payment is told by an
invoice: the checkout of the old subscription, delivered again, replaces the new
one, and after a lifetime plan its invoice brings the old plan back. In every
run without such a payment a replaced subscription stays replaced.
-/

namespace WhatStore.Billing

open ReadCommitted ReadCommitted.Prog

variable {db db' : Database} {answer : Answers billing} {inTx : Bool} {e : StripeEvent}
  {t stripeId : Id}

/-! ## The other events -/

theorem heldBy_lifetime (session : CheckoutSession) : HeldBy db t session.lifetime := by
  intro t' hsome heq
  rw [heq] at hsome
  cases hsome

def cancelBilled : Option Id → Prog billing Unit
  | none => .ret ()
  | some id => cancelStripeSubscription id

/-- The checkout of a lifetime plan writes the row of its store, or nothing. -/
theorem lifetime_serves {session : CheckoutSession} (inTx : Bool) (hmode : session.mode ≠ "subscription")
    (hone : OneEach db) (hfresh : ∀ m, db.row (.subscription (answer m .uuid)) = none) :
    serve answer (handler (.stripeWebhook inTx (some (.checkoutCompleted session)))) db = db ∨
      ∃ t p, Wrote db
        (serve answer (handler (.stripeWebhook inTx (some (.checkoutCompleted session)))) db) t
        (activated t p session.lifetime (named db t p) (storeRow db t)) := by
  have hcancel : ∀ billed, (cancelBilled billed).Idle (S := billing) answer db := by
    intro billed
    cases billed with
    | none => exact idle_ret ()
    | some id => exact idle_invoke (f := .ret) fun _ => idle_ret ()
  by_cases hopen : answer 0 .cardBillingEnabled = true
  · have hserve : serve answer (handler (.stripeWebhook inTx (some (.checkoutCompleted session))))
        db = ((onCheckoutCompleted inTx session).exec (S := billing) answer 1
          (.start db)).session.view :=
      congrArg (fun x => x.session.view) (requireStripe_open _ db hopen)
    rw [hserve, onCheckoutCompleted]
    split
    · exact .inl rfl
    rw [if_neg (by simpa using hmode)]
    split
    · next t p _ _ =>
        by_cases hexists : Writable db t p
        · refine .inr ⟨t, p, ?_⟩
          have hdone : (activatePlan inTx t p session.lifetime >>= fun _ =>
              cancelBilled ((billing.eval (Query.currentSubscription t) db).bind fun c : Current =>
                c.subscription.stripeSubscriptionId)).Achieves (S := billing) answer 1 (.start db)
                fun _ _ σ _ => Wrote db σ.view t
                  (activated t p session.lifetime (named db t p) (storeRow db t)) := by
            refine (activatePlan_achieves (σ := .start db) hone (heldBy_lifetime session) hfresh
              hexists).seq fun _ _ σ cs hwrote => ?_
            unfold cancelBilled
            split <;> exact hwrote
          exact hdone.run.choose_spec.2
        · have hidle : (activatePlan inTx t p session.lifetime >>= fun _ =>
              cancelBilled ((billing.eval (Query.currentSubscription t) db).bind fun c : Current =>
                c.subscription.stripeSubscriptionId)).Idle (S := billing) answer db :=
            (activatePlan_idle hexists).seq fun _ _ _ => hcancel _
          exact .inl (congrArg Session.view (hidle 1))
    · exact .inl rfl
  · refine .inl ?_
    have hclosed := requireStripe_closed (n := 0) (onCheckoutCompleted inTx session) db
      fun h => absurd h hopen
    exact congrArg Session.view hclosed

/-- The rows that Stripe bills as `stripeId` were changed, and stay with their store. -/
structure Mirrors (stripeId : Id) (db db' : Database) : Prop where
  kept : ∀ id sub, db.row (.subscription id) = some sub →
    sub.stripeSubscriptionId ≠ some stripeId → db'.row (.subscription id) = some sub
  came : ∀ id sub', db'.row (.subscription id) = some sub' →
    ∃ sub, db.row (.subscription id) = some sub ∧ sub.tenantId = sub'.tenantId ∧
      (sub' = sub ∨ sub.stripeSubscriptionId = some stripeId ∧
        (sub'.stripeSubscriptionId = sub.stripeSubscriptionId ∨ sub'.stripeSubscriptionId = none))

theorem Mirrors.refl (stripeId : Id) (db : Database) : Mirrors stripeId db db where
  kept _ _ hrow _ := hrow
  came _ sub' hrow := ⟨sub', hrow, rfl, .inl rfl⟩

theorem Mirrors.patch (h : Mirrors stripeId db db') {id : Id} {f : Subscription → Subscription}
    (hbilled : ∀ sub, db'.row (.subscription id) = some sub →
      sub.stripeSubscriptionId = some stripeId)
    (htenant : ∀ sub, (f sub).tenantId = sub.tenantId)
    (hstripe : ∀ sub, (f sub).stripeSubscriptionId = sub.stripeSubscriptionId ∨
      (f sub).stripeSubscriptionId = none) :
    Mirrors stripeId db (db'.set (.subscription id) ((db'.row (.subscription id)).map f)) := by
  constructor
  · intro j sub hrow hne
    have hkept := h.kept j sub hrow hne
    by_cases hj : j = id
    · subst hj
      exact absurd (hbilled sub hkept) hne
    · rw [subscription_set _ _ hj]
      exact hkept
  · intro j sub' hrow
    by_cases hj : j = id
    · subst hj
      rw [Store.set_row_self] at hrow
      obtain ⟨mid, hmid, rfl⟩ := Option.map_eq_some_iff.1 hrow
      obtain ⟨sub, hsub, hsame, hcame⟩ := h.came j mid hmid
      refine ⟨sub, hsub, hsame.trans (htenant mid).symm, .inr ?_⟩
      have hmidBilled := hbilled mid hmid
      rcases hcame with rfl | ⟨hold, hcame | hcame⟩
      · exact ⟨hmidBilled, hstripe mid⟩
      · refine ⟨hold, (hstripe mid).imp (fun heq => heq.trans hcame) id⟩
      · rw [hmidBilled] at hcame
        cases hcame
    · rw [subscription_set _ _ hj] at hrow
      exact h.came j sub' hrow

theorem updateBilled_mirrors {σ : Session billing} (hσ : Upholds (S := billing) (Mirrors stripeId db) σ)
    {u : Id → Update}
    (hu : ∀ id db', Mirrors stripeId db db' →
      billing.guard (u id) (db'.row (billing.key (u id))) = true →
        Mirrors stripeId db (applyUpdate (S := billing) (u id) db')) :
    (updateBilled inTx stripeId u).Keeps (S := billing) (fun _ _ => True) (Mirrors stripeId db) σ
      fun _ _ => True := by
  refine keeps_ask ((keeps_each hσ fun id σ hσ => ?_).seq hσ fun _ σ' hσ' _ => ?_)
  · exact keeps_write (fun hguard => hu id σ.view hσ.view hguard) (fun _ => trivial) trivial
  · cases inTx <;> exact trivial

theorem billed_of_guard {v : Option Subscription} {sub : Subscription}
    (hguard : (v.any fun s => s.stripeSubscriptionId == some stripeId) = true)
    (hsub : v = some sub) : sub.stripeSubscriptionId = some stripeId := by
  subst hsub
  simpa using hguard

/-- The events that mirror the state of a subscription. -/
theorem webhook_mirrors (hevent : (∃ x : StripeSubscription, x.id = stripeId ∧
      (e = .subscriptionUpdated x ∨ e = .subscriptionDeleted x))) :
    Mirrors stripeId db (serve answer (handler (.stripeWebhook inTx (some e))) db) := by
  have hσ : Upholds (S := billing) (Mirrors stripeId db) (.start db) :=
    ⟨.refl stripeId db, .refl stripeId db⟩
  have hkeeps : (handleWebhook inTx (some e)).Keeps (S := billing) (fun _ _ => True)
      (Mirrors stripeId db) (.start db) fun _ _ => True := by
    refine (keeps_bind _ _ _).2 (keeps_invoke fun _ _ => keeps_throwIf.2 fun _ => ?_)
    obtain ⟨x, rfl, rfl | rfl⟩ := hevent
    · refine updateBilled_mirrors hσ fun id db' hdb' hguard => ?_
      exact hdb'.patch (fun sub hsub => billed_of_guard hguard hsub) (fun _ => rfl)
        fun _ => .inl rfl
    · refine updateBilled_mirrors hσ fun id db' hdb' hguard => ?_
      exact hdb'.patch (fun sub hsub => billed_of_guard hguard hsub) (fun _ => rfl)
        fun _ => .inr rfl
  exact hkeeps.serve (.refl stripeId db) fun _ _ => trivial

/-! ## Events about a subscription that does not bill the store -/

def About (stripeId : Id) : StripeEvent → Prop
  | .checkoutCompleted session =>
      session.mode = "subscription" ∧ session.subscription = some stripeId
  | .invoicePaid subscription => subscription = some stripeId
  | .subscriptionUpdated x => x.id = stripeId
  | .subscriptionDeleted x => x.id = stripeId
  | .other => False

/-- The ids that are drawn are new, and Stripe answers with what it was asked for. -/
structure Genuine (answer : Answers billing) (db : Database) : Prop where
  fresh : ∀ m, db.row (.subscription (answer m .uuid)) = none
  asked : ∀ n id x, answer n (.retrieve id) = some x → x.id = id

/-- The event does not pay the store `t` with the subscription, unless an invoice tells
of it and the store is billed by another one. -/
def SparesStore (db : Database) (answer : Answers billing) (e : StripeEvent) (t stripeId : Id) :
    Prop :=
  PaidEvent stripeId e → ∀ x fromCheckout p, shownBy answer e = some (x, fromCheckout) →
    x.pays = some (t, p) → fromCheckout = false ∧ (replaced x (billedBy db t)).isSome = true

/-- The store is not billed by the subscription afterwards either, and if the event is
about it the store keeps its row. -/
structure Stays (db db' : Database) (e : StripeEvent) (t stripeId : Id) : Prop where
  unbilled : billedBy db' t ≠ some stripeId
  same : About stripeId e → SameRows db db' t

theorem Stays.refl (hunbilled : billedBy db t ≠ some stripeId) : Stays db db e t stripeId where
  unbilled := hunbilled
  same _ _ _ _ := Iff.rfl

theorem shown_id {x : StripeSubscription} {fromCheckout : Bool} (hgenuine : Genuine answer db)
    (hevent : PaidEvent stripeId e) (hshown : shownBy answer e = some (x, fromCheckout)) :
    x.id = stripeId := by
  rcases hevent with rfl | ⟨session, rfl, -, hsubscription⟩
  · simp only [shownBy, Option.bind_some] at hshown
    split at hshown
    · obtain ⟨y, hfound, heq⟩ := Option.map_eq_some_iff.1 hshown
      cases heq
      exact hgenuine.asked 2 stripeId x hfound
    · cases hshown
  · simp only [shownBy, hsubscription, Option.bind_some] at hshown
    split at hshown
    · obtain ⟨y, hfound, heq⟩ := Option.map_eq_some_iff.1 hshown
      cases heq
      exact hgenuine.asked 2 stripeId x hfound
    · cases hshown

theorem about_of_paid {stripeId' : Id} (hevent : PaidEvent stripeId' e)
    (habout : About stripeId e) : stripeId' = stripeId := by
  rcases hevent with rfl | ⟨session, rfl, -, hsubscription⟩
  · exact Option.some.inj habout
  · exact Option.some.inj (hsubscription.symm.trans habout.2)

/-- A period that is activated bills the store by its own subscription, or nothing was
written. -/
theorem billed_activated (t p : Id) (period : PaidPeriod) (names : Named)
    (v : Option Subscription) :
    (activated t p period names v).bind Subscription.stripeSubscriptionId =
      period.stripeSubscriptionId ∨ activated t p period names v = v := by
  cases v with
  | some sub =>
      cases hplan : names.plan with
      | true => exact .inl (by simp [activated, hplan, Subscription.activated])
      | false => exact .inr (activated_missing hplan _)
  | none =>
      cases hboth : names.tenant && names.plan with
      | true => exact .inl (by simp [activated, hboth, newPaid])
      | false => exact .inr (by simp [activated, hboth])

theorem payment_stays {stripeId' : Id} (hone : OneEach db) (hgenuine : Genuine answer db)
    (hunbilled : billedBy db t ≠ some stripeId) (hspares : SparesStore db answer e t stripeId)
    (hevent : PaidEvent stripeId' e) :
    Stays db (serve answer (handler (.stripeWebhook inTx (some e))) db) e t stripeId := by
  cases hshown : shownBy answer e with
  | none =>
      rw [event_ignored inTx db hevent hshown]
      exact .refl hunbilled
  | some shown =>
      obtain ⟨x, fromCheckout⟩ := shown
      have happlies := event_applies inTx hevent hshown hone hgenuine.fresh
      by_cases hwrites : ∃ t' p, x.pays = some (t', p) ∧ HeldBy db t' x.period ∧
          ((replaced x (billedBy db t')).isNone || fromCheckout) = true
      · obtain ⟨t', p, hpays, hheld, hmay⟩ := hwrites
        have hwrote := happlies.wrote t' p hpays hheld
        by_cases ht : t = t'
        · subst ht
          -- the subscription that is activated is another one
          have hne : x.id ≠ stripeId := by
            intro hid
            have hsame : stripeId' = stripeId := (shown_id hgenuine hevent hshown).symm.trans hid
            rw [hsame] at hevent
            obtain ⟨hinvoice, hother⟩ := hspares hevent x fromCheckout p hshown hpays
            rw [hinvoice, Bool.or_false] at hmay
            simp_all
          constructor
          · rw [billedBy, hwrote.row, applied, if_pos (by exact hmay)]
            rcases billed_activated t p x.period (named db t p) (storeRow db t) with heq | heq
            · rw [heq]
              exact fun h => hne (Option.some.inj h)
            · rw [heq]
              exact hunbilled
          · intro habout
            exact absurd ((shown_id hgenuine hevent hshown).trans
              (about_of_paid hevent habout)) hne
        · have hsame := hwrote.others t ht
          refine ⟨?_, fun _ => hsame⟩
          rwa [hsame.billedBy_eq hone hwrote.one]
      · rw [happlies.same fun t' p hpays hheld => ?_]
        · exact .refl hunbilled
        · by_contra hmay
          exact hwrites ⟨t', p, hpays, hheld, by simpa only [Bool.not_eq_false] using hmay⟩

theorem lifetime_stays {session : CheckoutSession} (hmode : session.mode ≠ "subscription")
    (hone : OneEach db) (hgenuine : Genuine answer db) (hunbilled : billedBy db t ≠ some stripeId) :
    Stays db (serve answer (handler (.stripeWebhook inTx (some (.checkoutCompleted session)))) db)
      (.checkoutCompleted session) t stripeId := by
  refine ⟨?_, fun habout => absurd habout.1 hmode⟩
  rcases lifetime_serves inTx hmode hone hgenuine.fresh with hsame | ⟨t', p, hwrote⟩
  · rwa [hsame]
  · by_cases ht : t = t'
    · subst ht
      rw [billedBy, hwrote.row]
      rcases billed_activated t p session.lifetime (named db t p) (storeRow db t) with heq | heq
      · rw [heq]
        intro h; cases h
      · rw [heq]
        exact hunbilled
    · rwa [(hwrote.others t ht).billedBy_eq hone hwrote.one]

theorem mirrors_stays {stripeId' : Id} (hone : OneEach db)
    (hmirrors : Mirrors stripeId' db db') (hunbilled : billedBy db t ≠ some stripeId)
    (habout : About stripeId e → stripeId' = stripeId) : Stays db db' e t stripeId := by
  have hbilled : ∀ {id sub s}, db.row (.subscription id) = some sub → sub.tenantId = t →
      sub.stripeSubscriptionId = some s → billedBy db t = some s := by
    rintro id sub s hrow rfl hstripe
    rw [billedBy, storeRow_of_row hone hrow]
    exact hstripe
  constructor
  · intro h
    obtain ⟨s, hrow, hstripe⟩ := Option.bind_eq_some_iff.1 h
    obtain ⟨id, sub', hrow', htenant, rfl⟩ := exists_row_of_storeRow hrow
    have hstripe' : sub'.stripeSubscriptionId = some stripeId := hstripe
    obtain ⟨sub, hsub, hsame, hcame⟩ := hmirrors.came id sub' hrow'
    have hback : sub.stripeSubscriptionId = some stripeId := by
      rcases hcame with rfl | ⟨-, hcame | hcame⟩
      · exact hstripe'
      · rw [← hcame, hstripe']
      · rw [hstripe'] at hcame
        cases hcame
    exact hunbilled (hbilled hsub (hsame.trans htenant) hback)
  · intro h id sub htenant
    obtain rfl := habout h
    constructor
    · intro hrow
      obtain ⟨old, hold, hsame, hcame⟩ := hmirrors.came id sub hrow
      rcases hcame with rfl | ⟨hstripe, -⟩
      · exact hold
      · exact absurd (hbilled hold (hsame.trans htenant) hstripe) hunbilled
    · intro hrow
      exact hmirrors.kept id sub hrow fun hstripe => hunbilled (hbilled hrow htenant hstripe)

theorem unnamed_same (hevent : e = .invoicePaid none ∨ e = .other ∨
      ∃ session, e = .checkoutCompleted session ∧ session.mode = "subscription" ∧
        session.subscription = none) :
    serve answer (handler (.stripeWebhook inTx (some e))) db = db := by
  refine Idle.served (Idle.seq (idle_invoke fun _ => idle_throwIf) fun _ _ _ => ?_)
  rcases hevent with rfl | rfl | ⟨session, rfl, hmode, hnone⟩
  · exact idle_ret ()
  · exact idle_ret ()
  · change (onCheckoutCompleted inTx session).Idle (S := billing) answer db
    rw [onCheckoutCompleted]
    split
    · exact idle_ret ()
    · rw [if_pos (by simp [hmode]), hnone]
      exact idle_ret ()

/-- What one event keeps of a store that is not billed by the subscription. -/
theorem event_stays (hdb : Sound db) (hgenuine : Genuine answer db)
    (hunbilled : billedBy db t ≠ some stripeId) (hspares : SparesStore db answer e t stripeId) :
    Stays db (serve answer (handler (.stripeWebhook inTx (some e))) db) e t stripeId := by
  cases e with
  | checkoutCompleted session =>
      by_cases hmode : session.mode = "subscription"
      · cases hsubscription : session.subscription with
        | none =>
            rw [unnamed_same (.inr (.inr ⟨session, rfl, hmode, hsubscription⟩))]
            exact .refl hunbilled
        | some stripeId' =>
            exact payment_stays hdb.unique hgenuine hunbilled hspares
              (.inr ⟨session, rfl, hmode, hsubscription⟩)
      · exact lifetime_stays hmode hdb.unique hgenuine hunbilled
  | invoicePaid subscription =>
      cases subscription with
      | none =>
          rw [unnamed_same (.inl rfl)]
          exact .refl hunbilled
      | some stripeId' => exact payment_stays hdb.unique hgenuine hunbilled hspares (.inl rfl)
  | subscriptionUpdated x =>
      exact mirrors_stays hdb.unique (webhook_mirrors ⟨x, rfl, .inl rfl⟩) hunbilled id
  | subscriptionDeleted x =>
      exact mirrors_stays hdb.unique (webhook_mirrors ⟨x, rfl, .inr rfl⟩) hunbilled id
  | other =>
      rw [unnamed_same (.inr (.inl rfl))]
      exact .refl hunbilled

/-! ## Runs -/

def Replaces (db db' : Database) (e : StripeEvent) (t stripeId : Id) : Prop :=
  (∃ session, e = .checkoutCompleted session) ∧ billedBy db t = some stripeId ∧
    billedBy db' t ≠ some stripeId

/-- A run of billing events in any order, delivered any number of times, each of which
satisfies `ok`. `gone` are the subscriptions that were replaced so far, each with its
store. -/
inductive BillingRun (ok : (Id → Id → Prop) → Database → Answers billing → StripeEvent → Prop)
    (db₀ : Database) : Database → (Id → Id → Prop) → Prop
  | start : BillingRun ok db₀ db₀ fun _ _ => False
  | event {db : Database} {gone : Id → Id → Prop} (answer : Answers billing) (inTx : Bool)
      (e : StripeEvent) (hrun : BillingRun ok db₀ db gone) (hgenuine : Genuine answer db)
      (hok : ok gone db answer e) :
      BillingRun ok db₀ (serve answer (handler (.stripeWebhook inTx (some e))) db)
        fun t stripeId => gone t stripeId ∨
          Replaces db (serve answer (handler (.stripeWebhook inTx (some e))) db) e t stripeId

/-- No payment of a replaced subscription, unless by an invoice that finds the store
billed by another one. -/
def SparesReplaced (gone : Id → Id → Prop) (db : Database) (answer : Answers billing)
    (e : StripeEvent) : Prop :=
  ∀ t stripeId, gone t stripeId → SparesStore db answer e t stripeId

theorem replaced_unbilled {db₀ : Database} {gone : Id → Id → Prop} (hdb₀ : Sound db₀)
    (hrun : BillingRun SparesReplaced db₀ db gone) :
    Sound db ∧ ∀ t stripeId, gone t stripeId → billedBy db t ≠ some stripeId := by
  induction hrun with
  | start => exact ⟨hdb₀, nofun⟩
  | event answer inTx e hrun hgenuine hok ih =>
      obtain ⟨hdb, hgone⟩ := ih
      refine ⟨(handler_keeps _ hdb).serve hdb fun _ _ => trivial, ?_⟩
      rintro t stripeId (hold | hnew)
      · exact (event_stays hdb hgenuine (hgone t stripeId hold) (hok t stripeId hold)).unbilled
      · exact hnew.2.2

/-- **A replaced subscription stays replaced**, in every run of billing events in which no
payment of a replaced subscription is told of, except by an invoice that finds the
store billed by another one: an event about it leaves the row of the store as it is. -/
theorem replaced_stays {db₀ : Database} {gone : Id → Id → Prop} (hdb₀ : Sound db₀)
    (hrun : BillingRun SparesReplaced db₀ db gone) (hgenuine : Genuine answer db)
    (hspares : SparesReplaced gone db answer e) (hgone : gone t stripeId)
    (habout : About stripeId e) :
    SameRows db (serve answer (handler (.stripeWebhook inTx (some e))) db) t := by
  obtain ⟨hdb, hunbilled⟩ := replaced_unbilled hdb₀ hrun
  exact (event_stays hdb hgenuine (hunbilled t stripeId hgone)
    (hspares t stripeId hgone)).same habout

def lifetimeCheckout : CheckoutSession :=
  ⟨some planCheckoutKind, some 2, some 1, "paid", "payment", none, some 80⟩

/-- The lifetime plan has replaced the card subscription of the store 2. -/
def paidForLife : Database :=
  serve (oneSubscription.outside 100)
    (handler (.stripeWebhook false (some (.checkoutCompleted lifetimeCheckout)))) checkedOut

theorem checkedOut_sound : Sound checkedOut :=
  (handler_keeps _ registered_sound).serve registered_sound fun _ _ => trivial

theorem outside_genuine (provider : Provider) {first : Id} {db : Database}
    (hfresh : ∀ m, db.row (.subscription (provider.outside first m .uuid)) = none) :
    Genuine (provider.outside first) db where
  fresh := hfresh
  asked _ id x h := provider.found_id id x h

theorem paidForLife_keys : paidForLife.keys = registered.keys := by
  decide +kernel

theorem paidForLife_replaces :
    Replaces checkedOut paidForLife (.checkoutCompleted lifetimeCheckout) 2 70 :=
  ⟨⟨_, rfl⟩, by decide +kernel, by decide +kernel⟩

/-- Stripe deletes the replaced subscription. -/
theorem replaced_stays_deleted : SameRows paidForLife
    (serve (oneSubscription.outside 100)
      (handler (.stripeWebhook false (some (.subscriptionDeleted proByCard)))) paidForLife) 2 :=
  replaced_stays checkedOut_sound
    (.event (oneSubscription.outside 100) false (.checkoutCompleted lifetimeCheckout) .start
      (outside_genuine oneSubscription (fresh_of_keys checkedOut_keys)) nofun)
    (outside_genuine oneSubscription (fresh_of_keys paidForLife_keys))
    (fun _ _ _ hevent => by rcases hevent with h | ⟨_, h, -⟩ <;> cases h)
    (.inr paidForLife_replaces) rfl

/-- The cancellation of the replaced subscription failed, and its next invoice brings the
monthly plan back. -/
theorem replaced_returns : ¬ ∀ (db₀ db : Database) (gone : Id → Id → Prop)
    (answer : Answers billing) (inTx : Bool) (e : StripeEvent) (t stripeId : Id), Sound db₀ →
    BillingRun (fun _ _ _ _ => True) db₀ db gone → Genuine answer db → gone t stripeId →
    About stripeId e →
    SameRows db (serve answer (handler (.stripeWebhook inTx (some e))) db) t := by
  intro h
  have hrun : BillingRun (fun _ _ _ _ => True) checkedOut paidForLife _ :=
    .event (oneSubscription.outside 100) false (.checkoutCompleted lifetimeCheckout) .start
      (outside_genuine oneSubscription (fresh_of_keys checkedOut_keys)) trivial
  have hsame := h checkedOut paidForLife _ (oneSubscription.outside 100) false
    (.invoicePaid (some 70)) 2 70 checkedOut_sound hrun
    (outside_genuine oneSubscription (fresh_of_keys paidForLife_keys)) (.inr paidForLife_replaces) rfl
  have hsound : Sound paidForLife :=
    (handler_keeps _ checkedOut_sound).serve checkedOut_sound fun _ _ => trivial
  have hsound' : Sound (serve (oneSubscription.outside 100)
      (handler (.stripeWebhook false (some (.invoicePaid (some 70))))) paidForLife) :=
    (handler_keeps _ hsound).serve hsound fun _ _ => trivial
  have hbilled := hsame.billedBy_eq hsound.unique hsound'.unique
  have hbefore : billedBy paidForLife 2 = none := by decide +kernel
  have hafter : billedBy (serve (oneSubscription.outside 100)
      (handler (.stripeWebhook false (some (.invoicePaid (some 70))))) paidForLife) 2 = some 70 := by
    decide +kernel
  rw [hbefore, hafter] at hbilled
  cases hbilled

end WhatStore.Billing
