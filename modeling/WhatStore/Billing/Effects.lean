import WhatStore.Billing.Subscriptions
import WhatStore.ReadCommitted.Outcomes

/-!
# What a payment does to the row of a store

`applyStripeSubscription` is where the completed checkout and the paid invoice
of a Stripe subscription meet. It writes one row at most, that of the store the
subscription pays for: `applied` says what it leaves there, and every other row
of the database stays. `event_applies` carries this to the two events.
-/

namespace WhatStore.Billing

open ReadCommitted ReadCommitted.Prog

/-! ## The row of a store -/

def OneEach (db : Database) : Prop :=
  ∀ id id' sub sub', db.row (.subscription id) = some sub →
    db.row (.subscription id') = some sub' → sub.tenantId = sub'.tenantId → id = id'

def Subscription.undated (sub : Subscription) : Subscription := { sub with createdAt := 0 }

/-- The subscription of a store, up to its id and the time it was created. -/
def storeRow (db : Database) (tenantId : Id) : Option Subscription :=
  (Query.eval (.currentSubscription tenantId) db).map fun c => c.subscription.undated

def billedBy (db : Database) (tenantId : Id) : Option Id :=
  (storeRow db tenantId).bind Subscription.stripeSubscriptionId

variable {db db' : Database} {id tenantId planId : Id} {sub : Subscription} {c : Current}

theorem current_row (hone : OneEach db) (h : db.row (.subscription id) = some sub) :
    ∃ plan, Query.eval (.currentSubscription sub.tenantId) db = some ⟨id, sub, plan⟩ := by
  cases hcurrent : Query.eval (.currentSubscription sub.tenantId) db with
  | none => exact absurd rfl (current_none hcurrent id sub h)
  | some c =>
      obtain ⟨hrow, htenant⟩ := current_some hcurrent
      have hid : id = c.id := hone id c.id sub c.subscription h hrow htenant.symm
      subst hid
      rw [h] at hrow
      cases hrow
      exact ⟨c.plan, rfl⟩

theorem storeRow_of_row (hone : OneEach db) (h : db.row (.subscription id) = some sub) :
    storeRow db sub.tenantId = some sub.undated := by
  obtain ⟨plan, hcurrent⟩ := current_row hone h
  rw [storeRow, hcurrent]
  rfl

theorem storeRow_of_current (h : Query.eval (.currentSubscription tenantId) db = some c) :
    storeRow db tenantId = some c.subscription.undated := by
  rw [storeRow, h]
  rfl

theorem storeRow_eq_none : storeRow db tenantId = none ↔ Unsubscribed tenantId db := by
  constructor
  · intro h
    exact current_none (Option.map_eq_none_iff.1 h)
  · intro h
    rw [storeRow, Option.map_eq_none_iff]
    cases hcurrent : Query.eval (.currentSubscription tenantId) db with
    | none => rfl
    | some c =>
        obtain ⟨hrow, htenant⟩ := current_some hcurrent
        exact absurd htenant (h c.id c.subscription hrow)

theorem exists_row_of_storeRow {s : Subscription} (h : storeRow db tenantId = some s) :
    ∃ id sub, db.row (.subscription id) = some sub ∧ sub.tenantId = tenantId ∧
      s = sub.undated := by
  obtain ⟨c, hcurrent, hs⟩ := Option.map_eq_some_iff.1 h
  obtain ⟨hrow, htenant⟩ := current_some hcurrent
  exact ⟨c.id, c.subscription, hrow, htenant, hs.symm⟩

theorem storeRow_eq_some (hone : OneEach db) {s : Subscription} :
    storeRow db tenantId = some s ↔
      ∃ id sub, db.row (.subscription id) = some sub ∧ sub.tenantId = tenantId ∧
        s = sub.undated := by
  constructor
  · exact exists_row_of_storeRow
  · rintro ⟨id, sub, hrow, rfl, rfl⟩
    exact storeRow_of_row hone hrow

/-- The subscription of a store is the same row. -/
def SameRows (db db' : Database) (tenantId : Id) : Prop :=
  ∀ id sub, sub.tenantId = tenantId →
    (db'.row (.subscription id) = some sub ↔ db.row (.subscription id) = some sub)

theorem SameRows.storeRow_eq (h : SameRows db db' tenantId) (hone : OneEach db)
    (hone' : OneEach db') : storeRow db' tenantId = storeRow db tenantId := by
  apply Option.ext
  intro s
  rw [storeRow_eq_some hone', storeRow_eq_some hone]
  constructor
  · rintro ⟨id, sub, hrow, hsub, heq⟩
    exact ⟨id, sub, (h id sub hsub).1 hrow, hsub, heq⟩
  · rintro ⟨id, sub, hrow, hsub, heq⟩
    exact ⟨id, sub, (h id sub hsub).2 hrow, hsub, heq⟩

theorem SameRows.billedBy_eq (h : SameRows db db' tenantId) (hone : OneEach db)
    (hone' : OneEach db') : billedBy db' tenantId = billedBy db tenantId := by
  rw [billedBy, billedBy, h.storeRow_eq hone hone']

structure Wrote (db db' : Database) (tenantId : Id) (v : Option Subscription) : Prop where
  one : OneEach db'
  row : storeRow db' tenantId = v
  others : ∀ t, t ≠ tenantId → SameRows db db' t
  rest : ∀ k, (∀ id, k ≠ .subscription id) → db'.row k = db.row k

theorem Wrote.same (hone : OneEach db) : Wrote db db tenantId (storeRow db tenantId) where
  one := hone
  row := rfl
  others _ _ _ _ _ := Iff.rfl
  rest _ _ := rfl

theorem wrote_set (id : Id) (sub : Subscription) (hone : OneEach db)
    (hold : ∀ old, db.row (.subscription id) = some old → old.tenantId = sub.tenantId)
    (hnew : db.row (.subscription id) = none → Unsubscribed sub.tenantId db) :
    Wrote db (db.set (.subscription id) (some sub)) sub.tenantId (some sub.undated) := by
  have hself : (db.set (.subscription id) (some sub)).row (.subscription id) = some sub :=
    Store.set_row_self _ _ _
  -- every other row of the store is this one
  have hother : ∀ j old, j ≠ id → db.row (.subscription j) = some old →
      old.tenantId ≠ sub.tenantId := by
    intro j old hj hrow heq
    cases hid : db.row (.subscription id) with
    | none => exact hnew hid j old hrow heq
    | some prior => exact hj (hone j id old prior hrow hid (heq.trans (hold prior hid).symm))
  have hone' : OneEach (db.set (.subscription id) (some sub)) := by
    intro j j' s s' hj hj' heq
    by_cases h : j = id
    · by_cases h' : j' = id
      · rw [h, h']
      · subst h
        rw [hself] at hj
        cases hj
        rw [subscription_set _ _ h'] at hj'
        exact absurd heq.symm (hother j' s' h' hj')
    · rw [subscription_set _ _ h] at hj
      by_cases h' : j' = id
      · subst h'
        rw [hself] at hj'
        cases hj'
        exact absurd heq (hother j s h hj)
      · rw [subscription_set _ _ h'] at hj'
        exact hone j j' s s' hj hj' heq
  constructor
  · exact hone'
  · exact storeRow_of_row hone' hself
  · intro t ht j s hs
    by_cases hj : j = id
    · subst hj
      rw [hself]
      constructor
      · rintro ⟨⟩
        exact absurd hs.symm ht
      · intro hrow
        exact absurd (hs.symm.trans (hold s hrow)) ht
    · rw [subscription_set _ _ hj]
  · intro k hk
    exact Store.set_row_of_ne _ _ (hk id)

/-! ## Activating a plan -/

def Subscription.activated (sub : Subscription) (planId : Id) (period : PaidPeriod) :
    Subscription :=
  { sub with planId, status := .active, requestedPlanId := none
             requestedPaymentReference := none, expiryNoticesSent := []
             expiresAt := period.expiresAt, billingProvider := period.billingProvider
             stripeCustomerId := period.stripeCustomerId.getD sub.stripeCustomerId
             stripeSubscriptionId := period.stripeSubscriptionId
             cancelAtPeriodEnd := period.cancelAtPeriodEnd }

/-- The row of a store without one, for a paid period. -/
def newPaid (tenantId planId : Id) (period : PaidPeriod) (createdAt : Time) : Subscription :=
  { newSubscription tenantId planId period.expiresAt createdAt with
    billingProvider := period.billingProvider
    stripeCustomerId := period.stripeCustomerId.getD none
    stripeSubscriptionId := period.stripeSubscriptionId
    cancelAtPeriodEnd := period.cancelAtPeriodEnd }

/-- Which of the rows that a subscription names exist. -/
structure Named where
  tenant : Bool
  plan : Bool

def named (db : Database) (tenantId planId : Id) : Named where
  tenant := (db.row (.tenant tenantId)).isSome
  plan := (findPlan db planId).isSome

/-- The row of a store once a period is paid for; without a row one is created. -/
def activated (tenantId planId : Id) (period : PaidPeriod) (names : Named)
    (v : Option Subscription) : Option Subscription :=
  match v with
  | some sub => some (if names.plan then sub.activated planId period else sub)
  | none => if names.tenant && names.plan then some (newPaid tenantId planId period 0) else none

/-- A period of the plan can be written to the row of the store, or to a new one. -/
def Writable (db : Database) (tenantId planId : Id) : Prop :=
  (named db tenantId planId).plan = true ∧
    ((storeRow db tenantId).isSome = true ∨ (named db tenantId planId).tenant = true)

/-- No other store is billed by the Stripe subscription of the period. -/
def HeldBy (db : Database) (tenantId : Id) (period : PaidPeriod) : Prop :=
  ∀ t, (billedBy db t).isSome → billedBy db t = period.stripeSubscriptionId → t = tenantId

section Activate

variable {answer : Answers billing} {n : ℕ} {σ : Session billing} {inTx : Bool}
  {period : PaidPeriod}

theorem settle_achieves {Q : Unit → ℕ → Session billing → List Call → Prop}
    (hQ : ∀ σ', σ'.view = σ.view → Q () n σ' []) :
    (settle inTx).Achieves (S := billing) answer n σ Q := by
  cases inTx with
  | true => exact hQ σ rfl
  | false => exact hQ σ.commit rfl

theorem holders_of_heldBy (hone : OneEach db) (hheld : HeldBy db tenantId period)
    {stripeId : Id} (hperiod : period.stripeSubscriptionId = some stripeId) :
    ((Query.eval (.billedAs stripeId) db).any fun holder =>
      some holder != (Query.eval (.currentSubscription tenantId) db).map Current.id) = false := by
  rw [List.any_eq_false]
  intro holder hholder
  obtain ⟨c, hc, rfl⟩ := List.mem_map.1 hholder
  obtain ⟨hrow, hstripe⟩ := mem_subscriptionsWhere hc
  have hstripe' : c.subscription.stripeSubscriptionId = some stripeId := by simpa using hstripe
  have hbilled : billedBy db c.subscription.tenantId = some stripeId := by
    rw [billedBy, storeRow_of_row hone hrow]
    exact hstripe'
  have htenant := hheld _ (by rw [hbilled]; rfl) (hbilled.trans hperiod.symm)
  obtain ⟨plan, hcurrent⟩ := current_row hone hrow
  rw [← htenant, hcurrent]
  simp

theorem assertBilledOnce_achieves (hone : OneEach σ.view) (hheld : HeldBy σ.view tenantId period) :
    (assertBilledOnce period
      ((Query.eval (.currentSubscription tenantId) σ.view).map Current.id)).Achieves (S := billing)
      answer n σ fun _ n' σ' cs => n = n' ∧ σ = σ' ∧ cs = [] := by
  unfold assertBilledOnce
  split
  · exact ⟨rfl, rfl, rfl⟩
  · next hperiod =>
      refine achieves_ask ?_
      rw [throwIf, if_neg (by simp [holders_of_heldBy hone hheld hperiod])]
      exact ⟨rfl, rfl, rfl⟩

theorem assertBilledOnce_idle (billed : Option Id) :
    (assertBilledOnce period billed).Idle (S := billing) answer db := by
  unfold assertBilledOnce
  split
  · exact idle_ret ()
  · exact idle_ask idle_throwIf

/-- A paid period of a store that has a subscription, or can have one. -/
theorem activatePlan_achieves (hone : OneEach σ.view) (hheld : HeldBy σ.view tenantId period)
    (hfresh : ∀ m, σ.view.row (.subscription (answer m .uuid)) = none)
    (hmay : Writable σ.view tenantId planId) :
    (activatePlan inTx tenantId planId period).Achieves (S := billing) answer n σ fun _ _ σ' _ =>
      Wrote σ.view σ'.view tenantId (activated tenantId planId period
        (named σ.view tenantId planId) (storeRow σ.view tenantId)) := by
  obtain ⟨hplan, hmay⟩ := hmay
  have hplanned : (findPlan σ.view planId).isNone = false := Option.isNone_eq_false_iff.2 hplan
  refine achieves_ask ((assertBilledOnce_achieves hone hheld).seq fun _ n' σ' cs hsame => ?_)
  obtain ⟨rfl, rfl, rfl⟩ := hsame
  cases hcurrent : billing.eval (Query.currentSubscription tenantId) σ.view with
  | some c =>
      obtain ⟨hrow, htenant⟩ := current_some hcurrent
      have hhit : billing.guard (.activatePlan c.id planId period)
          (σ.view.row (.subscription c.id)) = true :=
        (congrArg Option.isSome hrow).trans rfl
      have hview : (σ.apply (.activatePlan c.id planId period)).view =
          σ.view.set (.subscription c.id) (some (c.subscription.activated planId period)) := by
        simp [applyUpdate, Update.key, Update.change, hrow, Subscription.activated]
      have hwrote := wrote_set c.id (c.subscription.activated planId period) hone
        (fun old hold => by
          rw [hrow] at hold
          cases hold
          rfl)
        (fun hnone => by
          rw [hrow] at hnone
          cases hnone)
      rw [storeRow_of_current hcurrent, activated, if_pos hplan]
      refine achieves_ask (achieves_check hplanned ?_)
      refine Achieves.seq (p := updateOne (.activatePlan c.id planId period))
        (Q := fun _ _ σ' _ => σ'.view = σ.view.set (.subscription c.id)
          (some (c.subscription.activated planId period)))
        (achieves_write hhit hview) fun _ n' σ₁ cs hσ₁ => ?_
      refine settle_achieves fun σ₂ hσ₂ => ?_
      rw [hσ₂, hσ₁, ← htenant]
      exact hwrote
  | none =>
      have hunsubscribed := current_none hcurrent
      have hnone := storeRow_eq_none.2 hunsubscribed
      have htenant : (named σ.view tenantId planId).tenant = true := by
        simpa [hnone] using hmay
      rw [hnone, activated, if_pos (by rw [htenant, hplan]; rfl)]
      have hunused := hfresh (n + 1)
      have hmiss : ((σ.view.row (.tenant tenantId)).isNone ||
          (findPlan σ.view planId).isNone) = false := by
        rw [hplanned, Bool.or_false]
        exact Option.isNone_eq_false_iff.2 htenant
      have hwrote := wrote_set (answer (n + 1) .uuid)
        (newPaid tenantId planId period (answer n .now)) hone
        (fun old hold => by
          rw [hunused] at hold
          cases hold)
        fun _ => hunsubscribed
      refine achieves_invoke (Achieves.seq
        (p := createSubscription (newPaid tenantId planId period (answer n .now)))
        (Q := fun _ _ σ' _ => σ'.view = σ.view.set (.subscription (answer (n + 1) .uuid))
          (some (newPaid tenantId planId period (answer n .now)))) ?_ ?_)
      · refine achieves_ask (achieves_ask (achieves_check hmiss (achieves_invoke ?_)))
        exact achieves_write ((congrArg Option.isNone hunused).trans rfl) rfl
      · intro _ n' σ₁ cs hσ₁
        refine settle_achieves fun σ₂ hσ₂ => ?_
        rw [hσ₂, hσ₁]
        exact hwrote

theorem activatePlan_idle (hnot : ¬ Writable db tenantId planId) :
    (activatePlan inTx tenantId planId period).Idle (S := billing) answer db := by
  refine idle_ask ((assertBilledOnce_idle _).seq fun _ _ _ => ?_)
  cases hcurrent : billing.eval (Query.currentSubscription tenantId) db with
  | some c =>
      refine idle_ask ?_
      refine idle_check fun hplan => ?_
      exact absurd ⟨Option.isNone_eq_false_iff.1 hplan, .inl (by simp [storeRow_of_current hcurrent])⟩
        hnot
  | none =>
      refine idle_invoke fun n => Idle.seq (p := createSubscription _) ?_ fun _ _ _ => ?_
      · refine idle_ask (idle_ask (idle_check fun hexists => ?_))
        simp only [Bool.or_eq_false_iff, Option.isNone_eq_false_iff] at hexists
        exact absurd ⟨hexists.2, .inr hexists.1⟩ hnot
      · cases inTx with
        | true => exact idle_ret ()
        | false => exact idle_finish (f := .ret) (idle_ret ())

theorem activated_of_not (hnot : ¬ Writable db tenantId planId) :
    activated tenantId planId period (named db tenantId planId) (storeRow db tenantId) =
      storeRow db tenantId := by
  cases hrow : storeRow db tenantId with
  | some sub =>
      have hplan : ¬ (named db tenantId planId).plan = true :=
        fun hplan => hnot ⟨hplan, .inl (by rw [hrow]; rfl)⟩
      rw [activated, if_neg hplan]
  | none =>
      refine if_neg fun hboth => ?_
      rw [Bool.and_eq_true] at hboth
      exact hnot ⟨hboth.2, .inr hboth.1⟩

theorem activatePlan_clash (hclash : ¬ HeldBy db tenantId period) :
    (activatePlan inTx tenantId planId period).Idle (S := billing) answer db := by
  simp only [HeldBy, not_forall] at hclash
  obtain ⟨t, hsome, hperiod, hne⟩ := hclash
  obtain ⟨stripeId, hbilled⟩ := Option.isSome_iff_exists.1 hsome
  rw [hbilled] at hperiod
  -- the row of the other store holds the subscription
  obtain ⟨s, hrow, hstripe⟩ := Option.bind_eq_some_iff.1 hbilled
  obtain ⟨holder, sub, hsub, htenant, rfl⟩ := exists_row_of_storeRow hrow
  have hholder : holder ∈ billing.eval (Query.billedAs stripeId) db := by
    have hstripe' : sub.stripeSubscriptionId = some stripeId := hstripe
    refine List.mem_map.2 ⟨⟨holder, sub, findPlan db sub.planId⟩, ?_, rfl⟩
    exact List.mem_filterMap.2 ⟨.subscription holder, db.mem_keys_of_row hsub, by
      simp [hsub, hstripe']⟩
  have hother : (some holder != (billing.eval (Query.currentSubscription tenantId) db).map
      Current.id) = true := by
    rw [bne_iff_ne]
    intro heq
    obtain ⟨c, hcurrent, hid⟩ := Option.map_eq_some_iff.1 heq.symm
    obtain ⟨hc, hct⟩ := current_some hcurrent
    rw [hid, hsub] at hc
    cases hc
    exact hne (htenant.symm.trans hct)
  refine idle_ask (Idle.seq (assertBilledOnce_idle _) fun _ n hok => ?_)
  exfalso
  have hany : ((billing.eval (Query.billedAs stripeId) db).any fun h : Id =>
      some h != (billing.eval (Query.currentSubscription tenantId) db).map Current.id) = true :=
    List.any_eq_true.2 ⟨holder, hholder, hother⟩
  have hthrown : ((assertBilledOnce period ((billing.eval (Query.currentSubscription tenantId)
      db).map Current.id)).exec (S := billing) answer n (.start db)).value =
        .error (.failure "Unique constraint failed") := by
    rw [assertBilledOnce, ← hperiod]
    exact congrArg (fun p : Prog billing Unit => (p.exec answer n (.start db)).value) (if_pos hany)
  cases hthrown.symm.trans hok

end Activate

/-! ## A Stripe subscription -/

/-- The store and the plan a subscription of a plan checkout pays for now. -/
def StripeSubscription.pays (x : StripeSubscription) : Option (Id × Id) :=
  if x.kind == some planCheckoutKind && x.paidUp then
    x.tenantId.bind fun t => x.planId.map fun p => (t, p)
  else none

def replaced (x : StripeSubscription) (billed : Option Id) : Option Id :=
  billed.filter fun id => id != x.id

/-- The row of a store after a payment of the subscription. -/
def applied (x : StripeSubscription) (tenantId planId : Id) (fromCheckout : Bool) (names : Named)
    (v : Option Subscription) : Option Subscription :=
  if (replaced x (v.bind Subscription.stripeSubscriptionId)).isNone || fromCheckout then
    activated tenantId planId x.period names v
  else v

theorem billedBy_of_replaced {billed : Option Id} {id : Id} (h : replaced x billed = some id) :
    billed = some id := (Option.filter_eq_some_iff.1 h).1

section Apply

variable {answer : Answers billing} {n : ℕ} {inTx fromCheckout : Bool} {x : StripeSubscription}

theorem billedBy_eq : billedBy db tenantId =
    (Query.eval (.currentSubscription tenantId) db).bind fun c =>
      c.subscription.stripeSubscriptionId := by
  rw [billedBy, storeRow]
  cases Query.eval (.currentSubscription tenantId) db <;> rfl

/-- What applying the subscription `x` does to the stores: the row of the store it pays
for is as `applied` says, and what it was billed by before is cancelled. Nothing is
written for a subscription that pays for no store, one that bills another store, and
one that may not replace the subscription the store has. -/
structure Applies (x : StripeSubscription) (fromCheckout : Bool) (db db' : Database)
    (cs : List Call) : Prop where
  same : (∀ t p, x.pays = some (t, p) → HeldBy db t x.period →
    ((replaced x (billedBy db t)).isNone || fromCheckout) = false) → db' = db
  wrote : ∀ t p, x.pays = some (t, p) → HeldBy db t x.period → Wrote db db' t
    (applied x t p fromCheckout (named db t p) (storeRow db t))
  cancelled : ∀ t p id, x.pays = some (t, p) → replaced x (billedBy db t) = some id →
    billedBy db' t ≠ some id → .cancel id ∈ cs

theorem applies_same {prog : Prog billing Unit} (hone : OneEach db)
    (hidle : prog.Idle (S := billing) answer db)
    (hsame : ∀ t p, x.pays = some (t, p) → HeldBy db t x.period →
      applied x t p fromCheckout (named db t p) (storeRow db t) = storeRow db t) :
    Applies x fromCheckout db (prog.exec answer n (.start db)).session.view
      (prog.asked answer n (.start db)) := by
  rw [hidle n]
  constructor
  · exact fun _ => rfl
  · intro t p hpays hheld
    rw [hsame t p hpays hheld]
    exact .same hone
  · intro t p id _ hreplaced hnot
    exact absurd (billedBy_of_replaced hreplaced) hnot

theorem applies_ask {q : Query} {k : q.Result → Prog billing Unit}
    (h : Applies x fromCheckout db ((k (q.eval db)).exec answer n (.start db)).session.view
      ((k (q.eval db)).asked answer n (.start db))) :
    Applies x fromCheckout db ((Prog.query (S := billing) q .ret >>= k).exec answer n
      (.start db)).session.view
      ((Prog.query (S := billing) q .ret >>= k).asked answer n (.start db)) := h

/-- The plan is activated, and what the store was billed by before is cancelled. -/
def replacePlan (inTx : Bool) (tenantId planId : Id) (x : StripeSubscription)
    (billed : Option Id) : Prog billing Unit := do
  activatePlan inTx tenantId planId x.period
  match replaced x billed with
  | none => .ret ()
  | some id => cancelStripeSubscription id

theorem replacePlan_applies {t p : Id} (hone : OneEach db) (hpays : x.pays = some (t, p))
    (hfresh : ∀ m, db.row (.subscription (answer m .uuid)) = none)
    (hmay : ((replaced x (billedBy db t)).isNone || fromCheckout) = true) :
    Applies x fromCheckout db
      ((replacePlan inTx t p x (billedBy db t)).exec (S := billing) answer n
        (.start db)).session.view
      ((replacePlan inTx t p x (billedBy db t)).asked (S := billing) answer n (.start db)) := by
  have hnames : ∀ t' p', x.pays = some (t', p') → t' = t ∧ p' = p := by
    intro t' p' h
    rw [hpays] at h
    cases h
    exact ⟨rfl, rfl⟩
  have happlied : applied x t p fromCheckout (named db t p) (storeRow db t) =
      activated t p x.period (named db t p) (storeRow db t) := if_pos hmay
  have hidle : (activatePlan inTx t p x.period).Idle (S := billing) answer db →
      (replacePlan inTx t p x (billedBy db t)).Idle (S := billing) answer db := by
    intro hactivate
    refine hactivate.seq fun _ _ _ => ?_
    cases replaced x (billedBy db t) with
    | none => exact idle_ret ()
    | some id => exact idle_invoke (f := .ret) fun _ => idle_ret ()
  by_cases hheld : HeldBy db t x.period
  · by_cases hexists : Writable db t p
    · have hdone : (replacePlan inTx t p x (billedBy db t)).Achieves (S := billing) answer n
          (.start db) fun _ _ σ' cs => Wrote db σ'.view t
            (activated t p x.period (named db t p) (storeRow db t)) ∧
            ∀ id, replaced x (billedBy db t) = some id → .cancel id ∈ cs := by
        refine (activatePlan_achieves (σ := .start db) hone hheld hfresh hexists).seq
          fun _ _ σ' cs hwrote => ?_
        cases hreplaced : replaced x (billedBy db t) with
        | none => exact ⟨hwrote, nofun⟩
        | some id => exact ⟨hwrote, by simp⟩
      obtain ⟨_, -, hwrote, hcancelled⟩ := hdone.run
      constructor
      · intro hskips
        rw [hskips t p hpays hheld] at hmay
        cases hmay
      · intro t' p' h _
        obtain ⟨rfl, rfl⟩ := hnames t' p' h
        rw [happlied]
        exact hwrote
      · intro t' p' id h hreplaced _
        obtain ⟨rfl, rfl⟩ := hnames t' p' h
        exact hcancelled id hreplaced
    · refine applies_same hone (hidle (activatePlan_idle hexists)) fun t' p' h _ => ?_
      obtain ⟨rfl, rfl⟩ := hnames t' p' h
      rw [happlied, activated_of_not hexists]
  · refine applies_same hone (hidle (activatePlan_clash hheld)) fun t' p' h hheld' => ?_
    obtain ⟨rfl, rfl⟩ := hnames t' p' h
    exact absurd hheld' hheld

theorem apply_applies (hone : OneEach db)
    (hfresh : ∀ m, db.row (.subscription (answer m .uuid)) = none) :
    Applies x fromCheckout db
      ((applyStripeSubscription inTx x fromCheckout).exec (S := billing) answer n
        (.start db)).session.view
      ((applyStripeSubscription inTx x fromCheckout).asked (S := billing) answer n (.start db)) := by
  have hignored : ∀ prog : Prog billing Unit, prog = .ret () → x.pays = none →
      Applies x fromCheckout db (prog.exec answer n (.start db)).session.view
        (prog.asked answer n (.start db)) := by
    rintro _ rfl hpays
    refine applies_same hone (idle_ret ()) fun t p h _ => ?_
    rw [hpays] at h
    cases h
  unfold applyStripeSubscription
  split
  · next t p ht hp =>
      by_cases hgate : (x.kind == some planCheckoutKind && x.paidUp) = true
      · have hpays : x.pays = some (t, p) := by simp [StripeSubscription.pays, hgate, ht, hp]
        rw [hgate, runIf, if_pos rfl]
        refine applies_ask ?_
        have hbilled : ((billing.eval (Query.currentSubscription t) db).bind fun c : Current =>
            c.subscription.stripeSubscriptionId) = billedBy db t := billedBy_eq.symm
        simp only [hbilled]
        by_cases hmay : ((replaced x (billedBy db t)).isNone || fromCheckout) = true
        · rw [runIf, if_pos (by exact hmay)]
          exact replacePlan_applies hone hpays hfresh hmay
        · rw [runIf, if_neg (by exact hmay)]
          refine applies_same hone (idle_ret ()) fun t' p' h _ => ?_
          rw [hpays] at h
          cases h
          exact if_neg hmay
      · refine hignored _ ?_ ?_
        · simp [runIf, hgate]
        · simp [StripeSubscription.pays, hgate]
  · next hnames =>
      refine hignored _ rfl ?_
      rw [StripeSubscription.pays]
      split
      · cases ht : x.tenantId with
        | none => rfl
        | some t =>
            cases hp : x.planId with
            | none => rfl
            | some p => exact absurd hp (hnames t p ht)
      · rfl

end Apply

/-! ## The events that tell of a payment -/

def CheckoutSession.completes (session : CheckoutSession) : Bool :=
  session.kind == some planCheckoutKind && session.paymentStatus != "unpaid"

/-- The subscription an event applies as Stripe answers, and whether a checkout does. -/
def shownBy (answer : Answers billing) : StripeEvent → Option (StripeSubscription × Bool)
  | .checkoutCompleted session =>
      if answer 0 .cardBillingEnabled && answer 1 .cardBillingEnabled && session.completes then
        (session.subscription.bind fun id => answer 2 (.retrieve id)).map fun x => (x, true)
      else none
  | .invoicePaid subscription =>
      if answer 0 .cardBillingEnabled && answer 1 .cardBillingEnabled then
        (subscription.bind fun id => answer 2 (.retrieve id)).map fun x => (x, false)
      else none
  | _ => none

def PaidEvent (stripeId : Id) (e : StripeEvent) : Prop :=
  e = .invoicePaid (some stripeId) ∨
    ∃ session, e = .checkoutCompleted session ∧ session.mode = "subscription" ∧
      session.subscription = some stripeId

section Serve

variable {answer : Answers billing} {inTx fromCheckout : Bool} {stripeId : Id} {e : StripeEvent}
  {x : StripeSubscription} {n : ℕ}

theorem applies_invoke {c : Call} {k : c.Answer → Prog billing Unit}
    (h : Applies x fromCheckout db ((k (answer n c)).exec answer (n + 1) (.start db)).session.view
      ((k (answer n c)).asked answer (n + 1) (.start db))) :
    Applies x fromCheckout db ((Prog.call (S := billing) c .ret >>= k).exec answer n
      (.start db)).session.view
      ((Prog.call (S := billing) c .ret >>= k).asked answer n (.start db)) where
  same := h.same
  wrote := h.wrote
  cancelled t p id hpays hreplaced hnot :=
    List.mem_cons_of_mem _ (h.cancelled t p id hpays hreplaced hnot)

theorem applies_requireStripe {p : Prog billing Unit} (hopen : answer n .cardBillingEnabled = true)
    (h : Applies x fromCheckout db (p.exec answer (n + 1) (.start db)).session.view
      (p.asked answer (n + 1) (.start db))) :
    Applies x fromCheckout db ((requireStripe >>= fun _ => p).exec (S := billing) answer n
      (.start db)).session.view
      ((requireStripe >>= fun _ => p).asked (S := billing) answer n (.start db)) := by
  simp only [requireStripe, bind_eq, Prog.bind_assoc]
  refine applies_invoke ?_
  rw [hopen]
  exact h

theorem applies_retrieve {y : StripeSubscription} {k : StripeSubscription → Prog billing Unit}
    (hopen : answer n .cardBillingEnabled = true)
    (hfound : answer (n + 1) (.retrieve stripeId) = some y)
    (h : Applies x fromCheckout db ((k y).exec answer (n + 2) (.start db)).session.view
      ((k y).asked answer (n + 2) (.start db))) :
    Applies x fromCheckout db ((retrieve stripeId >>= k).exec (S := billing) answer n
      (.start db)).session.view
      ((retrieve stripeId >>= k).asked (S := billing) answer n (.start db)) := by
  simp only [retrieve, bind_eq, Prog.bind_assoc]
  refine applies_requireStripe hopen (applies_invoke ?_)
  rw [hfound]
  exact h

theorem event_applies (inTx : Bool) (hevent : PaidEvent stripeId e)
    (hshown : shownBy answer e = some (x, fromCheckout)) (hone : OneEach db)
    (hfresh : ∀ m, db.row (.subscription (answer m .uuid)) = none) :
    Applies x fromCheckout db (serve answer (handler (.stripeWebhook inTx (some e))) db)
      (requested answer (handler (.stripeWebhook inTx (some e))) db) := by
  rcases hevent with rfl | ⟨session, rfl, hmode, hsubscription⟩
  · simp only [shownBy, Option.bind_some] at hshown
    split at hshown
    · next hopen =>
        simp only [Bool.and_eq_true] at hopen
        obtain ⟨y, hfound, heq⟩ := Option.map_eq_some_iff.1 hshown
        cases heq
        exact applies_requireStripe (p := onInvoicePaid inTx (some stripeId)) hopen.1
          (applies_retrieve hopen.2 hfound (apply_applies hone hfresh))
    · cases hshown
  · simp only [shownBy, hsubscription, Option.bind_some] at hshown
    split at hshown
    · next hopen =>
        simp only [Bool.and_eq_true] at hopen
        obtain ⟨y, hfound, heq⟩ := Option.map_eq_some_iff.1 hshown
        cases heq
        refine applies_requireStripe (p := onCheckoutCompleted inTx session) hopen.1.1 ?_
        have hcompletes : ¬ (session.kind != some planCheckoutKind ||
            session.paymentStatus == "unpaid") = true := by
          have := hopen.2
          simp only [CheckoutSession.completes, Bool.and_eq_true, beq_iff_eq, bne_iff_ne] at this
          simp [this.1, this.2]
        rw [onCheckoutCompleted, if_neg hcompletes, if_pos (by simp [hmode]), hsubscription]
        exact applies_retrieve hopen.1.2 hfound (apply_applies hone hfresh)
    · cases hshown

theorem requireStripe_open (p : Prog billing Unit) (db : Database)
    (hopen : answer n .cardBillingEnabled = true) :
    (requireStripe >>= fun _ => p).exec (S := billing) answer n (.start db) =
      p.exec answer (n + 1) (.start db) := by
  simp only [requireStripe, bind_eq, Prog.bind, exec, hopen]
  rfl

theorem requireStripe_closed (p : Prog billing Unit) (db : Database)
    (h : answer n .cardBillingEnabled = true →
      (p.exec (S := billing) answer (n + 1) (.start db)).session = .start db) :
    ((requireStripe >>= fun _ => p).exec (S := billing) answer n (.start db)).session =
      .start db := by
  simp only [requireStripe, bind_eq, Prog.bind, exec]
  cases hopen : answer n .cardBillingEnabled with
  | true => exact h hopen
  | false => rfl

theorem retrieve_closed {k : StripeSubscription → Prog billing Unit}
    (h : answer n .cardBillingEnabled = true → answer (n + 1) (.retrieve stripeId) = none) :
    ((retrieve stripeId >>= k).exec (S := billing) answer n (.start db)).session = .start db := by
  simp only [retrieve, bind_eq, Prog.bind_assoc]
  refine requireStripe_closed _ db fun hopen => ?_
  simp only [Prog.bind, exec, h hopen]
  rfl

theorem event_ignored (inTx : Bool) (db : Database) (hevent : PaidEvent stripeId e)
    (hshown : shownBy answer e = none) :
    serve answer (handler (.stripeWebhook inTx (some e))) db = db := by
  have hclosed : ∀ p : Prog billing Unit, handler (.stripeWebhook inTx (some e)) =
      (requireStripe >>= fun _ => p) → (answer 0 .cardBillingEnabled = true →
        (p.exec (S := billing) answer 1 (.start db)).session = .start db) →
          serve answer (handler (.stripeWebhook inTx (some e))) db = db := by
    intro p heq hp
    rw [serve, heq, requireStripe_closed p db hp]
    rfl
  rcases hevent with rfl | ⟨session, rfl, hmode, hsubscription⟩
  · refine hclosed (onInvoicePaid inTx (some stripeId)) rfl fun hopen => ?_
    refine retrieve_closed fun hopen' => ?_
    simpa [shownBy, hopen, hopen'] using hshown
  · refine hclosed (onCheckoutCompleted inTx session) rfl fun hopen => ?_
    rw [onCheckoutCompleted]
    split
    · rfl
    · next hcompletes =>
        have hpaid : session.completes = true := by
          simpa [CheckoutSession.completes] using hcompletes
        rw [if_pos (by simp [hmode]), hsubscription]
        refine retrieve_closed fun hopen' => ?_
        simpa [shownBy, hopen, hopen', hpaid, hsubscription] using hshown

theorem retrieve_open {k : StripeSubscription → Prog billing Unit}
    (hopen : answer n .cardBillingEnabled = true)
    (hfound : answer (n + 1) (.retrieve stripeId) = some x) :
    (retrieve stripeId >>= k).exec (S := billing) answer n (.start db) =
      (k x).exec answer (n + 2) (.start db) := by
  simp only [retrieve, bind_eq, Prog.bind_assoc]
  refine (requireStripe_open _ db hopen).trans ?_
  simp only [Prog.bind, exec, hfound]
  rfl

theorem event_shown (hevent : PaidEvent stripeId e)
    (hshown : shownBy answer e = some (x, fromCheckout)) :
    serve answer (handler (.stripeWebhook inTx (some e))) db =
      ((applyStripeSubscription inTx x fromCheckout).exec (S := billing) answer 3
        (.start db)).session.view := by
  rcases hevent with rfl | ⟨session, rfl, hmode, hsubscription⟩
  · simp only [shownBy, Option.bind_some] at hshown
    split at hshown
    · next hopen =>
        simp only [Bool.and_eq_true] at hopen
        obtain ⟨y, hfound, heq⟩ := Option.map_eq_some_iff.1 hshown
        cases heq
        have hserve := (requireStripe_open (onInvoicePaid inTx (some stripeId)) db hopen.1).trans
          (retrieve_open hopen.2 hfound)
        exact congrArg (fun ending => ending.session.view) hserve
    · cases hshown
  · simp only [shownBy, hsubscription, Option.bind_some] at hshown
    split at hshown
    · next hopen =>
        simp only [Bool.and_eq_true] at hopen
        obtain ⟨y, hfound, heq⟩ := Option.map_eq_some_iff.1 hshown
        cases heq
        have hcompletes : ¬ (session.kind != some planCheckoutKind ||
            session.paymentStatus == "unpaid") = true := by
          have := hopen.2
          simp only [CheckoutSession.completes, Bool.and_eq_true, beq_iff_eq, bne_iff_ne] at this
          simp [this.1, this.2]
        have hcheckout : onCheckoutCompleted inTx session = retrieve stripeId >>= fun x =>
            applyStripeSubscription inTx x true := by
          rw [onCheckoutCompleted, if_neg hcompletes, if_pos (by simp [hmode]), hsubscription]
        have hserve := requireStripe_open (onCheckoutCompleted inTx session) db hopen.1.1
        rw [hcheckout] at hserve
        refine congrArg (fun ending => ending.session.view) (Eq.trans ?_
          (hserve.trans (retrieve_open hopen.1.2 hfound)))
        rw [← hcheckout]
        rfl
    · cases hshown

/-- What the payments and the mirrored changes of an event keep, the event keeps. -/
theorem event_keeps {A : Allowed} {I : Database → Prop} (hdb : I db)
    (hanswer : ∀ n c, A c (answer n c))
    (hsubscription : ∀ {stripeId x fromCheckout}, PaidEvent stripeId e →
      shownBy answer e = some (x, fromCheckout) →
        KeepsUnder A I (applyStripeSubscription inTx x fromCheckout) (.start db) fun _ _ => True)
    (hlifetime : ∀ {session}, e = .checkoutCompleted session → session.mode ≠ "subscription" →
      KeepsUnder A I (onCheckoutCompleted inTx session) (.start db) fun _ _ => True)
    (hmirror : ∀ id stripeId cancel v, I v →
      billing.guard (.mirrorCancel id stripeId cancel) (v.row (.subscription id)) = true →
        I (applyUpdate (S := billing) (.mirrorCancel id stripeId cancel) v))
    (hend : ∀ id stripeId v, I v →
      billing.guard (.endBilling id stripeId) (v.row (.subscription id)) = true →
        I (applyUpdate (S := billing) (.endBilling id stripeId) v)) :
    I (serve answer (handler (.stripeWebhook inTx (some e))) db) := by
  have hstart : Holds I (.start db) := ⟨hdb, hdb⟩
  have hpaid : ∀ {stripeId}, PaidEvent stripeId e →
      I (serve answer (handler (.stripeWebhook inTx (some e))) db) := by
    intro stripeId hevent
    cases hshown : shownBy answer e with
    | none =>
        rw [event_ignored inTx db hevent hshown]
        exact hdb
    | some shown =>
        rw [event_shown hevent hshown]
        exact ((hsubscription hevent hshown).of_exec hstart hanswer).view
  have hkept : KeepsUnder A I (handler (.stripeWebhook inTx (some e))) (.start db)
      (fun _ _ => True) → I (serve answer (handler (.stripeWebhook inTx (some e))) db) :=
    fun h => h.serve hdb hanswer
  cases e with
  | checkoutCompleted session =>
      by_cases hmode : session.mode = "subscription"
      · cases hsession : session.subscription with
        | some stripeId => exact hpaid (.inr ⟨session, rfl, hmode, hsession⟩)
        | none =>
            refine hkept (keeps_requireStripe ?_)
            show KeepsUnder A I (onCheckoutCompleted inTx session) _ _
            unfold onCheckoutCompleted
            split
            · exact trivial
            · rw [if_pos (by simp [hmode]), hsession]
              exact trivial
      · exact hkept (keeps_requireStripe (hlifetime rfl hmode))
  | invoicePaid subscription =>
      cases subscription with
      | some stripeId => exact hpaid (.inl rfl)
      | none => exact hkept (keeps_requireStripe trivial)
  | subscriptionUpdated subscription =>
      exact hkept (keeps_requireStripe (keeps_updateBilled hstart _ fun id v => hmirror id _ _ v))
  | subscriptionDeleted subscription =>
      exact hkept (keeps_requireStripe (keeps_updateBilled hstart _ fun id v => hend id _ v))
  | other => exact hkept (keeps_requireStripe trivial)

end Serve

end WhatStore.Billing
