import WhatStore.Billing.Effects

/-!
# The events of one Stripe subscription

Stripe tells of a new subscription twice, by the completed checkout and by its
first paid invoice, in any order and any number of times. Both are handled by
`applyStripeSubscription`, which reads the subscription as Stripe has it. A paid
period written twice is written once, and an invoice only differs from a
checkout in that it does not replace another subscription; so once a paid
checkout is among the events, the store's row is the one the checkout alone
would have left.
-/

namespace WhatStore.Billing

open ReadCommitted ReadCommitted.Prog

variable {db db' : Database}

/-! ## Events -/

structure Provider where
  enabled : Bool
  found : Id → Option StripeSubscription
  found_id : ∀ id x, found id = some x → x.id = id

def Provider.Agrees (provider : Provider) (answer : Answers billing) : Prop :=
  ∀ n, answer n .cardBillingEnabled = provider.enabled ∧
    ∀ id, answer n (.retrieve id) = provider.found id

/-- The subscription an event applies, and whether a checkout does. -/
def Provider.shown (provider : Provider) : StripeEvent → Option (StripeSubscription × Bool)
  | .checkoutCompleted session =>
      if provider.enabled && session.completes then
        (session.subscription.bind provider.found).map fun x => (x, true)
      else none
  | .invoicePaid subscription =>
      if provider.enabled then (subscription.bind provider.found).map fun x => (x, false) else none
  | _ => none

theorem Provider.shownBy_eq {provider : Provider} {answer : Answers billing} {e : StripeEvent}
    (hagrees : provider.Agrees answer) : shownBy answer e = provider.shown e := by
  have hopen : ∀ n, answer n .cardBillingEnabled = provider.enabled := fun n => (hagrees n).1
  have hfound : (fun id => answer 2 (.retrieve id)) = provider.found := funext (hagrees 2).2
  cases e with
  | checkoutCompleted session => simp only [shownBy, Provider.shown, hopen, hfound, Bool.and_self]
  | invoicePaid subscription => simp only [shownBy, Provider.shown, hopen, hfound, Bool.and_self]
  | _ => rfl

/-! ## Any order, any number of times -/

/-- The events are handled one after the other, while Stripe stays as it is and fresh
ids are drawn. `cs` are the calls made. -/
inductive Processes (provider : Provider) : Database → List StripeEvent → Database →
    List Call → Prop
  | nil (db : Database) : Processes provider db [] db []
  | cons {db db' : Database} {es : List StripeEvent} {cs : List Call} (inTx : Bool)
      (answer : Answers billing) (e : StripeEvent) (hagrees : provider.Agrees answer)
      (hfresh : ∀ m, db.row (.subscription (answer m .uuid)) = none)
      (hrest : Processes provider (serve answer (handler (.stripeWebhook inTx (some e))) db)
        es db' cs) :
      Processes provider db (e :: es) db'
        (requested answer (handler (.stripeWebhook inTx (some e))) db ++ cs)

section Idempotent

variable {x : StripeSubscription} {t p : Id} {names : Named}

theorem activated_missing {period : PaidPeriod} (hplan : names.plan = false)
    (v : Option Subscription) : activated t p period names v = v := by
  cases v <;> simp [activated, hplan]

theorem activated_activated (period : PaidPeriod) (v : Option Subscription) :
    activated t p period names (activated t p period names v) = activated t p period names v := by
  cases hplan : names.plan with
  | false => rw [activated_missing hplan, activated_missing hplan]
  | true =>
      cases v with
      | some sub =>
          cases h : period.stripeCustomerId <;> simp [activated, Subscription.activated, hplan, h]
      | none =>
          cases htenant : names.tenant with
          | true =>
              cases h : period.stripeCustomerId <;>
                simp [activated, Subscription.activated, newPaid, newSubscription, hplan, htenant, h]
          | false => simp [activated, htenant]

/-- A store that was just paid for by the subscription is billed by no other. -/
theorem replaced_activated (hplan : names.plan = true) (v : Option Subscription) :
    replaced x ((activated t p x.period names v).bind Subscription.stripeSubscriptionId) =
      none := by
  cases v with
  | some sub => simp [activated, Subscription.activated, replaced, StripeSubscription.period, hplan]
  | none =>
      cases htenant : names.tenant with
      | true => simp [activated, newPaid, replaced, StripeSubscription.period, hplan, htenant]
      | false => simp [activated, replaced, htenant]

theorem applied_activated (fromCheckout : Bool) (v : Option Subscription) :
    applied x t p fromCheckout names (activated t p x.period names v) =
      activated t p x.period names v := by
  cases hplan : names.plan with
  | false =>
      rw [applied, activated_missing hplan, activated_missing hplan]
      exact ite_self v
  | true =>
      rw [applied, replaced_activated hplan, activated_activated]
      rfl

theorem applied_checkout (v : Option Subscription) :
    applied x t p true names v = activated t p x.period names v := if_pos (by simp)

/-- A payment of the subscription after its checkout changes nothing. -/
theorem applied_after_checkout (fromCheckout : Bool) (v : Option Subscription) :
    applied x t p fromCheckout names (applied x t p true names v) = applied x t p true names v := by
  rw [applied_checkout, applied_activated]

/-- A payment of the subscription before its checkout makes no difference. -/
theorem checkout_applied (fromCheckout : Bool) (v : Option Subscription) :
    applied x t p true names (applied x t p fromCheckout names v) = applied x t p true names v := by
  rw [applied_checkout, applied_checkout, applied]
  split
  · exact activated_activated x.period v
  · rfl

theorem applied_applied (fromCheckout : Bool) (v : Option Subscription) :
    applied x t p fromCheckout names (applied x t p fromCheckout names v) =
      applied x t p fromCheckout names v := by
  by_cases h : ((replaced x (v.bind Subscription.stripeSubscriptionId)).isNone ||
      fromCheckout) = true
  · have hactivated : applied x t p fromCheckout names v = activated t p x.period names v := if_pos h
    rw [hactivated, applied_activated]
  · have hkept : applied x t p fromCheckout names v = v := if_neg h
    rw [hkept, hkept]

/-- What an event does to the row of the store its subscription pays for. -/
def Provider.effect (provider : Provider) (t p : Id) (names : Named)
    (v : Option Subscription) (e : StripeEvent) : Option Subscription :=
  match provider.shown e with
  | none => v
  | some (x, fromCheckout) => applied x t p fromCheckout names v

variable {provider : Provider} {stripeId : Id} {es : List StripeEvent} {cs : List Call}

theorem shown_eq {e : StripeEvent} {y : StripeSubscription} {fromCheckout : Bool}
    (hevent : PaidEvent stripeId e) (hshown : provider.shown e = some (y, fromCheckout)) :
    provider.found stripeId = some y := by
  rcases hevent with rfl | ⟨session, rfl, -, hsubscription⟩
  · simp only [Provider.shown, Option.bind_some] at hshown
    split at hshown
    · obtain ⟨z, hfound, heq⟩ := Option.map_eq_some_iff.1 hshown
      cases heq
      exact hfound
    · cases hshown
  · simp only [Provider.shown, hsubscription, Option.bind_some] at hshown
    split at hshown
    · obtain ⟨z, hfound, heq⟩ := Option.map_eq_some_iff.1 hshown
      cases heq
      exact hfound
    · cases hshown

/-- What a run of the events of a paid subscription does to the stores: each event has
its effect on the row of the store, and what billed the store before is cancelled. -/
structure Leaves (provider : Provider) (x : StripeSubscription) (t p : Id) (db : Database)
    (es : List StripeEvent) (db' : Database) (cs : List Call) : Prop where
  row : storeRow db' t =
    es.foldl (provider.effect t p (named db t p)) (storeRow db t)
  others : ∀ t', t' ≠ t → storeRow db' t' = storeRow db t'
  cancelled : ∀ id, replaced x (billedBy db t) = some id → billedBy db' t ≠ some id →
    .cancel id ∈ cs

theorem HeldBy.wrote {period : PaidPeriod} {v : Option Subscription}
    (hheld : HeldBy db t period) (hone : OneEach db) (hwrote : Wrote db db' t v) :
    HeldBy db' t period := by
  intro t' hsome heq
  by_contra hne
  rw [(hwrote.others t' hne).billedBy_eq hone hwrote.one] at hsome heq
  exact hne (hheld t' hsome heq)

theorem named_wrote {v : Option Subscription} (hwrote : Wrote db db' t v) :
    named db' t p = named db t p := by
  have htenant := hwrote.rest (.tenant t) (by simp)
  have hplan := hwrote.rest (.plan p) (by simp)
  simp only [named, findPlan, htenant, hplan]

theorem processes_leaves (hfound : provider.found stripeId = some x)
    (hpays : x.pays = some (t, p)) (hprocesses : Processes provider db es db' cs)
    (hes : ∀ e ∈ es, PaidEvent stripeId e) (hone : OneEach db) (hheld : HeldBy db t x.period) :
    Leaves provider x t p db es db' cs := by
  induction hprocesses with
  | nil db => exact ⟨rfl, fun _ _ => rfl, fun id hreplaced hnot =>
      absurd (billedBy_of_replaced hreplaced) hnot⟩
  | @cons db db' es cs inTx answer e hagrees hfresh hrest ih =>
      have hevent := hes e List.mem_cons_self
      cases hshown : provider.shown e with
      | none =>
          have hsame := event_ignored inTx db hevent
            ((Provider.shownBy_eq hagrees).trans hshown)
          rw [hsame] at ih
          have hleaves := ih (fun e he => hes e (List.mem_cons_of_mem _ he)) hone hheld
          refine ⟨?_, hleaves.others, fun id hreplaced hnot =>
            List.mem_append_right _ (hleaves.cancelled id hreplaced hnot)⟩
          rw [hleaves.row, List.foldl_cons, Provider.effect, hshown]
      | some shown =>
          obtain ⟨y, fromCheckout⟩ := shown
          obtain rfl : x = y := Option.some.inj (hfound.symm.trans (shown_eq hevent hshown))
          have happlies := event_applies inTx hevent
            ((Provider.shownBy_eq hagrees).trans hshown) hone hfresh
          have hwrote := happlies.wrote t p hpays hheld
          have hleaves := ih (fun e he => hes e (List.mem_cons_of_mem _ he)) hwrote.one
            (hheld.wrote hone hwrote)
          refine ⟨?_, fun t' ht' => (hleaves.others t' ht').trans
            ((hwrote.others t' ht').storeRow_eq hone hwrote.one), ?_⟩
          · rw [hleaves.row, hwrote.row, named_wrote hwrote, List.foldl_cons, Provider.effect,
              hshown]
          · intro id hreplaced hnot
            by_cases hmid : billedBy (serve answer (handler (.stripeWebhook inTx (some e))) db) t =
                some id
            · refine List.mem_append_right _ (hleaves.cancelled id ?_ hnot)
              rw [billedBy_of_replaced hreplaced] at hreplaced
              rw [hmid, hreplaced]
            · exact List.mem_append_left _ (happlies.cancelled t p id hpays hreplaced hmid)

theorem processes_same (hnone : ∀ x, provider.found stripeId = some x → x.pays = none)
    (hprocesses : Processes provider db es db' cs) (hes : ∀ e ∈ es, PaidEvent stripeId e)
    (hone : OneEach db) : db' = db := by
  induction hprocesses with
  | nil db => rfl
  | @cons db db' es cs inTx answer e hagrees hfresh hrest ih =>
      have hevent := hes e List.mem_cons_self
      have hsame : serve answer (handler (.stripeWebhook inTx (some e))) db = db := by
        cases hshown : provider.shown e with
        | none => exact event_ignored _ _ hevent ((Provider.shownBy_eq hagrees).trans hshown)
        | some shown =>
            obtain ⟨y, fromCheckout⟩ := shown
            have hpays := hnone y (shown_eq hevent hshown)
            refine (event_applies inTx hevent ((Provider.shownBy_eq hagrees).trans hshown)
              hone hfresh).same fun t' p' h => ?_
            rw [hpays] at h
            cases h
      rw [hsame] at ih
      exact ih (fun e he => hes e (List.mem_cons_of_mem _ he)) hone

/-- Steps that one step absorbs, before and after it, leave what that step alone
leaves. -/
theorem foldl_absorbed {α β : Type} {f : β → α → β} {g : β → β} {a : α} {as : List α}
    (hstep : ∀ v, f v a = g v) (hbefore : ∀ b ∈ as, ∀ v, g (f v b) = g v)
    (hafter : ∀ b ∈ as, ∀ v, f (g v) b = g v) (hmem : a ∈ as) (v : β) :
    as.foldl f v = g v := by
  have hstays : ∀ (bs : List α), (∀ b ∈ bs, ∀ v, f (g v) b = g v) → ∀ v, bs.foldl f (g v) = g v := by
    intro bs hbs
    induction bs with
    | nil => exact fun _ => rfl
    | cons b bs ih =>
        intro v
        rw [List.foldl_cons, hbs b List.mem_cons_self]
        exact ih (fun b hb => hbs b (List.mem_cons_of_mem _ hb)) v
  induction as generalizing v with
  | nil => cases hmem
  | cons b as ih =>
      have hafter' := fun b hb => hafter b (List.mem_cons_of_mem _ hb)
      rw [List.foldl_cons]
      rcases List.mem_cons.1 hmem with rfl | hmem
      · rw [hstep]
        exact hstays as hafter' v
      · rw [ih (fun b hb => hbefore b (List.mem_cons_of_mem _ hb)) hafter' hmem]
        exact hbefore b List.mem_cons_self v

def EventOf (session : CheckoutSession) (stripeId : Id) (e : StripeEvent) : Prop :=
  e = .checkoutCompleted session ∨ e = .invoicePaid (some stripeId)

variable {session : CheckoutSession}

theorem EventOf.paid {e : StripeEvent} (h : EventOf session stripeId e)
    (hmode : session.mode = "subscription") (hsubscription : session.subscription = some stripeId) :
    PaidEvent stripeId e := by
  rcases h with rfl | rfl
  · exact .inr ⟨session, rfl, hmode, hsubscription⟩
  · exact .inl rfl

/-- The row of the store after the events: as a paid checkout leaves it, or else as an
invoice does, if there was one. -/
def Provider.outcome (provider : Provider) (session : CheckoutSession) (x : StripeSubscription)
    (t p : Id) (names : Named) (invoiced : Bool) (v : Option Subscription) : Option Subscription :=
  if !provider.enabled then v
  else if session.completes then applied x t p true names v
  else if invoiced then applied x t p false names v
  else v

theorem effect_invoicePaid (hfound : provider.found stripeId = some x) (v : Option Subscription) :
    provider.effect t p names v (.invoicePaid (some stripeId)) =
      if provider.enabled then applied x t p false names v else v := by
  cases henabled : provider.enabled <;>
    simp [Provider.effect, Provider.shown, henabled, hfound]

theorem effect_checkoutCompleted (hfound : provider.found stripeId = some x)
    (hsubscription : session.subscription = some stripeId) (v : Option Subscription) :
    provider.effect t p names v (.checkoutCompleted session) =
      if provider.enabled && session.completes then applied x t p true names v else v := by
  cases henabled : provider.enabled <;> cases hcompletes : session.completes <;>
    simp [Provider.effect, Provider.shown, henabled, hcompletes, hsubscription, hfound]

theorem foldl_effect (hfound : provider.found stripeId = some x)
    (hsubscription : session.subscription = some stripeId)
    (hes : ∀ e ∈ es, EventOf session stripeId e) (hmem : .checkoutCompleted session ∈ es)
    (invoiced : Bool) (hinvoiced : invoiced = true ↔ .invoicePaid (some stripeId) ∈ es)
    (v : Option Subscription) :
    es.foldl (provider.effect t p names) v =
      provider.outcome session x t p names invoiced v := by
  have hinvoice : ∀ v, provider.effect t p names v (.invoicePaid (some stripeId)) = _ :=
    effect_invoicePaid hfound
  have hcheckout : ∀ v, provider.effect t p names v (.checkoutCompleted session) = _ :=
    effect_checkoutCompleted hfound hsubscription
  cases henabled : provider.enabled with
  | false =>
      simp only [henabled, Bool.false_and, Bool.false_eq_true, if_false] at hinvoice hcheckout
      rw [foldl_absorbed (g := id) hcheckout (fun e he => ?_) (fun e he => ?_) hmem]
      · simp [Provider.outcome, henabled]
      all_goals
        rcases hes e he with rfl | rfl
        · exact hcheckout
        · exact hinvoice
  | true =>
      simp only [henabled, Bool.true_and, if_true] at hinvoice hcheckout
      cases hcompletes : session.completes with
      | true =>
          simp only [hcompletes, if_true] at hcheckout
          rw [foldl_absorbed hcheckout (fun e he => ?_) (fun e he => ?_) hmem]
          · simp [Provider.outcome, henabled, hcompletes]
          · rcases hes e he with rfl | rfl <;> intro v
            · rw [hcheckout]
              exact checkout_applied true v
            · rw [hinvoice]
              exact checkout_applied false v
          · rcases hes e he with rfl | rfl <;> intro v
            · rw [hcheckout]
              exact applied_after_checkout true v
            · rw [hinvoice]
              exact applied_after_checkout false v
      | false =>
          simp only [hcompletes, Bool.false_eq_true, if_false] at hcheckout
          cases invoiced with
          | true =>
              rw [foldl_absorbed hinvoice (fun e he => ?_) (fun e he => ?_) (hinvoiced.1 rfl)]
              · simp [Provider.outcome, henabled, hcompletes]
              all_goals
                rcases hes e he with rfl | rfl <;> intro v
                · rw [hcheckout]
                · rw [hinvoice]
                  exact applied_applied false v
          | false =>
              have hnone : .invoicePaid (some stripeId) ∉ es := fun hmem => by
                simpa using hinvoiced.2 hmem
              rw [foldl_absorbed (g := id) hcheckout (fun e he => ?_) (fun e he => ?_) hmem]
              · simp [Provider.outcome, henabled, hcompletes]
              all_goals
                rcases hes e he with rfl | rfl
                · exact hcheckout
                · exact absurd he hnone

/-- **The events of a Stripe subscription agree in any order**: two sequences of its
checkout and its invoices, of any length, that both have the checkout leave every store
with the same row. This holds when the checkout is a paid one of a plan, or when both
have an invoice or neither. What the subscription replaces is cancelled. -/
theorem events_agree {db₁ db₂ : Database} {es₁ es₂ : List StripeEvent} {cs₁ cs₂ : List Call}
    (hone : OneEach db) (hnew : ∀ t, billedBy db t ≠ some stripeId)
    (hmode : session.mode = "subscription") (hsubscription : session.subscription = some stripeId)
    (hes₁ : ∀ e ∈ es₁, EventOf session stripeId e) (hmem₁ : .checkoutCompleted session ∈ es₁)
    (hes₂ : ∀ e ∈ es₂, EventOf session stripeId e) (hmem₂ : .checkoutCompleted session ∈ es₂)
    (hpaid : session.completes = true ∨
      (.invoicePaid (some stripeId) ∈ es₁ ↔ .invoicePaid (some stripeId) ∈ es₂))
    (hprocesses₁ : Processes provider db es₁ db₁ cs₁)
    (hprocesses₂ : Processes provider db es₂ db₂ cs₂) :
    (∀ t, storeRow db₁ t = storeRow db₂ t) ∧
      ∀ t id, billedBy db t = some id → billedBy db₁ t ≠ some id → .cancel id ∈ cs₁ := by
  have hpaid₁ := fun e he => (hes₁ e he).paid hmode hsubscription
  have hpaid₂ := fun e he => (hes₂ e he).paid hmode hsubscription
  by_cases hpays : ∃ x t p, provider.found stripeId = some x ∧ x.pays = some (t, p)
  · obtain ⟨x, t, p, hfound, hpays⟩ := hpays
    have hid : x.id = stripeId := provider.found_id stripeId x hfound
    have hheld : HeldBy db t x.period := by
      intro t' hsome heq
      rw [StripeSubscription.period, hid] at heq
      exact absurd heq (hnew t')
    have hleaves₁ := processes_leaves hfound hpays hprocesses₁ hpaid₁ hone hheld
    have hleaves₂ := processes_leaves hfound hpays hprocesses₂ hpaid₂ hone hheld
    constructor
    · intro t'
      by_cases ht : t' = t
      · subst ht
        classical
        rw [hleaves₁.row, hleaves₂.row,
          foldl_effect hfound hsubscription hes₁ hmem₁ _ decide_eq_true_iff,
          foldl_effect hfound hsubscription hes₂ hmem₂ _ decide_eq_true_iff]
        rcases hpaid with hpaid | hpaid
        · simp [Provider.outcome, hpaid]
        · simp [hpaid]
      · rw [hleaves₁.others t' ht, hleaves₂.others t' ht]
    · intro t' id hbilled hnot
      by_cases ht : t' = t
      · subst ht
        refine hleaves₁.cancelled id ?_ hnot
        have hne : id ≠ x.id := fun heq => hnew t' (by rw [hbilled, heq, hid])
        simp [replaced, hbilled, hne]
      · rw [billedBy, hleaves₁.others t' ht] at hnot
        exact absurd hbilled hnot
  · have hnone : ∀ x, provider.found stripeId = some x → x.pays = none := by
      intro x hfound
      by_contra hsome
      obtain ⟨⟨t, p⟩, htp⟩ := Option.ne_none_iff_exists'.1 hsome
      exact hpays ⟨x, t, p, hfound, htp⟩
    rw [processes_same hnone hprocesses₁ hpaid₁ hone, processes_same hnone hprocesses₂ hpaid₂ hone]
    exact ⟨fun _ => rfl, fun t id hbilled hnot => absurd hbilled hnot⟩

end Idempotent

def oneSubscription : Provider where
  enabled := true
  found id := if id = 70 then some proByCard else none
  found_id id x h := by
    split at h
    · next hid =>
        cases h
        exact hid.symm
    · cases h

/-- The outside of a provider; the ids it draws count up from `first`. -/
def Provider.outside (provider : Provider) (first : Id) : Answers billing := fun n c => match c with
  | .now => 0
  | .uuid => first + n
  | .publicWebUrl => some "https://shop.test"
  | .createCheckoutSession _ => some none
  | .createPortalSession _ _ => none
  | .cardBillingEnabled => provider.enabled
  | .retrieve id => provider.found id
  | .cancel _ => ()
  | .enqueueNotice _ _ => true
  | .issueTokens _ _ => true
  | .advisoryLock _ => ()
  | .filesForProductDeletion _ _ => some []
  | .removeStoredFiles _ => ()

theorem Provider.outside_agrees (provider : Provider) (first : Id) :
    provider.Agrees (provider.outside first) := fun _ => ⟨rfl, fun _ => rfl⟩

/-- The checkout of the subscription; its payment may still be on its way. -/
def proCheckout (paymentStatus : String) : CheckoutSession :=
  ⟨some planCheckoutKind, some 2, some 1, paymentStatus, "subscription", some 70, some 80⟩

def registered : Database := serve working (handler (.register "ana@mugs.test" "mugs")) platform

theorem registered_keys : registered.keys =
    [.plan 0, .plan 1, .user 1, .tenant 2, .subscription 4] := by
  decide +kernel

theorem fresh_of_keys {provider : Provider} {db : Database} (hkeys : db.keys = registered.keys)
    (m : ℕ) : db.row (.subscription (provider.outside 100 m .uuid)) = none :=
  db.row_eq_none _ (by
    have hne : (100 : ℕ) + m ≠ 4 := by omega
    simpa [hkeys, registered_keys, Provider.outside] using hne)

theorem registered_sound : Sound registered :=
  sound_of_serial (sound_of_none fun _ => rfl)
    (Relation.ReflTransGen.refl.tail ⟨working, .register "ana@mugs.test" "mugs", trivial, rfl⟩)

theorem registered_new (t : Id) : billedBy registered t ≠ some 70 := by
  intro h
  obtain ⟨s, hrow, hstripe⟩ := Option.bind_eq_some_iff.1 h
  obtain ⟨id, sub, hsub, -, rfl⟩ := exists_row_of_storeRow hrow
  have hid : id = 4 := by
    simpa [registered_keys] using registered.mem_keys_of_row hsub
  subst hid
  have hunbilled : (registered.row (.subscription 4)).map
      (fun sub : Subscription => sub.stripeSubscriptionId) = some none := by decide +kernel
  rw [hsub, Option.map_some, Option.some.injEq] at hunbilled
  rw [show sub.undated.stripeSubscriptionId = sub.stripeSubscriptionId from rfl, hunbilled] at hstripe
  cases hstripe

theorem registered_processes (e : StripeEvent) : ∃ db' cs,
    Processes oneSubscription registered [e] db' cs ∧
      db' = serve (oneSubscription.outside 100) (handler (.stripeWebhook false (some e)))
        registered :=
  ⟨_, _, .cons false (oneSubscription.outside 100) e (Provider.outside_agrees _ _)
    (fresh_of_keys rfl) (.nil _), rfl⟩

/-- A checkout that waits for its payment alone leaves the store on the free plan; with
the invoice the payment is known. -/
theorem unpaid_disagrees : ¬ ∀ (provider : Provider) (session : CheckoutSession) (stripeId : Id)
    (db db₁ db₂ : Database) (es₁ es₂ : List StripeEvent) (cs₁ cs₂ : List Call),
    OneEach db → (∀ t, billedBy db t ≠ some stripeId) →
    session.mode = "subscription" → session.subscription = some stripeId →
    (∀ e ∈ es₁, EventOf session stripeId e) → .checkoutCompleted session ∈ es₁ →
    (∀ e ∈ es₂, EventOf session stripeId e) → .checkoutCompleted session ∈ es₂ →
    Processes provider db es₁ db₁ cs₁ → Processes provider db es₂ db₂ cs₂ →
    ∀ t, storeRow db₁ t = storeRow db₂ t := by
  intro h
  have hwaits : PaidEvent 70 (.checkoutCompleted (proCheckout "unpaid")) :=
    .inr ⟨_, rfl, rfl, rfl⟩
  have hsame : serve (oneSubscription.outside 100)
      (handler (.stripeWebhook false (some (.checkoutCompleted (proCheckout "unpaid")))))
        registered = registered :=
    event_ignored _ _ hwaits ((Provider.shownBy_eq (Provider.outside_agrees _ _)).trans (by decide))
  obtain ⟨db₁, cs₁, hprocesses₁, rfl⟩ :=
    registered_processes (.checkoutCompleted (proCheckout "unpaid"))
  obtain ⟨db₂, cs₂, hprocesses₂, rfl⟩ := registered_processes (.invoicePaid (some 70))
  have hboth := Processes.cons false (oneSubscription.outside 100)
    (.checkoutCompleted (proCheckout "unpaid")) (Provider.outside_agrees _ _) (fresh_of_keys rfl)
    (hsame.symm ▸ hprocesses₂)
  have hrows := h oneSubscription (proCheckout "unpaid") 70 registered _ _ _ _ _ _
    registered_sound.unique registered_new rfl rfl
    (fun e he => .inl (List.mem_singleton.1 he)) (List.mem_singleton.2 rfl)
    (fun e he => by simpa [EventOf] using he) List.mem_cons_self hprocesses₁ hboth 2
  rw [hsame] at hrows
  have hfree : (storeRow registered 2).map Subscription.planId = some 0 := by decide +kernel
  have hpro : (storeRow (serve (oneSubscription.outside 100)
      (handler (.stripeWebhook false (some (.invoicePaid (some 70))))) registered) 2).map
        Subscription.planId = some 1 := by decide +kernel
  rw [← hrows, hfree] at hpro
  cases hpro

def checkedOut : Database :=
  serve (oneSubscription.outside 100)
    (handler (.stripeWebhook false (some (.checkoutCompleted (proCheckout "paid"))))) registered

theorem checkedOut_keys : checkedOut.keys = registered.keys := by
  decide +kernel

def twoSubscriptions : Provider where
  enabled := true
  found id := if id = 70 ∨ id = 60 then some { proByCard with id } else none
  found_id id x h := by
    split at h
    · cases h
      rfl
    · cases h

/-- The store while it is billed by the other subscription. -/
def billedBefore : Database :=
  serve (twoSubscriptions.outside 100) (handler (.stripeWebhook false
    (some (.checkoutCompleted { proCheckout "paid" with subscription := some 60 })))) registered

theorem billedBefore_sound : Sound billedBefore :=
  (handler_keeps _ registered_sound).serve registered_sound fun _ _ => trivial

theorem billedBefore_new (t : Id) : billedBy billedBefore t ≠ some 70 := by
  intro h
  obtain ⟨s, hrow, hstripe⟩ := Option.bind_eq_some_iff.1 h
  obtain ⟨id, sub, hsub, -, rfl⟩ := exists_row_of_storeRow hrow
  have hkeys : billedBefore.keys = registered.keys := by decide +kernel
  have hid : id = 4 := by
    simpa [hkeys, registered_keys] using billedBefore.mem_keys_of_row hsub
  subst hid
  have hbilled : (billedBefore.row (.subscription 4)).map
      (fun sub : Subscription => sub.stripeSubscriptionId) = some (some 60) := by decide +kernel
  rw [hsub, Option.map_some, Option.some.injEq] at hbilled
  have hstripe' : sub.stripeSubscriptionId = some 70 := hstripe
  rw [hbilled] at hstripe'
  cases hstripe'

/-- The paid checkout alone, and with the invoice, at a store billed by another
subscription: that one is cancelled. -/
theorem events_agree_paid : ∃ db₁ db₂ cs₁ cs₂,
    Processes twoSubscriptions billedBefore [.checkoutCompleted (proCheckout "paid")] db₁ cs₁ ∧
    Processes twoSubscriptions billedBefore
      [.checkoutCompleted (proCheckout "paid"), .invoicePaid (some 70)] db₂ cs₂ ∧
    (∀ t, storeRow db₁ t = storeRow db₂ t) ∧ .cancel 60 ∈ cs₁ := by
  have hpaid : Processes twoSubscriptions billedBefore
      [.checkoutCompleted (proCheckout "paid")] _ _ :=
    .cons false (twoSubscriptions.outside 100) _ (Provider.outside_agrees _ _)
      (fresh_of_keys (by decide +kernel)) (.nil _)
  have hboth : Processes twoSubscriptions billedBefore
      [.checkoutCompleted (proCheckout "paid"), .invoicePaid (some 70)] _ _ :=
    .cons false (twoSubscriptions.outside 100) _ (Provider.outside_agrees _ _)
      (fresh_of_keys (by decide +kernel)) (.cons false (twoSubscriptions.outside 100) _
        (Provider.outside_agrees _ _) (fresh_of_keys (by decide +kernel)) (.nil _))
  have hmode : (proCheckout "paid").mode = "subscription" := rfl
  have hsubscription : (proCheckout "paid").subscription = some 70 := rfl
  have hagree := events_agree billedBefore_sound.unique billedBefore_new hmode hsubscription
    (fun e he => .inl (List.mem_singleton.1 he)) (List.mem_singleton.2 rfl)
    (fun e he => by simpa [EventOf] using he) List.mem_cons_self (.inl (by decide)) hpaid hboth
  refine ⟨_, _, _, _, hpaid, hboth, hagree.1, hagree.2 2 60 ?_ ?_⟩
  · decide +kernel
  · decide +kernel

end WhatStore.Billing
