import WhatStore.Billing.StoreLimit
import WhatStore.ReadCommitted.Histories
import WhatStore.ReadCommitted.Tally

/-!
# Expiry notices

Any number of sweeps that overlap with each other and with every other request. A
sweep queues a notice only after it has committed a claim of it in the row, and a
claim finds the notice missing there. So a notice is queued again only after the list
of the row was written without it: by a change of plan, a renewal, or the release of
a claim whose action has failed.
-/

namespace WhatStore.Billing

open ReadCommitted ReadCommitted.Prog

variable {id : Id} {notice : ExpiryNotice}

/-! ## The list of a row -/

/-- The update claims the notice in the row `id`. -/
def Update.claims (id : Id) (notice : ExpiryNotice) : Update → Bool
  | .claimNotice id' _ notice' => id' == id && notice' == notice
  | _ => false

/-- The update writes a list without the notice to the row `id`. -/
def Update.reopens (id : Id) (notice : ExpiryNotice) : Update → Bool
  | .switchFree id' _ _ => id' == id
  | .approveUpgrade id' _ _ => id' == id
  | .activatePlan id' _ _ => id' == id
  | .setNotices id' notices => id' == id && !notices.contains notice
  | _ => false

def isMarked (notice : ExpiryNotice) (row : Option Subscription) : Bool :=
  row.any fun sub => sub.expiryNoticesSent.contains notice

/-- A subscription and its history: since the start the notice was claimed at most as
often as it was missing. -/
def ClaimsCounted (db : Database) (notice : ExpiryNotice) :
    (k : Key) → List Update → Option (Row k) → Prop
  | .subscription id, us, row =>
      us.countP (Update.claims id notice) + (isMarked notice (db.row (.subscription id))).toNat ≤
        us.countP (Update.reopens id notice) + (isMarked notice row).toNat
  | _, _, _ => True

theorem counted_cons {us : List Update} {u : Update} {start : ℕ} {row row' : Option Subscription}
    (h : us.countP (Update.claims id notice) + start ≤
      us.countP (Update.reopens id notice) + (isMarked notice row).toNat)
    (hu : (u.claims id notice).toNat + (isMarked notice row).toNat ≤
      (u.reopens id notice).toNat + (isMarked notice row').toNat) :
    (u :: us).countP (Update.claims id notice) + start ≤
      (u :: us).countP (Update.reopens id notice) + (isMarked notice row').toNat := by
  rw [List.countP_cons, List.countP_cons]
  simp only [Bool.toNat, Bool.cond_eq_ite] at hu h ⊢
  omega

theorem isMarked_map {f : Subscription → Subscription} {row : Option Subscription}
    (hf : ∀ sub, (f sub).expiryNoticesSent = sub.expiryNoticesSent) :
    isMarked notice (row.map f) = isMarked notice row := by
  cases row <;> simp [isMarked, hf]

theorem counted_same {us : List Update} {u : Update} {start : ℕ} {f : Subscription → Subscription}
    {row : Option Subscription}
    (h : us.countP (Update.claims id notice) + start ≤
      us.countP (Update.reopens id notice) + (isMarked notice row).toNat)
    (hclaims : u.claims id notice = false)
    (hf : ∀ sub, (f sub).expiryNoticesSent = sub.expiryNoticesSent) :
    (u :: us).countP (Update.claims id notice) + start ≤
      (u :: us).countP (Update.reopens id notice) + (isMarked notice (row.map f)).toNat := by
  refine counted_cons h ?_
  rw [hclaims, isMarked_map hf]
  simp

theorem counted_reopened {us : List Update} {u : Update} {start : ℕ}
    {row row' : Option Subscription}
    (h : us.countP (Update.claims id notice) + start ≤
      us.countP (Update.reopens id notice) + (isMarked notice row).toNat)
    (hclaims : u.claims id notice = false)
    (hreopens : u.reopens id notice = true ∨ isMarked notice row' = true) :
    (u :: us).countP (Update.claims id notice) + start ≤
      (u :: us).countP (Update.reopens id notice) + (isMarked notice row').toNat := by
  refine counted_cons h ?_
  have hle := Bool.toNat_le (isMarked notice row)
  rcases hreopens with hreopens | hmarked
  · rw [hclaims, hreopens]
    simp only [Bool.toNat_false, Bool.toNat_true]
    omega
  · rw [hclaims, hmarked]
    simp only [Bool.toNat_false, Bool.toNat_true]
    omega

/-- Every update of a row keeps the count. -/
theorem claimsCounted_write {db : Database} {u : Update} {row : Option (Row u.key)}
    {us : List Update} (hguard : u.guard row = true) (h : ClaimsCounted db notice u.key us row) :
    ClaimsCounted db notice u.key (u :: us) (u.change row) := by
  cases u with
  | insertSubscription id sub =>
      cases Option.isNone_iff_eq_none.1 hguard
      exact counted_cons h (Nat.zero_le _)
  | switchFree id planId expiresAt =>
      exact counted_reopened h rfl (.inl (by simp [Update.reopens]))
  | requestUpgrade id planId reference => exact counted_same h rfl fun _ => rfl
  | approveUpgrade id planId expiresAt =>
      exact counted_reopened h rfl (.inl (by simp [Update.reopens]))
  | rejectUpgrade id => exact counted_same h rfl fun _ => rfl
  | activatePlan id planId period =>
      exact counted_reopened h rfl (.inl (by simp [Update.reopens]))
  | mirrorCancel id stripeId cancel => exact counted_same h rfl fun _ => rfl
  | endBilling id stripeId => exact counted_same h rfl fun _ => rfl
  | claimNotice id expiresAt notice' =>
      obtain ⟨sub, rfl, hsub⟩ := (Option.any_eq_true _ _).1 hguard
      have hmissing : sub.expiryNoticesSent.contains notice' = false := by
        simpa using (Bool.and_eq_true_iff.1 hsub).2
      refine counted_cons h ?_
      by_cases hnotice : notice' = notice
      · subst hnotice
        have hmarked : (sub.expiryNoticesSent ++ [notice']).contains notice' = true := by simp
        have hclaims : Update.claims id notice' (.claimNotice id expiresAt notice') = true := by
          simp [Update.claims]
        rw [hclaims]
        exact (le_of_eq (congrArg (1 + Bool.toNat ·) hmissing)).trans
          (le_of_eq (congrArg (0 + Bool.toNat ·) hmarked.symm))
      · have hclaims : Update.claims id notice (.claimNotice id expiresAt notice') = false := by
          simp [Update.claims, hnotice]
        have hmarks : (sub.expiryNoticesSent ++ [notice']).contains notice =
            sub.expiryNoticesSent.contains notice := by
          rw [Bool.eq_iff_iff]
          simp [Ne.symm hnotice]
        rw [hclaims, Bool.toNat_false, Nat.zero_add]
        exact (le_of_eq (congrArg Bool.toNat hmarks.symm)).trans (Nat.le_add_left _ _)
  | setNotices id notices =>
      obtain ⟨sub, rfl⟩ := Option.isSome_iff_exists.1 hguard
      refine counted_reopened h rfl ?_
      cases hnotices : notices.contains notice with
      | true => exact .inr hnotices
      | false =>
          have hreopens : (id == id && !notices.contains notice) = true := by
            rw [hnotices]
            simp
          exact .inl hreopens
  | downgrade id freePlan => exact counted_same h rfl fun _ => rfl
  | _ => trivial

/-! ## Requests that queue nothing -/

def enqueues : Ev → Bool
  | .call (.enqueueNotice _ _) _ => true
  | _ => false

def Silent {α : Type} (p : Prog billing α) : Prop := p.Only fun e => enqueues e = false

variable {α β : Type}

theorem silent_bind {p : Prog billing α} {f : α → Prog billing β} (hp : Silent p)
    (hf : ∀ a, Silent (f a)) : Silent (p >>= f) := only_bind hp hf

theorem silent_ret {a : α} : Silent (.ret a) := only_ret

theorem silent_throw {e : Err} : Silent (.throw e : Prog billing α) := fun _ => rfl

theorem silent_ask {q : Query} {f : q.Result → Prog billing β} (hf : ∀ x, Silent (f x)) :
    Silent (Prog.query (S := billing) q .ret >>= f) := only_bind (only_query fun _ => rfl) hf

theorem silent_invoke {c : Call} {f : c.Answer → Prog billing β}
    (hc : ∀ a, enqueues (.call c a) = false) (hf : ∀ a, Silent (f a)) :
    Silent (Prog.call (S := billing) c .ret >>= f) := only_bind (only_call hc) hf

theorem silent_throwIf {c : Bool} {e : Err} : Silent (throwIf c e) := only_throwIf fun _ => rfl

theorem silent_check {c : Bool} {e : Err} {f : Unit → Prog billing β} (hf : Silent (f ())) :
    Silent (throwIf c e >>= f) := only_bind silent_throwIf fun _ => hf

theorem silent_orThrow {o : Option α} {e : Err} : Silent (orThrow o e) :=
  only_orThrow fun _ => rfl

theorem silent_demand {o : Option α} {e : Err} {f : α → Prog billing β} (hf : ∀ a, Silent (f a)) :
    Silent (orThrow o e >>= f) := only_bind silent_orThrow hf

theorem silent_runIf {c : Bool} {p : Prog billing Unit} (hp : Silent p) : Silent (runIf c p) :=
  only_runIf hp

theorem silent_updateMany {u : Update} : Silent (updateMany u) := only_update fun _ => rfl

theorem silent_updateOne {u : Update} : Silent (updateOne u) :=
  silent_bind silent_updateMany fun _ => silent_throwIf

theorem silent_insertOne {u : Update} : Silent (insertOne u) :=
  silent_bind silent_updateMany fun _ => silent_throwIf

theorem silent_settle {inTx : Bool} : Silent (settle inTx) := silent_runIf fun _ => ⟨rfl, trivial⟩

theorem silent_write {inTx : Bool} {u : Update} : Silent (write inTx u) :=
  silent_bind silent_updateOne fun _ => silent_settle

theorem silent_updateEach {ids : List Id} {u : Id → Update} :
    Silent (each (fun id => do let _ ← updateMany (u id)) ids) :=
  only_each fun _ => silent_bind silent_updateMany fun _ => silent_ret

theorem silent_now {f : Time → Prog billing β} (hf : ∀ t, Silent (f t)) : Silent (now >>= f) :=
  silent_invoke (fun _ => rfl) hf

theorem silent_uuid {f : Id → Prog billing β} (hf : ∀ id, Silent (f id)) : Silent (uuid >>= f) :=
  silent_invoke (fun _ => rfl) hf

theorem silent_createSubscription {sub : Subscription} : Silent (createSubscription sub) := by
  refine silent_ask fun _ => silent_ask fun _ => silent_check (silent_uuid fun _ => ?_)
  exact silent_bind silent_insertOne fun _ => silent_ret

theorem silent_getEntitlements {t : Id} : Silent (getEntitlements t) :=
  silent_ask fun _ => silent_ask fun _ => silent_now fun _ => silent_ret

theorem silent_hideProductsOverLimit {inTx : Bool} {t : Id} :
    Silent (hideProductsOverLimit inTx t) := by
  refine silent_bind silent_getEntitlements fun entitlements => ?_
  split
  · exact silent_ret
  · refine silent_check (silent_ask fun _ => silent_bind silent_updateEach fun _ => ?_)
    exact silent_bind silent_settle fun _ => silent_ret

theorem silent_assertUnderNewProductLimit {t : Id} {n : Int} :
    Silent (assertUnderNewProductLimit t n) := by
  unfold assertUnderNewProductLimit
  split
  · exact silent_ret
  · exact silent_ask fun _ => silent_throwIf

theorem silent_subscribe {t planId : Id} : Silent (subscribe t planId) := by
  refine silent_ask fun _ => silent_demand fun _ => silent_check ?_
  refine silent_bind silent_assertUnderNewProductLimit fun _ => silent_ask fun _ => silent_check ?_
  refine silent_now fun _ => silent_ask fun existing => ?_
  cases existing with
  | some existing => exact silent_updateOne
  | none => exact silent_bind silent_createSubscription fun _ => silent_ret

theorem silent_subscriptionToUpgrade {t : Id} {current : Option Current} :
    Silent (subscriptionToUpgrade t current) := by
  cases current with
  | some current => exact silent_ret
  | none =>
      refine silent_ask fun _ => silent_demand fun _ => silent_now fun _ => ?_
      exact silent_createSubscription

theorem silent_requestUpgrade {t planId : Id} {reference : Option String} :
    Silent (requestUpgrade t planId reference) := by
  refine silent_ask fun _ => silent_demand fun _ => silent_check (silent_ask fun _ => ?_)
  exact silent_check (silent_bind silent_subscriptionToUpgrade fun _ => silent_updateOne)

theorem silent_findSubscription {id : Id} : Silent (findSubscription id) :=
  silent_ask fun _ => silent_orThrow

theorem silent_approveUpgrade {inTx : Bool} {id : Id} : Silent (approveUpgrade inTx id) := by
  refine silent_bind silent_findSubscription fun _ => silent_check (silent_demand fun _ => ?_)
  refine silent_ask fun _ => silent_demand fun _ => silent_now fun _ => ?_
  refine silent_bind silent_write fun _ => silent_runIf ?_
  exact silent_bind silent_hideProductsOverLimit fun _ => silent_ret

theorem silent_rejectUpgrade {inTx : Bool} {id : Id} : Silent (rejectUpgrade inTx id) :=
  silent_bind silent_findSubscription fun _ => silent_check silent_write

theorem silent_assertBilledOnce {period : PaidPeriod} {id : Option Id} :
    Silent (assertBilledOnce period id) := by
  unfold assertBilledOnce
  split
  · exact silent_ret
  · exact silent_ask fun _ => silent_throwIf

theorem silent_activatePlan {inTx : Bool} {t planId : Id} {period : PaidPeriod} :
    Silent (activatePlan inTx t planId period) := by
  refine silent_ask fun current => silent_bind silent_assertBilledOnce fun _ => ?_
  cases current with
  | some current => exact silent_ask fun _ => silent_check silent_write
  | none =>
      exact silent_now fun _ => silent_bind silent_createSubscription fun _ => silent_settle

theorem silent_register {email slug : String} : Silent (register email slug) := by
  refine silent_ask fun _ => silent_check (silent_ask fun _ => silent_check ?_)
  refine silent_uuid fun _ => silent_bind silent_insertOne fun _ => silent_uuid fun _ => ?_
  refine silent_bind silent_insertOne fun _ => silent_ask fun defaultPlan => ?_
  have htokens : ∀ userId tenantId, Silent (settle false >>= fun _ =>
      Prog.call (S := billing) (.issueTokens userId tenantId) .ret >>= fun issued =>
        throwIf (!issued) (.failure "No tokens")) := fun _ _ =>
    silent_bind silent_settle fun _ => silent_invoke (fun _ => rfl) fun _ => silent_throwIf
  cases defaultPlan with
  | none => exact silent_bind silent_ret fun _ => htokens _ _
  | some planId =>
      exact silent_now fun _ => silent_bind silent_createSubscription fun _ => htokens _ _

theorem silent_createAdditional {userId : Id} {slug : String} :
    Silent (createAdditional userId slug) := by
  refine silent_ask fun _ => silent_ask fun _ => silent_now fun _ => silent_check ?_
  refine silent_ask fun _ => silent_check (silent_ask fun freePlan => silent_uuid fun _ => ?_)
  refine silent_bind silent_insertOne fun _ => ?_
  cases freePlan with
  | none => exact silent_ret
  | some planId => exact silent_bind silent_createSubscription fun _ => silent_ret

theorem silent_requireStripe : Silent requireStripe :=
  silent_invoke (fun _ => rfl) fun _ => silent_throwIf

theorem silent_requirePlansLink : Silent requirePlansLink :=
  silent_invoke (fun _ => rfl) fun _ => silent_demand fun _ => silent_ret

theorem silent_createCheckout {t planId : Id} : Silent (createCheckout t planId) := by
  refine silent_bind silent_requireStripe fun _ => silent_ask fun _ => silent_demand fun _ => ?_
  refine silent_check (silent_bind silent_assertUnderNewProductLimit fun _ => ?_)
  refine silent_ask fun _ => silent_check (silent_ask fun _ => silent_demand fun _ => ?_)
  refine silent_bind silent_requirePlansLink fun _ => ?_
  exact silent_invoke (fun _ => rfl) fun _ => silent_orThrow

theorem silent_createPortal {t : Id} : Silent (createPortal t) := by
  refine silent_bind silent_requireStripe fun _ => silent_ask fun _ => silent_demand fun _ => ?_
  refine silent_bind silent_requirePlansLink fun _ => ?_
  exact silent_invoke (fun _ => rfl) fun _ => silent_orThrow

theorem silent_cancelStripeSubscription {id : Id} : Silent (cancelStripeSubscription id) :=
  only_call fun _ => rfl

theorem silent_retrieve {id : Id} : Silent (retrieve id) :=
  silent_bind silent_requireStripe fun _ => silent_invoke (fun _ => rfl) fun _ => silent_orThrow

theorem silent_applyStripeSubscription {inTx : Bool} {billed : StripeSubscription}
    {fromCheckout : Bool} : Silent (applyStripeSubscription inTx billed fromCheckout) := by
  unfold applyStripeSubscription
  split
  · refine silent_runIf (silent_ask fun current => silent_runIf ?_)
    refine silent_bind silent_activatePlan fun _ => ?_
    split
    · exact silent_ret
    · exact silent_cancelStripeSubscription
  · exact silent_ret

theorem silent_onCheckoutCompleted {inTx : Bool} {session : CheckoutSession} :
    Silent (onCheckoutCompleted inTx session) := by
  unfold onCheckoutCompleted
  split
  · exact silent_ret
  · split
    · split
      · exact silent_ret
      · exact silent_bind silent_retrieve fun _ => silent_applyStripeSubscription
    · split
      · refine silent_ask fun current => silent_bind silent_activatePlan fun _ => ?_
        split
        · exact silent_ret
        · exact silent_cancelStripeSubscription
      · exact silent_ret

theorem silent_updateBilled {inTx : Bool} {stripeId : Id} {u : Id → Update} :
    Silent (updateBilled inTx stripeId u) :=
  silent_ask fun _ => silent_bind silent_updateEach fun _ => silent_settle

theorem silent_handleWebhook {inTx : Bool} {event : Option StripeEvent} :
    Silent (handleWebhook inTx event) := by
  refine silent_bind silent_requireStripe fun _ => silent_demand fun event => ?_
  cases event with
  | checkoutCompleted session => exact silent_onCheckoutCompleted
  | invoicePaid billed =>
      cases billed with
      | none => exact silent_ret
      | some id => exact silent_bind silent_retrieve fun _ => silent_applyStripeSubscription
  | subscriptionUpdated billed => exact silent_updateBilled
  | subscriptionDeleted billed => exact silent_updateBilled
  | other => exact silent_ret

theorem silent_downgrade {current : Current} : Silent (downgrade current) := by
  have hmove : Silent (findFreePlan >>= fun freePlan =>
      write false (.downgrade current.id freePlan) >>= fun _ =>
        hideProductsOverLimit false current.subscription.tenantId >>= fun _ => .ret ()) := by
    refine silent_ask fun _ => silent_bind silent_write fun _ => ?_
    exact silent_bind silent_hideProductsOverLimit fun _ => silent_ret
  unfold downgrade
  split
  · exact silent_bind silent_ret fun _ => hmove
  · exact silent_bind silent_cancelStripeSubscription fun _ => hmove

theorem silent_releaseNotice {id : Id} : Silent (releaseNotice id notice) := by
  refine silent_ask fun current => ?_
  cases current with
  | none => exact silent_ret
  | some current => exact silent_write

theorem silent_createProduct {t : Id} {dto : ProductsService.ProductDto} :
    Silent (ProductsService.create t dto) := by
  refine silent_bind ?_ fun _ => silent_now fun _ => silent_uuid fun _ => silent_insertOne
  refine silent_invoke (fun _ => rfl) fun _ => silent_bind silent_getEntitlements fun _ => ?_
  split
  · exact silent_ret
  · exact silent_ask fun _ => silent_throwIf

theorem silent_findOne {t id : Id} : Silent (ProductsService.findOne t id) :=
  silent_ask fun _ => silent_orThrow

theorem silent_updateProduct {t id : Id} {dto : ProductsService.ProductDto} :
    Silent (ProductsService.update t id dto) := by
  refine silent_bind silent_findOne fun _ => silent_bind (silent_runIf ?_) fun _ => silent_updateOne
  refine silent_invoke (fun _ => rfl) fun _ => silent_bind silent_getEntitlements fun _ => ?_
  split
  · exact silent_ret
  · exact silent_ask fun _ => silent_throwIf

theorem silent_removeProduct {t id : Id} : Silent (ProductsService.remove t id) := by
  refine silent_bind silent_findOne fun _ => silent_invoke (fun _ => rfl) fun _ => ?_
  exact silent_demand fun _ => silent_bind silent_updateOne fun _ => only_call fun _ => rfl

theorem silent_moderate {id : Id} {isActive : Bool} :
    Silent (PlatformProductsService.moderate id isActive) :=
  silent_ask fun _ => silent_check silent_updateOne

/-! ## Claims before notices -/

def queues (id : Id) (notice : ExpiryNotice) : Ev → Bool
  | .call (.enqueueNotice id' notice') queued => queued && id' == id && notice' == notice
  | _ => false

def claimsIn (id : Id) (notice : ExpiryNotice) : Ev → ℕ
  | .committed tx => tx.countP (Update.claims id notice)
  | .returned tx => tx.countP (Update.claims id notice)
  | _ => 0

/-- The queue is asked for a notice after a claim of it was committed, and once for
that claim. -/
def NoticeLaw (_ : Request) (h : List Ev) : Ev → Prop
  | .call (.enqueueNotice id notice) _ => ∃ later tx earlier,
      h = later ++ .committed tx :: earlier ∧ (∃ u ∈ tx, u.claims id notice = true) ∧ ∀ e ∈ later, enqueues e = false
  | _ => True

theorem noticeLaw_of_silent {r : Request} {h : List Ev} {e : Ev} (he : enqueues e = false) :
    NoticeLaw r h e := by
  cases e with
  | call c a =>
      cases c with
      | enqueueNotice id notice => cases he
      | _ => trivial
  | _ => trivial

theorem silent_along {r : Request} {p : Prog billing α} {h : List Ev} (hp : Silent p) :
    p.Along (NoticeLaw r) h fun _ h' =>
      ∃ later, h' = later ++ h ∧ ∀ e ∈ later, enqueues e = false := by
  refine hp.along_keeping ⟨[], rfl, fun _ he => absurd he List.not_mem_nil⟩ ?_
  rintro h' e - ⟨later, rfl, hlater⟩ he
  exact ⟨noticeLaw_of_silent he, e :: later, rfl, List.forall_mem_cons.2 ⟨he, hlater⟩⟩

theorem silent_follows {r : Request} {p : Prog billing Unit} (hp : Silent p) :
    p.Follows (NoticeLaw r) := (silent_along hp).mono fun _ _ _ => trivial

theorem handleCandidate_along {r : Request} {current : Current} {time : Time} {h : List Ev} :
    (handleCandidate current time).Along (NoticeLaw r) h fun _ _ => True := by
  unfold handleCandidate
  split
  · trivial
  · next notice hdue =>
      intro claimed
      refine ⟨trivial, trivial, along_runIf.2 ⟨fun hclaimed => ?_, fun _ => trivial⟩⟩
      subst hclaimed
      refine along_seq.2 ((Permissive.attempt (P := NoticeLaw r) (Q := fun _ _ => True) ?_
        fun h' => ⟨trivial, trivial⟩).mono fun acted h' _ => ?_)
      · refine along_seq.2 ((silent_along (silent_runIf silent_downgrade)).mono ?_)
        rintro - h' ⟨later, rfl, hlater⟩
        refine along_invoke (fun _ => ?_) fun _ =>
          along_throwIf.2 ⟨fun _ => trivial, fun _ => trivial⟩
        refine ⟨later, _, _, rfl, ⟨_, List.mem_cons_self, ?_⟩, hlater⟩
        simp [Update.claims]
      · refine ((silent_along (silent_runIf ?_)).mono fun _ _ _ => trivial)
        exact silent_bind silent_releaseNotice fun _ => silent_throw

theorem handler_notices (r : Request) : (handler r).Follows (NoticeLaw r) := by
  cases r with
  | register email slug => exact silent_follows silent_register
  | createAdditional userId slug => exact silent_follows silent_createAdditional
  | subscribe t planId => exact silent_follows silent_subscribe
  | requestUpgrade t planId reference => exact silent_follows silent_requestUpgrade
  | createCheckout t planId =>
      exact silent_follows (silent_bind silent_createCheckout fun _ => silent_ret)
  | createPortal t => exact silent_follows (silent_bind silent_createPortal fun _ => silent_ret)
  | approveUpgrade inTx id => exact silent_follows silent_approveUpgrade
  | rejectUpgrade inTx id => exact silent_follows silent_rejectUpgrade
  | activatePlan inTx t planId period => exact silent_follows silent_activatePlan
  | stripeWebhook inTx event => exact silent_follows silent_handleWebhook
  | lifecycle =>
      refine along_invoke (fun _ => trivial) fun time => along_ask (fun _ => trivial) fun s => ?_
      refine (along_each (I := fun _ _ => True) trivial fun current _ h _ => ?_).mono
        fun _ _ _ => trivial
      refine along_seq.2 ((Permissive.attempt (P := NoticeLaw _) (Q := fun _ _ => True)
        handleCandidate_along fun _ => ⟨trivial, trivial⟩).mono fun _ _ _ => trivial)
  | createProduct t dto => exact silent_follows silent_createProduct
  | updateProduct t id dto => exact silent_follows silent_updateProduct
  | removeProduct t id => exact silent_follows silent_removeProduct
  | moderateProduct id isActive => exact silent_follows silent_moderate

theorem queues_of_silent {e : Ev} (he : enqueues e = false) : queues id notice e = false := by
  cases e with
  | call c a =>
      cases c with
      | enqueueNotice id' notice' => cases he
      | _ => rfl
  | _ => rfl

theorem eq_of_queues {e : Ev} (he : queues id notice e = true) :
    e = .call (.enqueueNotice id notice) true := by
  cases e with
  | call c a =>
      cases c with
      | enqueueNotice id' notice' =>
          simp only [queues, Bool.and_eq_true, beq_iff_eq] at he
          obtain ⟨⟨rfl, rfl⟩, rfl⟩ := he
          rfl
      | _ => cases he
  | _ => cases he

/-! ## Counts -/

def queuedIn (id : Id) (notice : ExpiryNotice) (h : List Ev) : ℕ :=
  (h.map fun e => (queues id notice e).toNat).sum

def claimedIn (id : Id) (notice : ExpiryNotice) (h : List Ev) : ℕ :=
  (h.map (claimsIn id notice)).sum

/-- At every point of the history no more was queued than claimed. -/
def Covered (id : Id) (notice : ExpiryNotice) (h : List Ev) : Prop :=
  ∀ h', h' <:+ h → queuedIn id notice h' ≤ claimedIn id notice h'

theorem covered_cons {r : Request} {h : List Ev} {e : Ev} (hcovered : Covered id notice h)
    (hlaw : NoticeLaw r h e) : Covered id notice (e :: h) := by
  intro h' hsuffix
  rcases List.suffix_cons_iff.1 hsuffix with rfl | hsuffix
  swap
  · exact hcovered h' hsuffix
  cases hqueues : queues id notice e with
  | false =>
      have hle := hcovered h List.suffix_rfl
      simp only [queuedIn, claimedIn, List.map_cons, List.sum_cons, hqueues, Bool.toNat_false]
        at hle ⊢
      omega
  | true =>
      -- the claim came after whatever was queued before
      cases eq_of_queues hqueues
      obtain ⟨later, tx, earlier, rfl, ⟨u, hu, hclaims⟩, hlater⟩ := hlaw
      have hle := hcovered earlier ((List.suffix_cons _ _).trans (List.suffix_append _ _))
      have hnone : (later.map fun e => (queues id notice e).toNat).sum = 0 := by
        refine List.sum_eq_zero fun n hn => ?_
        obtain ⟨e, he, rfl⟩ := List.mem_map.1 hn
        rw [queues_of_silent (hlater e he), Bool.toNat_false]
      have hclaim : 0 < tx.countP (Update.claims id notice) :=
        List.countP_pos_iff.2 ⟨u, hu, hclaims⟩
      have hcommit : queues id notice (.committed tx) = false := rfl
      simp only [queuedIn, claimedIn, List.map_cons, List.sum_cons, List.map_append,
        List.sum_append, hqueues, hcommit, hnone, Bool.toNat_false, Bool.toNat_true, claimsIn] at hle ⊢
      omega

theorem covered_own {allow : BillingWorld → ℕ → Request → Ev → Prop} {db : Database}
    {w : BillingWorld} (h : World.Trace NoticeLaw allow (World.initial db) w) (i : ℕ) :
    Covered id notice (w.own i) := by
  refine World.Trace.induct (I := fun w => ∀ i, Covered id notice (w.own i)) h
    (World.initial_tidy (S := billing) db) (fun _ => ?_) (fun w j r e w' _ hI hm i => ?_) i
  · intro h' hsuffix
    cases List.suffix_nil.1 hsuffix
    exact le_refl _
  · by_cases hi : i = j
    · subst hi
      rw [hm.act.own_self]
      exact covered_cons (hI i) hm.lawful
    · rw [hm.act.own_of_ne hi]
      exact hI i

theorem sum_claimsIn (log : List (Entry billing Request)) :
    (log.map fun entry => claimsIn id notice entry.event).sum =
      (committed log).countP (Update.claims id notice) := by
  induction log with
  | nil => rfl
  | cons entry log ih =>
      obtain ⟨i, r, e⟩ := entry
      rw [List.map_cons, List.sum_cons, ih]
      cases e with
      | committed tx => exact (List.countP_append ..).symm
      | returned tx => exact (List.countP_append ..).symm
      | _ => exact Nat.zero_add _

theorem sum_queues (log : List (Entry billing Request)) :
    (log.map fun entry => (queues id notice entry.event).toNat).sum =
      log.countP fun entry => queues id notice entry.event := by
  induction log with
  | nil => rfl
  | cons entry log ih =>
      rw [List.map_cons, List.sum_cons, List.countP_cons, ih, add_comm, Bool.toNat,
        Bool.cond_eq_ite]

theorem countP_rowLog {p : Update → Bool} {k : Key} (hp : ∀ u, p u = true → u.key = k)
    (us : List Update) : (rowLog (S := billing) k us).countP p = us.countP p := by
  rw [rowLog, List.countP_filter]
  refine List.countP_congr fun u _ => ?_
  constructor
  · exact fun h => (Bool.and_eq_true_iff.1 h).1
  · exact fun h => Bool.and_eq_true_iff.2 ⟨h, decide_eq_true (hp u h)⟩

theorem key_of_claims {u : Update} (h : u.claims id notice = true) : u.key = .subscription id := by
  cases u with
  | claimNotice id' expiresAt notice' =>
      exact congrArg Key.subscription (beq_iff_eq.1 (Bool.and_eq_true_iff.1 h).1)
  | _ => cases h

theorem key_of_reopens {u : Update} (h : u.reopens id notice = true) :
    u.key = .subscription id := by
  cases u with
  | switchFree id' planId expiresAt => exact congrArg Key.subscription (beq_iff_eq.1 h)
  | approveUpgrade id' planId expiresAt => exact congrArg Key.subscription (beq_iff_eq.1 h)
  | activatePlan id' planId period => exact congrArg Key.subscription (beq_iff_eq.1 h)
  | setNotices id' notices =>
      exact congrArg Key.subscription (beq_iff_eq.1 (Bool.and_eq_true_iff.1 h).1)
  | _ => cases h

/-- **A notice is queued once**, whatever runs at the same time, unless the list of its
row is written without it: since the start it was queued at most as often as committed
writes have removed it, and once more when the row has it now and had not at the start. -/
theorem notices_counted {db : Database} {s : BillingSystem}
    (hrun : System.Runs handler (fun _ => True) (fun _ _ _ _ => True) (System.initial db) s)
    (id : Id) (notice : ExpiryNotice) :
    (s.world.log.countP fun entry => queues id notice entry.event) +
        (isMarked notice (db.row (.subscription id))).toNat ≤
      (committed s.world.log).countP (Update.reopens id notice) +
        (isMarked notice (s.world.db.row (.subscription id))).toNat := by
  have htrace := trace_of_runs (P := NoticeLaw) (fun r _ => handler_notices r) hrun
  have hqueued := World.sum_le_of_own (f := fun e => (queues id notice e).toNat)
    (g := claimsIn id notice) fun i => covered_own htrace i _ List.suffix_rfl
  rw [sum_queues, sum_claimsIn] at hqueued
  have hrows := htrace.rows (I := ClaimsCounted db notice) (fun k => ?_)
    (fun _ _ _ _ _ _ _ hguard us hI => claimsCounted_write hguard hI) (.subscription id)
  · rw [ClaimsCounted, countP_rowLog fun _ => key_of_claims, countP_rowLog fun _ => key_of_reopens]
      at hrows
    exact (Nat.add_le_add_right hqueued _).trans hrows
  · cases k with
    | subscription id => exact le_refl _
    | _ => trivial

def endingStore : Database :=
  oneStore.set (.subscription 3) (some (newSubscription 2 1 (some 0) 0))

/-- Two sweeps select the same row, and one of them queues the notice. -/
theorem notices_counted_overlapping : ∃ s : BillingSystem,
    (committed s.world.log).countP (Update.reopens 3 .d0) = 0 ∧
      (s.world.log.countP fun entry => queues 3 .d0 entry.event) = 1 := by
  obtain ⟨s, hrun, hcounts⟩ := System.exists_run_of_play handler (fun _ => true)
    (fun _ _ _ _ => true) (System.initial endingStore)
    [.start 0 .lifecycle, .steps 0 2 (drawing 20), .start 1 .lifecycle, .steps 1 2 (drawing 20),
      .steps 0 4 (drawing 20), .steps 1 3 (drawing 20)]
    (fun s => ((committed s.world.log).countP (Update.reopens 3 .d0),
      s.world.log.any fun entry => queues 3 .d0 entry.event))
    (by decide +kernel : _ = some (0, true))
  obtain ⟨hreopens, hqueued⟩ := Prod.mk.inj hcounts
  refine ⟨s, hreopens, le_antisymm ?_ (List.countP_pos_iff.2 (List.any_eq_true.1 hqueued))⟩
  have hle := notices_counted (hrun.mono (fun _ _ => trivial) fun _ _ _ _ _ => trivial) 3 .d0
  rw [hreopens, Nat.zero_add] at hle
  exact (Nat.le_add_right _ _).trans (hle.trans (Bool.toNat_le _))

end WhatStore.Billing
