import WhatStore.Checkout.Quote
import WhatStore.ReadCommitted.Outcomes

/-!
# Paying an order by PayPal

`createPayPalCheckout` opens a checkout for an order that still owes money, so
an order of a payment that failed, was refunded or is disputed may be paid
again. Once the buyer has approved the checkout PayPal says so in three ways:
the buyer comes back to the store, an event tells of the approval, and an event
tells of the completed capture. The last one settles every order a checkout was
opened for. The other two capture the payment only while the payment of the
order is pending, so they settle it exactly then.
-/

namespace WhatStore

open ReadCommitted Prog

inductive Report where
  | returned | approved | captured
  deriving DecidableEq

/-- The request that brings the report of the PayPal order `reference`, whose capture
`capture` is of what the order `o` costs. -/
def Report.request (tenantId id reference capture : Id) (o : Order) : Report → Request
  | .returned => .capturePayPalOrder tenantId id
  | .approved => .payPalWebhook (some (.orderApproved reference))
  | .captured => .payPalWebhook (some
      (.capture true capture (some reference) (some o.grandTotal) (some o.currency)))

/-- PayPal says that its order `reference` was captured for what the order costs. -/
structure PayPalOrderState.Pays (state : PayPalOrderState) (o : Order) (reference capture : Id) :
    Prop where
  order : state.paypalOrderId = reference
  approved : state.orderStatus ≠ .notApproved
  capture : state.captureId = some capture
  completed : state.captureStatus = some .completed
  amount : state.amountMinor = some (toMinorUnits o.grandTotal o.currency)
  currency : state.currency = some o.currency

/-- The uuids that are drawn name no grant, and differ. -/
structure FreshGrants (answer : Answers shop) (n : ℕ) (s : Database) : Prop where
  unused : ∀ m, n ≤ m → s.row (.grant (answer m .uuid)) = none
  distinct : ∀ m m', answer m .uuid = answer m' .uuid → m = m'

/-- The request sets the order paid with the capture, and refunds nothing. -/
def Settles (answer : Answers shop) (r : Request) (db : Database) (id capture : Id) : Prop :=
  (∃ o : Order, (serve answer (handler r) db).row (.order id) = some o ∧
    o.paymentStatus = .paid ∧ o.paypalCaptureId = some capture) ∧
  ∀ gateway payment, Call.refund gateway payment ∉ requested answer (handler r) db

/-! ## Opening a checkout -/

/-- A checkout was opened: it is bound to the order, whose payment is still owed. -/
structure Opened (db db' : Database) (tenantId id : Id) (o : Order) (reference : Id) : Prop where
  before : orderOf db tenantId id = some o
  after : db'.row (.order id) = some (o.bind .paypal reference)
  paypal : o.fulfillmentMethod = .paypal
  unpaid : o.paymentStatus ≠ .paid
  live : o.status.terminal = false

theorem createPayPalCheckout_ensures (tenantId id : Id) (db : Database) :
    (createPayPalCheckout tenantId id).Ensures (S := shop) (fun _ _ => True) (.start db) fun _ σ =>
      ∃ o reference, Opened db σ.view tenantId id o reference := by
  refine ensures_ask (ensures_ask (ensures_ask (ensures_demand fun tenant _ => ?_)))
  refine Ensures.seq (p := commit) (Q := fun _ σ => σ = .start db) rfl fun _ σ hσ => ?_
  subst hσ
  refine ensures_demand fun x hx => ensures_check fun hmethod => ensures_check fun _ => ?_
  refine ensures_seq.2 (ensures_check fun hpaid => ensures_throwIf.2 fun hopen => ?_)
  refine ensures_seq.2 (ensures_invoke fun _ _ => ensures_throwIf.2 fun _ => ?_)
  refine ensures_seq.2 (ensures_invoke fun answered _ => ensures_orThrow.2 fun reference _ => ?_)
  refine ensures_require fun _ => ?_
  have hfound := (eval_orderWithItems hx).1
  have hrow : db.row (.order id) = some x.1 := orderOf_eq_some hfound
  refine ⟨x.1, reference, hfound, ?_, ?_, ?_, ?_⟩
  · simp [applyUpdate, Update.key, Update.change, hrow]
  · simpa using hmethod
  · simpa using hpaid
  · simpa using hopen

/-! ## Settling -/

/-- What a settlement through the PayPal order `reference` needs to find. -/
structure Settleable (db : Database) (tenantId id reference : Id) (o : Order) : Prop where
  found : orderOf db tenantId id = some o
  paypal : o.fulfillmentMethod = .paypal
  bound : o.paypalOrderId = some reference
  unpaid : o.paymentStatus ≠ .paid
  live : o.status.terminal = false

def Call.keepsMoney : Call → Prop
  | .refund _ _ => False
  | _ => True

def Order.paidBy (o : Order) (capture : Id) : Order :=
  { o with paypalCaptureId := some capture, paymentStatus := .paid, status := .confirmed }

section Settle

variable {answer : Answers shop} {n : ℕ} {σ : Session shop} {tenantId id : Id}

theorem createGrants_achieves {v : Option Order} (deliveryId : Id) (expiresAt : Time)
    (assets : List Id) (hfresh : FreshGrants answer n σ.view)
    (horder : σ.view.row (.order id) = v) :
    (each (createGrant tenantId deliveryId expiresAt) assets).Achieves answer n σ
      fun _ n' σ' cs => (FreshGrants answer n' σ'.view ∧ σ'.view.row (.order id) = v) ∧
        ∀ c ∈ cs, Call.keepsMoney c := by
  refine achieves_each (I := fun n (σ : Session shop) =>
    FreshGrants answer n σ.view ∧ σ.view.row (.order id) = v)
    ⟨hfresh, horder⟩ fun assetId n σ hI => ?_
  obtain ⟨hfresh, horder⟩ := hI
  have hfree : σ.view.row (.grant (answer n .uuid)) = none := hfresh.unused n le_rfl
  refine achieves_invoke (achieves_invoke (achieves_write ?_ ?_))
  · simpa [Update.guard] using hfree
  · refine ⟨⟨⟨fun m hm => ?_, hfresh.distinct⟩, ?_⟩, ?_⟩
    · have hne : answer m .uuid ≠ answer n .uuid := fun heq => by
        have := hfresh.distinct m n heq
        omega
      simpa [applyUpdate, Store.set_row_of_ne, hne] using hfresh.unused m (by omega)
    · simpa [applyUpdate, Store.set_row_of_ne] using horder
    · simp [Call.keepsMoney]

theorem FreshGrants.later {s s' : Database} {m : ℕ} (h : FreshGrants answer n s) (hm : n ≤ m)
    (hsame : ∀ k, s'.row (.grant k) = s.row (.grant k)) : FreshGrants answer m s' where
  unused i hi := (hsame _).trans (h.unused i (hm.trans hi))
  distinct := h.distinct

theorem createDelivery_achieves {v : Option Order} (hfresh : FreshGrants answer n σ.view)
    (horder : σ.view.row (.order id) = v) :
    (createDeliveryForPaidOrder tenantId id).Achieves answer n σ fun _ _ σ' cs =>
      σ'.view.row (.order id) = v ∧ ∀ c ∈ cs, Call.keepsMoney c := by
  refine achieves_ask ?_
  split
  · exact ⟨horder, by simp⟩
  · refine achieves_ask ?_
    split
    · exact ⟨horder, by simp⟩
    · refine achieves_invoke (achieves_invoke ⟨fun hguard => ?_, fun _ => ⟨horder, ?_⟩⟩)
      · have horder' : (applyUpdate (S := shop) (.insertDelivery id
            (newDelivery (answer (n + 1) .uuid) tenantId (answer n .now))) σ.view).row
              (.order id) = v := by
          simpa [applyUpdate, Store.set_row_of_ne] using horder
        have hfresh' : FreshGrants answer (n + 3) (applyUpdate (S := shop) (.insertDelivery id
            (newDelivery (answer (n + 1) .uuid) tenantId (answer n .now))) σ.view) :=
          hfresh.later (by omega) fun k => by simp [applyUpdate, Store.set_row_of_ne]
        refine achieves_ask (achieves_demand (a := newDelivery (answer (n + 1) .uuid) tenantId
          (answer n .now)) ?_ (achieves_invoke ?_))
        · simp [Query.eval, applyUpdate, Update.key, Update.change]
        · refine (createGrants_achieves (σ := σ.apply (.insertDelivery id _)) _ _ _ hfresh'
            horder').seq ?_
          intro _ _ σ' cs hgrants
          refine ⟨hgrants.1.2, ?_⟩
          simpa [Call.keepsMoney] using hgrants.2
      · simp [Call.keepsMoney]

theorem runHooks_achieves (jobs : List Job) {v : Option Order}
    (horder : σ.view.row (.order id) = v) :
    (runHooks jobs).Achieves answer n σ fun _ _ σ' cs =>
      σ'.view.row (.order id) = v ∧ ∀ c ∈ cs, Call.keepsMoney c :=
  achieves_each (I := fun _ (σ : Session shop) => σ.view.row (.order id) = v) horder
    fun job _ _ hI => ⟨hI, by simp [Call.keepsMoney]⟩

/-- A completed capture of the exact amount settles the order it belongs to. -/
theorem settlePayPal_achieves {reference capture : Id} {o : Order} {state : PayPalOrderState}
    (hfresh : FreshGrants answer n σ.view)
    (hsettleable : Settleable σ.view tenantId id reference o)
    (hpays : state.Pays o reference capture) :
    (settlePayPal tenantId id state).Achieves answer n σ fun _ _ σ' cs =>
      σ'.view.row (.order id) = some (o.paidBy capture) ∧ ∀ c ∈ cs, Call.keepsMoney c := by
  have hrow : σ.view.row (.order id) = some o := orderOf_eq_some hsettleable.found
  have hcapture : (settlePayPalCapture tenantId id state capture).Achieves answer n σ
      fun x _ σ' cs => x.1 = false ∧ σ'.view.row (.order id) = some (o.paidBy capture) ∧
        ∀ c ∈ cs, Call.keepsMoney c := by
    refine achieves_ask ?_
    simp only [Query.eval, hsettleable.found, hsettleable.paypal, hsettleable.bound,
      hsettleable.live, hpays.order, hpays.amount, hpays.currency, bne_self_eq_false,
      Bool.or_self, Bool.false_eq_true, if_false, beq_eq_false_iff_ne.2 hsettleable.unpaid]
    refine achieves_write ?_ ?_
    · simp [Update.guard, hrow, hsettleable.unpaid, hsettleable.live]
    · have hpaid : (applyUpdate (S := shop) (.settle id .paypal (some capture)) σ.view).row
          (.order id) = some (o.paidBy capture) := by
        simp [applyUpdate, Update.key, Update.change, hrow, Order.record, Order.paidBy]
      refine (createDelivery_achieves (σ := σ.apply (.settle id .paypal (some capture)))
        (hfresh.later le_rfl fun k => ?_) hpaid).seq fun jobs _ σ' cs hdelivery => ?_
      · simp [applyUpdate, Store.set_row_of_ne]
      · exact ⟨rfl, hdelivery.1, by simpa using hdelivery.2⟩
  have hcompleted : ∀ status : CaptureStatus, status ≠ .completed →
      (state.captureStatus == some status) = false := by
    intro status hne
    simpa [hpays.completed] using hne.symm
  rw [settlePayPal, hcompleted _ (by decide), hcompleted _ (by decide)]
  simp only [Bool.or_self, Bool.false_eq_true, if_false, hpays.completed, bne_self_eq_false,
    hpays.capture]
  refine hcapture.seq fun x _ σ₁ cs hx => achieves_finish ?_
  obtain ⟨hkept, hpaid, hcs⟩ := hx
  refine (runHooks_achieves x.2 (σ := σ₁.commit) hpaid).seq fun _ _ σ₂ cs' hhooks => ?_
  rw [hkept]
  refine ⟨hhooks.1, fun c hc => ?_⟩
  simp only [List.append_nil, List.mem_append] at hc
  exact hc.elim (hcs c) (hhooks.2 c)

end Settle

/-! ## The three reports -/

def BoundTo (db : Database) (reference id : Id) : Prop :=
  ∀ id' (o : Order), db.row (.order id') = some o → o.paypalOrderId = some reference → id' = id

section Reports

variable {answer : Answers shop} {db : Database} {tenantId id reference capture : Id} {o : Order}

theorem orderByPayPalOrder_eq (hsettleable : Settleable db tenantId id reference o)
    (hbound : BoundTo db reference id) :
    Query.eval (.orderByPayPalOrder reference) db = some ⟨id, tenantId, o.paymentStatus⟩ := by
  have hrow : db.row (.order id) = some o := orderOf_eq_some hsettleable.found
  have htenant : o.tenantId = tenantId := by
    simpa using (Option.filter_eq_some_iff.1 hsettleable.found).2
  have hmem : (id, o) ∈ ordersWhere db fun o => o.paypalOrderId == some reference :=
    List.mem_filterMap.2 ⟨.order id, db.mem_keys_of_row hrow, by
      simp [hrow, hsettleable.bound]⟩
  rw [Query.eval]
  cases hfound : ordersWhere db fun o => o.paypalOrderId == some reference with
  | nil =>
      rw [hfound] at hmem
      cases hmem
  | cons x xs =>
      obtain ⟨hx, href⟩ := mem_ordersWhere.1 (hfound ▸ List.mem_cons_self :
        (x.1, x.2) ∈ ordersWhere db fun o => o.paypalOrderId == some reference)
      have hid : x.1 = id := hbound x.1 x.2 hx (by simpa using href)
      rw [hid, hrow] at hx
      cases hx
      simp [hid, htenant]

/-- A report of an order whose payment is pending, and one of a completed capture,
settles the order. -/
theorem report_achieves (hsettleable : Settleable db tenantId id reference o)
    (hbound : BoundTo db reference id) (hfresh : FreshGrants answer 0 db)
    (hcaptures : ∀ n, ∃ state, answer n (.captureOrder reference) = some state ∧
      state.Pays o reference capture) (report : Report)
    (h : report = .captured ∨ o.paymentStatus = .pending) :
    (handler (report.request tenantId id reference capture o)).Achieves answer 0 (.start db)
      fun _ _ σ cs => σ.view.row (.order id) = some (o.paidBy capture) ∧
        ∀ c ∈ cs, Call.keepsMoney c := by
  have hevent : Query.eval (.orderByPayPalOrder reference) db =
      some ⟨id, tenantId, o.paymentStatus⟩ := orderByPayPalOrder_eq hsettleable hbound
  obtain ⟨state, hanswer, hpays⟩ := hcaptures 0
  have hrun : runIf (state.orderStatus != .notApproved) (settlePayPal tenantId id state) =
      settlePayPal tenantId id state := if_pos (by simpa using hpays.approved)
  have hsettled : (settlePayPal tenantId id state).Achieves answer 1 (.start db)
      fun _ _ σ' cs => σ'.view.row (.order id) = some (o.paidBy capture) ∧
        ∀ c ∈ cs, Call.keepsMoney c :=
    settlePayPal_achieves (hfresh.later (by omega) fun _ => rfl) hsettleable hpays
  cases report with
  | returned =>
      have hpending : o.paymentStatus = .pending := by simpa using h
      refine achieves_ask (achieves_finish (achieves_demand hsettleable.found ?_))
      refine achieves_check (by simp [hsettleable.paypal]) ?_
      refine achieves_demand hsettleable.bound ?_
      simp only [hpending, bne_self_eq_false, Bool.false_eq_true, if_false]
      refine achieves_invoke (achieves_demand hanswer ?_)
      rw [hrun]
      refine hsettled.seq fun _ _ σ cs hpaid => achieves_ask (achieves_finish ?_)
      have hfound : orderOf σ.view tenantId id = some (o.paidBy capture) := by
        have htenant := (Option.filter_eq_some_iff.1 hsettleable.found).2
        exact Option.filter_eq_some_iff.2 ⟨hpaid.1, htenant⟩
      refine achieves_demand hfound ⟨hpaid.1, fun c hc => ?_⟩
      simp only [List.append_nil, List.mem_cons] at hc
      rcases hc with rfl | hc
      · trivial
      · exact hpaid.2 c hc
  | approved =>
      have hpending : o.paymentStatus = .pending := by simpa using h
      refine achieves_ask (achieves_finish ?_)
      rw [hpending] at hevent
      simp only [Session.start_view, hevent, bne_self_eq_false, Bool.false_eq_true, if_false]
      refine achieves_invoke (achieves_demand hanswer ?_)
      rw [hrun]
      refine hsettled.mono fun _ _ σ cs hpaid => ⟨hpaid.1, fun c hc => ?_⟩
      rcases List.mem_cons.1 hc with rfl | hc
      · trivial
      · exact hpaid.2 c hc
  | captured =>
      refine achieves_ask (achieves_finish ?_)
      simp only [Session.start_view, hevent]
      have hcompleted : (captureState true capture reference (some o.grandTotal)
          (some o.currency)).Pays o reference capture :=
        { order := rfl, approved := nofun, capture := rfl, completed := rfl
          amount := rfl, currency := rfl }
      exact settlePayPal_achieves (hfresh.later le_rfl fun _ => rfl) hsettleable hcompleted

/-- The buyer's return and the event of the approval leave an order alone whose payment
is not pending. -/
theorem report_ignored (hsettleable : Settleable db tenantId id reference o)
    (hbound : BoundTo db reference id) {report : Report} (hreport : report ≠ .captured)
    (hpending : o.paymentStatus ≠ .pending) :
    serve answer (handler (report.request tenantId id reference capture o)) db = db := by
  have hevent : Query.eval (.orderByPayPalOrder reference) db =
      some ⟨id, tenantId, o.paymentStatus⟩ := orderByPayPalOrder_eq hsettleable hbound
  have hkept : (o.paymentStatus != .pending) = true := by simpa using hpending
  cases report with
  | returned =>
      refine Idle.served (idle_ask (idle_finish (idle_demand fun found hfound => ?_)))
      cases hsettleable.found.symm.trans hfound
      refine idle_check fun _ => idle_demand fun _ _ => ?_
      simpa only [hkept, if_true] using idle_ret ()
  | approved =>
      refine Idle.served (idle_ask (idle_finish ?_))
      simpa only [hevent, hkept, if_true] using idle_ret ()
  | captured => exact absurd rfl hreport

/-- **What a checkout is opened for and what is settled**: once a checkout was opened
for an order that nobody changes until its buyer approves, each report of the exact
capture sets the order paid and refunds nothing exactly when it is the event of the
completed capture or the payment of the order is pending. -/
theorem settles_iff {answer' : Answers shop} {db' : Database}
    (hopened : Succeeds (S := shop) answer (handler (.createPayPalCheckout tenantId id)) db)
    (hsame : db'.row (.order id) =
      (serve (S := shop) answer (handler (.createPayPalCheckout tenantId id)) db).row (.order id))
    (ho : db'.row (.order id) = some o) (hreference : o.paypalOrderId = some reference)
    (hbound : BoundTo db' reference id) (hfresh : FreshGrants answer' 0 db')
    (hcaptures : ∀ n, ∃ state, answer' n (.captureOrder reference) = some state ∧
      state.Pays o reference capture) (report : Report) :
    Settles answer' (report.request tenantId id reference capture o) db' id capture ↔
      report = .captured ∨ o.paymentStatus = .pending := by
  obtain ⟨o₁, reference₁, hopen⟩ := (createPayPalCheckout_ensures tenantId id db).of_exec
    (fun _ _ => trivial) hopened
  have hrow : o = o₁.bind .paypal reference₁ := by
    rw [hsame, serve, handler, hopen.after] at ho
    cases ho
    rfl
  have htenant := (Option.filter_eq_some_iff.1 hopen.before).2
  have hsettleable : Settleable db' tenantId id reference o := by
    subst hrow
    exact ⟨Option.filter_eq_some_iff.2 ⟨ho, htenant⟩, hopen.paypal, hreference, hopen.unpaid,
      hopen.live⟩
  constructor
  · intro hsettles
    by_contra hnot
    push Not at hnot
    obtain ⟨⟨o', ho', hpaid, -⟩, -⟩ := hsettles
    rw [report_ignored hsettleable hbound hnot.1 hnot.2, ho] at ho'
    cases ho'
    exact hsettleable.unpaid hpaid
  · intro h
    obtain ⟨σ, hview, hpaid, hcalls⟩ :=
      (report_achieves hsettleable hbound hfresh hcaptures report h).served
    rw [hview] at hpaid
    exact ⟨⟨_, hpaid, rfl, rfl⟩, fun gateway payment hmem => hcalls _ hmem⟩

end Reports

/-- No checkout is opened for an order that is paid another way. -/
example : ((serve (S := shop) (steady {}) (handler (.createPayPalCheckout 0 0))
    (storeWith Tenant.plain (.fresh .zelle 1000))).row (.order 0)).map
      (fun o : Order => o.paypalOrderId) = some none := by
  decide +kernel

/-- The capture of PayPal's order `reference` for an order of ten dollars. -/
def tenDollars (reference : Id) (status : CaptureStatus) : PayPalOrderState where
  paypalOrderId := reference
  orderStatus := .completed
  captureId := some 90
  captureStatus := some status
  amountMinor := some 1000
  currency := some "USD"

/-- A store that takes PayPal, with an order to be paid by it. -/
def payPalStore : Database :=
  (storeWith Tenant.plain (.fresh .paypal 1000)).set (.setting 0 .paypal) (some ⟨true, none⟩)

/-- PayPal opens its order `reference`, and answers its capture with `status`. The ids
that are drawn count up. -/
def payPalAnswers (reference : Id) (status : CaptureStatus) : Answers shop := fun n c =>
  { fresh := match c with
      | .createCheckout _ _ => reference
      | _ => 100 + n
    captured := some (tenDollars reference status) : Outside }.answer c

/-- The buyer's card was declined at PayPal, and the buyer tries again. -/
def declinedOnce : Database :=
  serve (S := shop) (payPalAnswers 70 .declined) (handler (.capturePayPalOrder 0 0))
    (serve (S := shop) (payPalAnswers 70 .declined) (handler (.createPayPalCheckout 0 0))
      payPalStore)

def reopened : Database :=
  serve (S := shop) (payPalAnswers 71 .completed) (handler (.createPayPalCheckout 0 0)) declinedOnce

theorem reopened_keys : reopened.keys = [.tenant 0, .order 0, .setting 0 .paypal] := by
  decide +kernel

theorem reopened_order : ∃ o : Order, reopened.row (.order 0) = some o ∧
    (o.paymentStatus, o.paypalOrderId, o.grandTotal, o.currency) =
      (.failed, some 71, 1000, "USD") :=
  Option.map_eq_some_iff.1 (by decide +kernel : (reopened.row (.order 0)).map
    (fun o : Order => (o.paymentStatus, o.paypalOrderId, o.grandTotal, o.currency)) =
      some (.failed, some 71, (1000 : Cents), "USD"))

theorem reopened_bound : BoundTo reopened 71 0 := by
  intro id o ho _
  simpa [reopened_keys] using reopened.mem_keys_of_row ho

theorem reopened_fresh : FreshGrants (payPalAnswers 71 .completed) 0 reopened where
  unused m _ := reopened.row_eq_none _ (by simp [reopened_keys])
  distinct m m' h := by simpa [payPalAnswers, Outside.answer] using h

theorem reopened_captures {o : Order} (h : (o.paymentStatus, o.paypalOrderId, o.grandTotal,
    o.currency) = (.failed, some 71, 1000, "USD")) (n : ℕ) :
    ∃ state, payPalAnswers 71 .completed n (.captureOrder 71) = some state ∧
      state.Pays o 71 90 := by
  simp only [Prod.mk.injEq] at h
  obtain ⟨-, -, htotal, hcurrency⟩ := h
  refine ⟨tenDollars 71 .completed, rfl, rfl, nofun, rfl, rfl, ?_, ?_⟩
  · rw [htotal, hcurrency]
    decide +kernel
  · rw [hcurrency]
    rfl

/-- The second PayPal order is approved, and the buyer's return does not settle it. -/
theorem retry_unsettled : ¬ ∀ (answer answer' : Answers shop) (db db' : Database)
    (tenantId id reference capture : Id) (o : Order) (report : Report),
    Succeeds (S := shop) answer (handler (.createPayPalCheckout tenantId id)) db →
    db'.row (.order id) =
      (serve (S := shop) answer (handler (.createPayPalCheckout tenantId id)) db).row (.order id) →
    db'.row (.order id) = some o → o.paypalOrderId = some reference →
    BoundTo db' reference id → FreshGrants answer' 0 db' →
    (∀ n, ∃ state, answer' n (.captureOrder reference) = some state ∧
      state.Pays o reference capture) →
    Settles answer' (report.request tenantId id reference capture o) db' id capture := by
  intro h
  obtain ⟨o, ho, hcolumns⟩ := reopened_order
  have hsettles := h (payPalAnswers 71 .completed) (payPalAnswers 71 .completed) declinedOnce
    reopened 0 0 71 90 o .returned (succeeds_of_isOk (by decide +kernel)) rfl ho
    (congrArg (fun x => x.2.1) hcolumns) reopened_bound reopened_fresh (reopened_captures hcolumns)
  obtain ⟨⟨o', ho', hpaid, -⟩, -⟩ := hsettles
  have hfailed : ((serve (S := shop) (payPalAnswers 71 .completed)
      (handler (.capturePayPalOrder 0 0)) reopened).row (.order 0)).map
        (fun o : Order => o.paymentStatus) = some .failed := by decide +kernel
  rw [Report.request] at ho'
  rw [ho', Option.map_some, hpaid] at hfailed
  cases hfailed

/-- The event of the completed capture settles the second attempt. -/
theorem settles_retry : ∃ o, Settles (payPalAnswers 71 .completed)
    (Report.captured.request 0 0 71 90 o) reopened 0 90 := by
  obtain ⟨o, ho, hcolumns⟩ := reopened_order
  have hopened : Succeeds (S := shop) (payPalAnswers 71 .completed)
      (handler (.createPayPalCheckout 0 0)) declinedOnce := succeeds_of_isOk (by decide +kernel)
  refine ⟨o, (settles_iff hopened rfl ho (congrArg (fun x => x.2.1) hcolumns) reopened_bound
    reopened_fresh (reopened_captures hcolumns) .captured).2 (.inl rfl)⟩

end WhatStore
