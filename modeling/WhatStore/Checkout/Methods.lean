import WhatStore.Checkout.Quote
import WhatStore.Services.Storefront

/-!
# The payment methods a store lists and accepts

`findPublicBySlug` lists the methods that are set up, enabled and part of the
plan. Creating an order and opening a checkout each check some of this anew:
every order needs the plan, Zelle and message orders need the settings of the
store, and of the three gateways only a PayPal checkout asks whether the
merchant has enabled it.
-/

namespace WhatStore

open ReadCommitted ReadCommitted.Prog

def Gateway.provider : Gateway → PaymentProvider
  | .stripe => .stripe
  | .mercadoPago => .mercadoPago
  | .paypal => .paypal

def gatewayEnabled (db : Database) (t : Id) (g : Gateway) : Bool :=
  (db.row (.setting t g.provider)).any TenantPaymentSetting.isEnabled

def credentialsOf (db : Database) (t : Id) (provider : PaymentProvider) :
    Except Err (Option Credentials) :=
  match db.row (.setting t provider) with
  | none => .ok none
  | some s =>
    if !s.isEnabled then .ok none
    else match s.credentials with
      | none => .error (.badRequest "Payment credentials corrupted")
      | some credentials => .ok (some credentials)

/-- The plan of each store allows the methods `plan`. -/
def PlanAllows (plan : Id → List FulfillmentMethod) (answer : Answers shop) : Prop :=
  ∀ n t, answer n (.fulfillmentMethods t) = plan t

/-- The public page of the store offers the method. -/
def Lists (answer : Answers shop) (db : Database) (slug : String) (method : FulfillmentMethod) :
    Prop :=
  ∃ store, ((findPublicBySlug slug).exec (S := shop) answer 0 (.start db)).value = .ok store ∧
    method ∈ store.checkoutMethods

def createCheckout : Gateway → Id → Id → Prog shop Unit
  | .stripe => createStripeCheckout
  | .mercadoPago => createMercadoPagoCheckout
  | .paypal => createPayPalCheckout

variable {db : Database} {answer : Answers shop} {plan : Id → List FulfillmentMethod} {t : Id}
  {tenant : Tenant} {slug : String}

/-! ## What is listed -/

theorem zelleCredentials_gives :
    (zelleCredentials t).Gives (S := shop) answer db (credentialsOf db t .zelle) := by
  have hcredentials : (getDecryptedCredentials t .zelle).Gives (S := shop) answer db
      (credentialsOf db t .zelle) := by
    refine gives_ask ?_
    split
    · next hnone =>
        have hrow : db.row (.setting t .zelle) = none := hnone
        rw [credentialsOf, hrow]
        exact gives_ret _
    · next s hs =>
        have hrow : db.row (.setting t .zelle) = some s := hs
        rw [credentialsOf, hrow]
        simp only
        split
        · exact gives_ret _
        · cases s.credentials with
          | none => exact gives_throw _
          | some credentials => exact gives_ret _
  have hbind : credentialsOf db t .zelle = (credentialsOf db t .zelle >>= .ok) := by
    cases credentialsOf db t .zelle <;> rfl
  rw [hbind]
  exact Gives.seq hcredentials fun a _ => gives_finish (gives_ret a)

theorem findPublicBySlug_gives (hstore : Query.eval (.tenantBySlug slug) db = some (t, tenant))
    (hplan : PlanAllows plan answer) :
    (findPublicBySlug slug).Gives (S := shop) answer db (.ok (publicStore t tenant
      (credentialsOf db t .zelle).toOption.join (Query.eval (.enabledGateways t) db) (plan t))) := by
  have hstore' : shop.eval (.tenantBySlug slug) db = some (t, tenant) := hstore
  refine gives_ask (gives_demand (fun hnone => ?_) fun x hx => ?_)
  · rw [hstore'] at hnone
    cases hnone
  cases hstore'.symm.trans hx
  have hrest : ∀ credentials : Option (Option Credentials), (do
      let enabledGateways : List PaymentProvider ← .query (.enabledGateways t) .ret
      commit
      let allowed : List FulfillmentMethod ← .call (.fulfillmentMethods t) .ret
      .ret (publicStore t tenant credentials.join enabledGateways allowed) :
        Prog shop PublicStore).Gives (S := shop) answer db (.ok (publicStore t tenant
          credentials.join (Query.eval (.enabledGateways t) db) (plan t))) := fun credentials =>
    gives_ask (gives_finish (gives_invoke (hplan · t) (gives_ret _)))
  exact Gives.seq zelleCredentials_gives.attempt fun credentials _ => hrest credentials

/-- What `Zelle` needs is that its settings can be read. -/
def zelleReady (db : Database) (t : Id) : Prop :=
  ∃ credentials, credentialsOf db t .zelle = .ok (some credentials)

theorem mem_enabledGateways (g : Gateway) :
    g.provider ∈ Query.eval (.enabledGateways t) db ↔ gatewayEnabled db t g = true := by
  rw [Query.eval, List.mem_filter]
  cases g <;> simp [Gateway.provider, gatewayEnabled]

/-- A method is listed when the plan allows it and the store has set it up. -/
theorem lists_iff (hstore : Query.eval (.tenantBySlug slug) db = some (t, tenant))
    (hplan : PlanAllows plan answer) (method : FulfillmentMethod) :
    Lists answer db slug method ↔ method ∈ plan t ∧ match method with
      | .whatsapp => tenant.whatsappEnabled = true
      | .telegram => tenant.telegramEnabled = true
      | .zelle => zelleReady db t
      | .stripe => gatewayEnabled db t .stripe = true
      | .mercadoPago => gatewayEnabled db t .mercadoPago = true
      | .paypal => gatewayEnabled db t .paypal = true := by
  have hgives := (findPublicBySlug_gives hstore hplan).value (n := 0)
  have hzelle : (credentialsOf db t .zelle).toOption.join.isSome = true ↔ zelleReady db t := by
    rw [zelleReady]
    cases credentialsOf db t .zelle with
    | error e => simp [Except.toOption]
    | ok credentials => cases credentials <;> simp [Except.toOption]
  have hgateway : ∀ g : Gateway, g.provider ∈ Query.eval (.enabledGateways t) db ↔
      gatewayEnabled db t g = true := mem_enabledGateways
  have hmem : Lists answer db slug method ↔ method ∈ (publicStore t tenant
      (credentialsOf db t .zelle).toOption.join (Query.eval (.enabledGateways t) db)
      (plan t)).checkoutMethods := by
    rw [Lists, hgives]
    simp
  rw [hmem, publicStore, List.mem_filter]
  refine and_congr_right fun hallowed => ?_
  cases method with
  | whatsapp => simp [configured, hallowed]
  | telegram => simp [configured, hallowed]
  | zelle => simp [configured, hallowed, hzelle]
  | stripe => exact List.contains_iff_mem.trans (hgateway .stripe)
  | mercadoPago => exact List.contains_iff_mem.trans (hgateway .mercadoPago)
  | paypal => exact List.contains_iff_mem.trans (hgateway .paypal)

/-! ## What is accepted -/

variable {A : (c : Call) → c.Answer → Prop} {σ : Session shop}

def UnderPlan (plan : Id → List FulfillmentMethod) : (c : Call) → c.Answer → Prop
  | .fulfillmentMethods t, methods => methods = plan t
  | _, _ => True

theorem underPlan_of_planAllows (hplan : PlanAllows plan answer) (n : ℕ) (c : Call) :
    UnderPlan plan c (answer n c) := by
  cases c <;> first | trivial | exact hplan n _

theorem tenantBySlug_row (hstore : Query.eval (.tenantBySlug slug) db = some (t, tenant)) :
    db.row (.tenant t) = some tenant := by
  obtain ⟨k, -, hk⟩ := List.exists_of_findSome?_eq_some hstore
  cases k with
  | tenant id =>
      obtain ⟨x, hx, heq⟩ := Option.map_eq_some_iff.1 hk
      cases heq
      exact (Option.filter_eq_some_iff.1 hx).1
  | _ => cases hk

/-- What creating an order asks of its payment method. -/
def Accepts (db : Database) (t : Id) (tenant : Tenant) (plan : Id → List FulfillmentMethod)
    (method : FulfillmentMethod) : Prop :=
  method ∈ plan t ∧ (method = .whatsapp → tenant.whatsappEnabled = true) ∧
    (method = .telegram → tenant.telegramEnabled = true) ∧ (method = .zelle → zelleReady db t)

theorem assertZelleConfigured_ensures :
    (assertZelleConfigured t).Ensures (S := shop) A σ fun _ _ => zelleReady σ.view t := by
  have hcredentials : (getDecryptedCredentials t .zelle).Ensures (S := shop) A σ
      fun credentials _ => credentialsOf σ.view t .zelle = .ok credentials := by
    refine ensures_ask ?_
    split
    · next hnone =>
        have hrow : σ.view.row (.setting t .zelle) = none := hnone
        exact ensures_ret (by rw [credentialsOf, hrow])
    · next s hs =>
        have hrow : σ.view.row (.setting t .zelle) = some s := hs
        split
        · next henabled => exact ensures_ret (by simp only [credentialsOf, hrow, henabled, if_true])
        · next henabled =>
            refine ensures_demand fun credentials hc => ensures_ret ?_
            simp only [credentialsOf, hrow, henabled, hc, if_false, Bool.false_eq_true]
  refine Ensures.seq hcredentials fun credentials _ hc => ensures_throwIf.2 fun hsome => ?_
  obtain ⟨c, rfl⟩ := Option.isSome_iff_exists.1 (by simpa using hsome)
  exact ⟨c, hc⟩

/-- A message order is dispatched only through a channel the store has enabled. -/
theorem dispatchMessageFulfillment_ensures {id : Id} {method : FulfillmentMethod}
    (hmethod : method.byMessage = true) :
    (dispatchMessageFulfillment t tenant id method).Ensures (S := shop) A σ fun _ _ =>
      (method = .whatsapp → tenant.whatsappEnabled = true) ∧
        (method = .telegram → tenant.telegramEnabled = true) := by
  refine ensures_require fun _ => ?_
  cases method with
  | whatsapp =>
      refine ensures_throwIf.2 fun henabled => ?_
      simp only [Bool.or_eq_false_iff] at henabled
      simpa using henabled.1
  | telegram =>
      refine ensures_check fun henabled => ?_
      simp only [Bool.or_eq_false_iff] at henabled
      refine ensures_invoke fun queued _ => ensures_throwIf.2 fun _ => ?_
      simpa using henabled.1.1
  | _ => cases hmethod

theorem create_accepts (htenant : db.row (.tenant t) = some tenant) (dto : CreateOrder) :
    (create t dto).Ensures (S := shop) (UnderPlan plan) (.start db) fun _ _ =>
      Accepts db t tenant plan dto.fulfillmentMethod := by
  refine ensures_check fun _ => ensures_ask (ensures_demand fun tenant' htenant' => ?_)
  cases htenant.symm.trans htenant'
  refine ensures_invoke fun methods hmethods => ensures_check fun hallowed => ?_
  cases hmethods
  have hplan : dto.fulfillmentMethod ∈ plan t := by simpa using hallowed
  have hzelle : (runIf (dto.fulfillmentMethod == .zelle) (assertZelleConfigured t)).Ensures
      (S := shop) (UnderPlan plan) (.start db) fun _ _ =>
        dto.fulfillmentMethod = .zelle → zelleReady db t := by
    refine ensures_runIf.2 ⟨fun _ => ?_, fun hnot heq => ?_⟩
    · exact assertZelleConfigured_ensures.mono fun _ _ hready _ => hready
    · simp [heq] at hnot
  refine Ensures.seq hzelle fun _ σ₁ hready => ?_
  refine ensures_pass fun _ σ₂ => ensures_pass fun priced σ₃ => ensures_pass fun _ σ₄ => ?_
  -- the rest is the same whether a coupon was redeemed or not
  have hrest : ∀ σ₅, (do
      let createdAt ← now
      let orderId ← uuid
      insertOne (.insertOrder orderId
        (newOrder t tenant dto (priced.coupon.map Prod.fst) priced.totals createdAt))
      Prog.each (createItem t orderId) priced.pricedLines
      Prog.runIf dto.fulfillmentMethod.byMessage
        (dispatchMessageFulfillment t tenant orderId dto.fulfillmentMethod)
      Prog.runIf (dto.customerEmail.isSome && !tenant.catalogType == .digital)
        (queueConfirmationEmail t orderId)
      .call (.emitOrderEvent orderId) .ret : Prog shop Unit).Ensures (S := shop) (UnderPlan plan)
        σ₅ fun _ _ => Accepts db t tenant plan dto.fulfillmentMethod := by
    intro σ₅
    refine ensures_pass fun createdAt σ₆ => ensures_pass fun orderId σ₇ => ?_
    refine ensures_pass fun _ σ₈ => ensures_pass fun _ σ₉ => ?_
    refine Ensures.seq (Q := fun _ _ => Accepts db t tenant plan dto.fulfillmentMethod)
      (ensures_runIf.2 ⟨fun hmessage => ?_, fun hmessage => ?_⟩) fun _ σ₁₀ haccepts =>
        ensures_pass fun _ σ₁₁ => ensures_invoke fun _ _ => haccepts
    · exact (dispatchMessageFulfillment_ensures hmessage).mono fun _ _ henabled =>
        ⟨hplan, henabled.1, henabled.2, hready⟩
    · refine ⟨hplan, fun heq => ?_, fun heq => ?_, hready⟩
      · simp [heq, FulfillmentMethod.byMessage] at hmessage
      · simp [heq, FulfillmentMethod.byMessage] at hmessage
  split
  · exact hrest σ₄
  · exact ensures_pass fun _ σ₅ => hrest σ₅

/-! ## Opening a checkout -/

/-- A checkout is opened for an order of its gateway; PayPal has to be enabled. -/
theorem createCheckout_ensures (g : Gateway) (id : Id) :
    (createCheckout g t id).Ensures (S := shop) A (.start db) fun _ _ =>
      (∃ o, orderOf db t id = some o ∧ o.fulfillmentMethod.gateway = some g) ∧
        (g = .paypal → gatewayEnabled db t .paypal = true) := by
  cases g with
  | stripe =>
      refine ensures_ask (ensures_demand fun x hx => ensures_check fun hmethod => ?_)
      have hmethod' : x.1.fulfillmentMethod = .stripe := by simpa using hmethod
      exact (ensures_true _).mono fun _ _ _ =>
        ⟨⟨x.1, (eval_orderWithItems hx).1, by rw [hmethod']; rfl⟩, nofun⟩
  | mercadoPago =>
      refine ensures_ask (ensures_demand fun x hx => ensures_check fun hmethod => ?_)
      have hmethod' : x.1.fulfillmentMethod = .mercadoPago := by simpa using hmethod
      exact (ensures_true _).mono fun _ _ _ =>
        ⟨⟨x.1, (eval_orderWithItems hx).1, by rw [hmethod']; rfl⟩, nofun⟩
  | paypal =>
      refine ensures_ask (ensures_ask (ensures_ask (ensures_demand fun tenant _ => ?_)))
      refine Ensures.seq (Q := fun _ _ => True) trivial fun _ σ₁ _ => ?_
      refine ensures_demand fun x hx => ensures_check fun hmethod => ?_
      refine ensures_check fun henabled => ?_
      have hmethod' : x.1.fulfillmentMethod = .paypal := by simpa using hmethod
      refine (ensures_true _).mono fun _ _ _ =>
        ⟨⟨x.1, (eval_orderWithItems hx).1, by rw [hmethod']; rfl⟩, fun _ => ?_⟩
      exact Bool.not_eq_false' _ ▸ henabled

theorem FulfillmentMethod.eq_of_gateway {method : FulfillmentMethod} {g : Gateway}
    (h : method.gateway = some g) : method = match g with
      | .stripe => .stripe
      | .mercadoPago => .mercadoPago
      | .paypal => .paypal := by
  cases method <;> cases h <;> rfl

/-- An order that is created is one of a listed method exactly when the merchant
has enabled its gateway, if it has one. A checkout that is opened is one of a
listed method exactly when the plan still allows the method and the merchant has
enabled its gateway. -/
theorem accepted_listed_iff {answer' : Answers shop}
    (hstore : Query.eval (.tenantBySlug slug) db = some (t, tenant))
    (hplan : PlanAllows plan answer) (hplan' : PlanAllows plan answer') :
    (∀ dto, Succeeds (S := shop) answer (create t dto) db →
      (Lists answer' db slug dto.fulfillmentMethod ↔
        ∀ g, dto.fulfillmentMethod.gateway = some g → gatewayEnabled db t g = true)) ∧
      ∀ g id, Succeeds (S := shop) answer (createCheckout g t id) db →
        ∃ o, orderOf db t id = some o ∧ o.fulfillmentMethod.gateway = some g ∧
          (Lists answer' db slug o.fulfillmentMethod ↔
            o.fulfillmentMethod ∈ plan t ∧ gatewayEnabled db t g = true) := by
  constructor
  · intro dto hcreate
    obtain ⟨hallowed, hwhatsapp, htelegram, hzelle⟩ :=
      (create_accepts (tenantBySlug_row hstore) dto).of_exec (underPlan_of_planAllows hplan) hcreate
    rw [lists_iff hstore hplan']
    cases hmethod : dto.fulfillmentMethod with
    | whatsapp => simp [FulfillmentMethod.gateway, hwhatsapp hmethod, ← hmethod, hallowed]
    | telegram => simp [FulfillmentMethod.gateway, htelegram hmethod, ← hmethod, hallowed]
    | zelle => simp [FulfillmentMethod.gateway, hzelle hmethod, ← hmethod, hallowed]
    | stripe => simp [FulfillmentMethod.gateway, ← hmethod, hallowed]
    | mercadoPago => simp [FulfillmentMethod.gateway, ← hmethod, hallowed]
    | paypal => simp [FulfillmentMethod.gateway, ← hmethod, hallowed]
  · intro g id hcheckout
    obtain ⟨⟨o, ho, hmethod⟩, -⟩ := (createCheckout_ensures (A := fun _ _ => True) g id).of_exec
      (fun _ _ => trivial) hcheckout
    refine ⟨o, ho, hmethod, ?_⟩
    rw [lists_iff hstore hplan', FulfillmentMethod.eq_of_gateway hmethod]
    cases g <;> rfl

/-- The merchant has enabled no gateway, and two mugs are ordered by card. -/
theorem accepted_unlisted : ¬ ∀ (db : Database) (answer answer' : Answers shop)
    (plan : Id → List FulfillmentMethod) (slug : String) (t : Id) (tenant : Tenant)
    (dto : CreateOrder), Query.eval (.tenantBySlug slug) db = some (t, tenant) →
      PlanAllows plan answer → PlanAllows plan answer' →
        Succeeds (S := shop) answer (create t dto) db →
          Lists answer' db slug dto.fulfillmentMethod := by
  intro h
  have hlists := h mugStore (steady {}) (steady {})
    (fun t => ({} : Outside).answer (.fulfillmentMethods t)) "mugs" 0
    { Tenant.plain with tracksInventory := true } twoMugs rfl (fun _ _ => rfl) (fun _ _ => rfl)
    (succeeds_of_isOk (by decide +kernel))
  have hplan : PlanAllows (fun t => ({} : Outside).answer (.fulfillmentMethods t)) (steady {}) :=
    fun _ _ => rfl
  have henabled := (lists_iff rfl hplan .stripe).1 hlists
  exact absurd henabled.2 (by decide)

def cardStore : Database :=
  mugStore.set (.setting 0 .stripe) (some ⟨true, some ⟨none⟩⟩)

/-- Card payments are enabled, so the mugs are ordered by a listed method. -/
theorem accepted_listed_mugs : Lists (steady {}) cardStore "mugs" .stripe := by
  have hcreate : Succeeds (S := shop) (steady {}) (create 0 twoMugs) cardStore :=
    succeeds_of_isOk (by decide +kernel)
  have hplan : PlanAllows (fun t => ({} : Outside).answer (.fulfillmentMethods t)) (steady {}) :=
    fun _ _ => rfl
  have hstore : Query.eval (.tenantBySlug "mugs") cardStore =
      some (0, { Tenant.plain with tracksInventory := true }) := rfl
  refine ((accepted_listed_iff hstore hplan hplan).1 twoMugs hcreate).2 ?_
  rintro g ⟨⟩
  decide

end WhatStore
