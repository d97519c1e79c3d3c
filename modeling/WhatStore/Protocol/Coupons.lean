import WhatStore.Protocol.Whole

/-!
# Coupon uses, one transaction at a time

Which coupon updates a transaction holds when it commits: an order is created
together with the use of its coupon, and cancelled together with the release of
the coupon it was read with. A release is only attempted right after its
cancellation.
-/

namespace WhatStore

open ReadCommitted ReadCommitted.Prog

variable {h h' : List Ev} {α : Type} {Q : α → List Ev → Prop}

/-- The updates that create orders, cancel them, or move a coupon's count. -/
def Update.movesCoupon : Update → Bool
  | .insertOrder _ _ => true
  | .claimStatus _ _ new _ => new == .cancelled
  | .sweepCancel _ => true
  | .redeem _ _ => true
  | .releaseCoupon _ => true
  | _ => false

/-- The update cancels the order `id`. -/
def Update.Cancels (id : Id) : Update → Prop
  | .claimStatus id' _ new _ => id' = id ∧ new = .cancelled
  | .sweepCancel id' => id' = id
  | _ => False

def couponTx (h : List Ev) : List Update := (openTx (S := shop) h).filter Update.movesCoupon

/-- The process has read the order `id` as `o`, before its transaction wrote
it or after. -/
def ReadsOrder (id : Id) (o : Order) (h : List Ev) : Prop :=
  OrderSaw id o h ∨ Sees (S := shop) (.order id) (some o) h

/-- What the coupon updates of a transaction are when it ends. -/
inductive CouponsBalanced (h : List Ev) : Prop where
  | untouched (htx : couponTx h = [])
  | created (id : Id) (o : Order) (couponId : Id) (limit : Option Int)
      (htx : couponTx h = [.insertOrder id o, .redeem couponId limit])
      (ho : o.couponId = some couponId)
  | createdWithout (id : Id) (o : Order) (htx : couponTx h = [.insertOrder id o])
      (ho : o.couponId = none)
  | cancelled (u : Update) (id : Id) (o : Order) (couponId : Id) (hu : u.Cancels id)
      (hread : ReadsOrder id o h) (htx : couponTx h = [.releaseCoupon couponId, u])
      (ho : o.couponId = some couponId)
  | cancelledWithout (u : Update) (id : Id) (o : Order) (hu : u.Cancels id)
      (hread : ReadsOrder id o h) (htx : couponTx h = [u]) (ho : o.couponId = none)
  | missed (u : Update) (id : Id) (o : Order) (couponId : Id) (hu : u.Cancels id)
      (hread : ReadsOrder id o h) (htx : couponTx h = [u]) (ho : o.couponId = some couponId)
      (hmiss : .update (.releaseCoupon couponId) false ∈ h)

def CouponLaw (h : List Ev) : Ev → Prop
  | .committed _ => CouponsBalanced h
  | .returned _ => CouponsBalanced h
  | .update (.releaseCoupon couponId) _ => ∃ u id o, u.Cancels id ∧ couponTx h = [u] ∧
      ReadsOrder id o h ∧ o.couponId = some couponId
  | _ => True

def Update.couponFree (u : Update) : Prop := u.movesCoupon = false

theorem couponTx_extends {A : Update → Prop} (e : Extends (S := shop) A h h')
    (hA : ∀ u, A u → u.couponFree) : couponTx h' = couponTx h := by
  obtain ⟨us, hus, hall⟩ := e.tx
  rw [couponTx, hus, List.filter_append,
    List.filter_eq_nil_iff.2 fun u hu => by rw [hA u (hall u hu)]; decide]
  rfl

theorem ReadsOrder.extends {A : Update → Prop} {id : Id} {o : Order} (hr : ReadsOrder id o h)
    (e : Extends (S := shop) A h h') (hA : ∀ u, A u → u.key ≠ .order id) :
    ReadsOrder id o h' := by
  rcases hr with hr | hr
  · exact .inl (Saw.mono hr e.suffix)
  · exact .inr (hr.extends e hA)

theorem couponLaw_lenient : Prog.Lenient CouponLaw where
  query _ _ _ := trivial
  call _ _ _ := trivial
  threw _ _ := trivial

theorem couponLaw_of_within {A : Update → Prop} (hA : ∀ u, A u → u.couponFree) (h : List Ev)
    (e : Ev) (he : WithinTx (S := shop) A h e) : CouponLaw h e := by
  cases e with
  | update u hit =>
      have hfree := hA u he
      cases u with
      | releaseCoupon id => cases hfree
      | _ => trivial
  | committed tx => exact he.elim
  | returned tx => exact he.elim
  | _ => trivial

theorem coupon_within {p : Prog shop α} {A : Update → Prop} (hA : ∀ u, A u → u.couponFree)
    (hp : p.Within (S := shop) A) :
    p.Along CouponLaw h fun _ h' => Extends (S := shop) A h h' :=
  (((hp h).weaken (couponLaw_of_within hA)).within hp).mono fun _ _ hh => hh.2

theorem coupon_skip {β : Type} {p : Prog shop β} {f : β → Prog shop α} {A : Update → Prop}
    (hA : ∀ u, A u → u.couponFree) (hp : p.Within (S := shop) A)
    (hk : ∀ b h', Extends (S := shop) A h h' → (f b).Along CouponLaw h' Q) :
    (p >>= f).Along CouponLaw h Q :=
  hp.skip (couponLaw_of_within hA) hk

theorem noUpdate_couponFree (u : Update) (hu : noUpdate u) : u.couponFree := hu.elim

theorem isTake_couponFree (u : Update) (hu : u.isTake) : u.couponFree := by
  cases u <;> first | rfl | exact hu.elim

theorem isInsertItem_couponFree (u : Update) (hu : u.isInsertItem) : u.couponFree := by
  cases u <;> first | rfl | exact hu.elim

theorem isGive_couponFree (u : Update) (hu : u.isGive) : u.couponFree := by
  cases u <;> first | rfl | exact hu.elim

theorem isDigital_couponFree (u : Update) (hu : u.isDigital) : u.couponFree := by
  cases u <;> first | rfl | exact hu.elim

theorem corrects_couponFree (u : Update) (hu : u.corrects) : u.couponFree := by
  cases u <;> first | rfl | exact hu.elim

/-! ## Creating an order -/

theorem coupon_create_rest {t : Id} {dto : CreateOrder} {tenant : Tenant} {priced : PricedOrder}
    (hbalanced : ∀ id o h', couponTx h' = .insertOrder id o :: couponTx h →
      o.couponId = priced.coupon.map Prod.fst → CouponsBalanced h') :
    (do
      let createdAt ← now
      let orderId ← uuid
      insertOne (.insertOrder orderId
        (newOrder t tenant dto (priced.coupon.map Prod.fst) priced.totals createdAt))
      Prog.each (createItem t orderId) priced.pricedLines
      Prog.runIf dto.fulfillmentMethod.byMessage
        (dispatchMessageFulfillment t tenant orderId dto.fulfillmentMethod)
      Prog.runIf (dto.customerEmail.isSome && !tenant.catalogType == .digital)
        (queueConfirmationEmail t orderId)
      .call (.emitOrderEvent orderId) .ret : Prog shop Unit).Along CouponLaw h
        fun _ h' => CouponsBalanced h' := by
  refine coupon_skip noUpdate_couponFree within_call fun createdAt h₁ e₁ => ?_
  refine coupon_skip noUpdate_couponFree within_call fun orderId h₂ e₂ => ?_
  have hbefore : couponTx h₂ = couponTx h :=
    (couponTx_extends e₂ noUpdate_couponFree).trans (couponTx_extends e₁ noUpdate_couponFree)
  refine couponLaw_lenient.require (fun _ => trivial) ?_
  refine coupon_skip isInsertItem_couponFree (within_each fun l => within_createItem t orderId l)
    fun _ h₃ e₃ => ?_
  refine coupon_skip (A := Update.couponFree) (fun _ hu => hu) (within_runIf
    ((within_dispatchMessageFulfillment t orderId tenant _).mono fun u hu => ?_)) fun _ h₄ e₄ => ?_
  · rw [hu]
    rfl
  refine coupon_skip noUpdate_couponFree (within_runIf (within_enqueue _ _)) fun _ h₅ e₅ => ?_
  refine (coupon_within noUpdate_couponFree within_call).mono fun _ h₆ e₆ => ?_
  refine hbalanced orderId (newOrder t tenant dto (priced.coupon.map Prod.fst) priced.totals
    createdAt) h₆ ?_ rfl
  rw [couponTx_extends e₆ noUpdate_couponFree, couponTx_extends e₅ noUpdate_couponFree,
    couponTx_extends e₄ fun _ hu => hu, couponTx_extends e₃ isInsertItem_couponFree, ← hbefore]
  rfl

theorem coupon_create (t : Id) (dto : CreateOrder) : (create t dto).Follows CouponLaw := by
  refine coupon_skip noUpdate_couponFree within_throwIf fun _ h₁ e₁ => ?_
  refine coupon_skip noUpdate_couponFree (within_getTenant t) fun tenant h₂ e₂ => ?_
  refine coupon_skip noUpdate_couponFree within_call fun _ h₃ e₃ => ?_
  refine coupon_skip noUpdate_couponFree within_throwIf fun _ h₄ e₄ => ?_
  refine coupon_skip noUpdate_couponFree (within_runIf (within_bind
    (within_getDecryptedCredentials t .zelle) fun _ => within_throwIf)) fun _ h₅ e₅ => ?_
  refine coupon_skip noUpdate_couponFree (within_runIf (within_assertDigitalOrder dto))
    fun _ h₆ e₆ => ?_
  refine coupon_skip noUpdate_couponFree (within_priceOrder t _ _ _ _) fun priced h₇ e₇ => ?_
  refine coupon_skip isTake_couponFree (within_runIf (within_reserveStock _)) fun _ h₈ e₈ => ?_
  have hnone : couponTx h₈ = [] := by
    rw [couponTx_extends e₈ isTake_couponFree]
    have e := (e₁.trans e₂).trans ((e₃.trans e₄).trans ((e₅.trans e₆).trans e₇))
    rw [couponTx_extends e noUpdate_couponFree]
    rfl
  split
  · next hcoupon =>
      refine coupon_create_rest fun id o h' htx ho => ?_
      rw [hnone] at htx
      exact .createdWithout id o htx (by rw [ho, hcoupon]; rfl)
  · next c coupon hcoupon =>
      refine couponLaw_lenient.require (fun _ => trivial) ?_
      refine coupon_create_rest fun id o h' htx ho => ?_
      refine .created id o c coupon.usageLimit ?_ (by rw [ho, hcoupon]; rfl)
      rw [htx, couponTx, openTx_hit, List.filter_cons_of_pos rfl]
      exact congrArg _ (congrArg _ hnone)

/-! ## Moving an order -/

/-- What a status change has done with coupons before it releases one: the
cancellation of the order it read, or nothing. -/
structure StatusClaimed (id : Id) (o : Order) (status : OrderStatus) (h : List Ev) : Prop where
  saw : OrderSaw id o h
  tx : couponTx h = if status = .cancelled ∧ o.status ≠ .cancelled then
    [.claimStatus id o.status status (o.paymentData status)] else []

theorem StatusClaimed.extends {A : Update → Prop} {id : Id} {o : Order} {status : OrderStatus}
    (hs : StatusClaimed id o status h) (e : Extends (S := shop) A h h')
    (hA : ∀ u, A u → u.couponFree) : StatusClaimed id o status h' :=
  ⟨Saw.mono hs.saw e.suffix, (couponTx_extends e hA).trans hs.tx⟩

theorem coupon_releaseCoupon {id : Id} {o : Order} {u : Update} (hu : u.Cancels id)
    (hread : ReadsOrder id o h) (htx : couponTx h = [u]) :
    (releaseCoupon o).Along CouponLaw h fun _ h' => CouponsBalanced h' := by
  unfold releaseCoupon
  split
  · next c hc =>
      intro hit
      refine ⟨⟨u, id, o, hu, htx, hread, hc⟩, ?_⟩
      have hread' : ∀ hit, ReadsOrder id o (.update (.releaseCoupon c) hit :: h) := fun hit =>
        hread.extends (A := (· = .releaseCoupon c)) (.cons rfl nofun) fun v hv => by rw [hv]; nofun
      cases hit with
      | false => exact .missed u id o c hu (hread' false) htx hc List.mem_cons_self
      | true =>
          refine .cancelled u id o c hu (hread' true) ?_ hc
          · rw [couponTx, openTx_hit, List.filter_cons_of_pos rfl]
            exact congrArg _ htx
  · next hc => exact .cancelledWithout u id o hu hread htx hc

theorem CouponsBalanced.extends (hb : CouponsBalanced h) (e : Extends (S := shop) noUpdate h h') :
    CouponsBalanced h' := by
  have htx := couponTx_extends e noUpdate_couponFree
  cases hb with
  | untouched h₀ => exact .untouched (htx.trans h₀)
  | created id o c limit h₀ ho => exact .created id o c limit (htx.trans h₀) ho
  | createdWithout id o h₀ ho => exact .createdWithout id o (htx.trans h₀) ho
  | cancelled u id o c hu hread h₀ ho =>
      exact .cancelled u id o c hu (hread.extends e fun _ hu => hu.elim) (htx.trans h₀) ho
  | cancelledWithout u id o hu hread h₀ ho =>
      exact .cancelledWithout u id o hu (hread.extends e fun _ hu => hu.elim) (htx.trans h₀) ho
  | missed u id o c hu hread h₀ ho hmiss =>
      exact .missed u id o c hu (hread.extends e fun _ hu => hu.elim) (htx.trans h₀) ho
        (e.suffix.subset hmiss)

theorem coupon_updateStatus (t id : Id) (status : OrderStatus) (canRefund : Bool) :
    (updateStatus t id status canRefund).Follows CouponLaw := by
  refine couponLaw_lenient.ask fun s => couponLaw_lenient.demand fun x hx => ?_
  have hsaw : OrderSaw id x.1 _ := orderSaw_orderWithItems (h := []) hx (by simp [locks])
  obtain ⟨o, items⟩ := x
  refine coupon_skip noUpdate_couponFree within_throwIf fun _ h₁ e₁ => ?_
  refine coupon_skip noUpdate_couponFree within_throwIf fun _ h₂ e₂ => ?_
  have e := e₁.trans e₂
  have hnone : couponTx h₂ = [] := couponTx_extends e noUpdate_couponFree
  have hsaw₂ : OrderSaw id o h₂ := Saw.mono hsaw e.suffix
  have hclaim : (runIf (status != o.status) (do
      let claimed ← updateMany (.claimStatus id o.status status (o.paymentData status))
      throwIf (!claimed) (.conflict
        "The order changed while you were editing it; reload and try again"))).Along CouponLaw h₂
        fun _ h' => StatusClaimed id o status h' := by
    refine along_runIf.2 ⟨fun hne hit => ⟨trivial, ?_⟩, fun heq => ⟨hsaw₂, ?_⟩⟩
    · cases hit with
      | false => exact trivial
      | true =>
          refine ⟨Saw.cons _ hsaw₂, ?_⟩
          have hne' : status ≠ o.status := by simpa using hne
          by_cases hcancel : status = .cancelled
          · subst hcancel
            simp [couponTx, Update.movesCoupon, hne'.symm] at hnone ⊢
            exact hnone
          · simp [couponTx, Update.movesCoupon, hcancel] at hnone ⊢
            exact hnone
    · have heq' : status = o.status := by simpa using heq
      rw [hnone, if_neg fun hh => hh.2 (heq' ▸ hh.1)]
  refine along_seq.2 (hclaim.mono fun _ h₃ hclaimed₃ => ?_)
  refine coupon_skip (A := Update.couponFree) (fun _ hu => hu) (within_runIf (within_updateOne rfl))
    fun _ h₄ e₄ => ?_
  refine coupon_skip isDigital_couponFree (within_runIf (within_revokeForOrder _ _))
    fun _ h₅ e₅ => ?_
  have hclaimed : StatusClaimed id o status h₅ :=
    (hclaimed₃.extends e₄ fun _ hu => hu).extends e₅ isDigital_couponFree
  have hrelease : (runIf (status == .cancelled && o.status != .cancelled) (do
      let tenant ← getTenant t
      runIf tenant.tracksInventory (releaseStock (items.map fun i => i.2.released))
      releaseCoupon o)).Along CouponLaw h₅ fun _ h' => CouponsBalanced h' := by
    refine along_runIf.2 ⟨fun hcancel => ?_, fun hkept => ?_⟩
    · have hcancel' : status = .cancelled ∧ o.status ≠ .cancelled := by simpa using hcancel
      refine coupon_skip noUpdate_couponFree (within_getTenant t) fun tenant h₆ e₆ => ?_
      refine coupon_skip isGive_couponFree (within_runIf (within_releaseStock _)) fun _ h₇ e₇ => ?_
      have hclaimed₇ := (hclaimed.extends e₆ noUpdate_couponFree).extends e₇ isGive_couponFree
      refine coupon_releaseCoupon ?_ (.inl hclaimed₇.saw)
        (hclaimed₇.tx.trans (if_pos hcancel'))
      exact ⟨rfl, hcancel'.1⟩
    · refine .untouched (hclaimed.tx.trans (if_neg ?_))
      simpa using hkept
  refine along_seq.2 (hrelease.mono fun _ h₆ hbalanced => ?_)
  refine coupon_skip noUpdate_couponFree (within_runIf (within_refundOrderPayment t o))
    fun _ h₇ e₇ => ?_
  refine coupon_skip noUpdate_couponFree within_query fun _ h₈ e₈ => ?_
  refine coupon_skip noUpdate_couponFree within_orThrow fun _ h₉ e₉ => ?_
  refine (coupon_within noUpdate_couponFree within_call).mono fun _ h₁₀ e₁₀ => ?_
  exact hbalanced.extends ((e₇.trans e₈).trans (e₉.trans e₁₀))

/-! ## Corrections and the sweep -/

theorem coupon_runHooks (jobs : List Job) (htx : couponTx h = []) :
    (runHooks jobs).Along CouponLaw h fun _ h' => CouponsBalanced h' := by
  refine (coupon_within noUpdate_couponFree (within_each fun job => ?_)).mono fun _ h' e => ?_
  · exact within_bind within_call fun _ => within_ret
  · exact .untouched ((couponTx_extends e noUpdate_couponFree).trans htx)

theorem coupon_updateDetails (t id : Id) (dto : UpdateOrder) :
    (thenHooks (updateDetails t id dto)).Follows CouponLaw := by
  refine coupon_skip corrects_couponFree (within_updateDetails t id dto) fun jobs h₁ e₁ => ?_
  exact ⟨.untouched (couponTx_extends e₁ corrects_couponFree), coupon_runHooks jobs rfl⟩

/-- The order is read after it was cancelled, in the same transaction. -/
theorem coupon_expireOrder (t id : Id) (htx : couponTx h = []) :
    (expireOrder t id).Along CouponLaw h fun _ h' => couponTx h' = [] := by
  refine Lenient.issue (fun _ => trivial) fun claimed => ?_
  refine along_seq.2 (Along.mono (Q := fun _ h' => CouponsBalanced h') ?_
    fun _ h₁ hbalanced => ⟨hbalanced, rfl⟩)
  refine along_runIf.2 ⟨?_, ?_⟩
  · rintro rfl
    refine couponLaw_lenient.ask fun s => couponLaw_lenient.demand fun x hx => ?_
    have hsees : Sees (S := shop) (.order id) (some x.1)
        (.query (.orderWithItems t id) (Query.eval (.orderWithItems t id) s) ::
          .update (.sweepCancel id) true :: h) :=
      .inl ⟨fun _ hs' => orderOf_eq_some (eval_orderWithItems (hs'.trans hx)).1,
        List.mem_cons_self⟩
    refine coupon_skip noUpdate_couponFree (within_getTenant t) fun tenant h₁ e₁ => ?_
    refine coupon_skip isGive_couponFree (within_runIf (within_releaseStock _)) fun _ h₂ e₂ => ?_
    refine coupon_releaseCoupon (u := .sweepCancel id) rfl (.inr ?_) ?_
    · refine (hsees.extends e₁ fun _ hu => hu.elim).extends e₂ fun u hu => ?_
      cases u with
      | give row n => cases row <;> simp
      | _ => exact hu.elim
    · rw [couponTx_extends e₂ isGive_couponFree, couponTx_extends e₁ noUpdate_couponFree]
      rw [couponTx, openTx_query, openTx_hit, List.filter_cons_of_pos rfl]
      exact congrArg _ htx
  · rintro rfl
    exact .untouched htx

theorem coupon_sweep : sweep.Follows CouponLaw := by
  refine couponLaw_lenient.invoke fun time => couponLaw_lenient.ask fun s => ?_
  refine Permissive.finish (.untouched rfl) ?_
  refine (along_each (I := fun _ h' => couponTx h' = []) rfl fun x _ h' htx => ?_).mono
    fun _ _ htx => .untouched htx
  refine along_seq.2 (Permissive.attempt ?_ fun _ => ⟨trivial, rfl⟩)
  exact (coupon_expireOrder x.2 x.1 htx).mono fun _ _ hh => hh

theorem handler_coupons (r : Request) (hr : r.trades = true) :
    (handler r).Follows CouponLaw := by
  cases r with
  | create t dto => exact coupon_create t dto
  | updateStatus t id status canRefund => exact coupon_updateStatus t id status canRefund
  | updateDetails t id dto => exact coupon_updateDetails t id dto
  | sweep => exact coupon_sweep
  | _ => cases hr

end WhatStore
