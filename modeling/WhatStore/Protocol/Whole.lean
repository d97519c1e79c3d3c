import WhatStore.Protocol.Corrections

/-!
# Requests that throw leave nothing behind

Orders are created, moved and corrected in the one transaction of their
request. A correction queues its jobs after that transaction and can no longer
throw then, and the sweep only logs an order it could not expire. So a request
of these that throws has committed nothing.
-/

namespace WhatStore

open ReadCommitted ReadCommitted.Prog

variable {h : List Ev} {α : Type} {Q : α → List Ev → Prop}

def Request.trades : Request → Bool
  | .create _ _ => true
  | .updateStatus _ _ _ _ => true
  | .updateDetails _ _ _ => true
  | .sweep => true
  | _ => false

theorem Request.settles_of_trades {r : Request} (hr : r.trades = true) : r.settles = false := by
  cases r <;> first | rfl | cases hr

def Whole (h : List Ev) : Ev → Prop
  | .threw _ => ∀ tx, .committed tx ∉ h
  | _ => True

/-- Inside one transaction there is nothing committed to leave behind. -/
theorem whole_of_within {p : Prog shop α} {A : Update → Prop} (hp : p.Within (S := shop) A)
    (hnone : ∀ tx, .committed tx ∉ h) :
    p.Along Whole h fun _ h' => ∀ tx, .committed tx ∉ h' := by
  have hw := hp h
  clear hp
  induction p generalizing h with
  | ret a => exact hnone
  | throw e => exact hnone
  | query q k ih =>
      exact fun s => ⟨trivial, ih _ (fun tx hmem => hnone tx (by simpa using hmem)) (hw s).2⟩
  | update u k ih =>
      exact fun hit => ⟨trivial, ih _ (fun tx hmem => hnone tx (by simpa using hmem)) (hw hit).2⟩
  | call c k ih =>
      exact fun a => ⟨trivial, ih _ (fun tx hmem => hnone tx (by simpa using hmem)) (hw a).2⟩
  | commit k ih => exact hw.1.elim
  | rollback k ih => exact hw.1.elim

theorem follows_whole_of_within {p : Prog shop Unit} {A : Update → Prop}
    (hp : p.Within (S := shop) A) : p.Follows Whole :=
  (whole_of_within hp (by simp)).mono fun _ _ _ => trivial

/-! ## Creating an order -/

theorem within_getDecryptedCredentials {A : Update → Prop} (t : Id) (provider : PaymentProvider) :
    (getDecryptedCredentials t provider).Within (S := shop) A := by
  unfold getDecryptedCredentials
  split
  · exact within_ret
  refine within_bind within_query fun setting => ?_
  split
  · exact within_ret
  split
  · exact within_ret
  · exact within_bind within_orThrow fun _ => within_ret

theorem within_ofExcept {A : Update → Prop} {x : Except Err α} :
    (ofExcept x : Prog shop α).Within (S := shop) A :=
  fun _ => along_ofExcept.2 ⟨fun _ _ => trivial, fun _ _ => trivial⟩

theorem within_priceOrder {A : Update → Prop} (t : Id) (items : List OrderItemInput)
    (code : Option String) (shippingId : Option Id) (options : PriceOptions) :
    (priceOrder t items code shippingId options).Within (S := shop) A := by
  refine within_bind within_query fun _ => within_bind within_ofExcept fun _ => ?_
  refine within_bind (within_priceCoupon t code options) fun _ => ?_
  exact within_bind (within_priceShipping t shippingId options.onlyPublished) fun _ => within_ret

def anyUpdate (_ : Update) : Prop := True

def Update.places : Update → Prop
  | .insertOrder _ _ => True
  | .insertItem _ _ => True
  | .confirmMessage _ => True
  | .take _ _ => True
  | .redeem _ _ => True
  | _ => False

def Update.isDigital : Update → Prop
  | .insertDelivery _ _ => True
  | .revokeDelivery _ _ _ => True
  | .insertGrant _ _ => True
  | .revokeGrant _ _ => True
  | _ => False

def Update.corrects : Update → Prop
  | .insertItem _ _ => True
  | .updateItem _ _ _ => True
  | .deleteItem _ _ => True
  | .take _ _ => True
  | .give _ _ => True
  | .editOrder _ _ => True
  | _ => False

theorem within_enqueue {A : Update → Prop} (job : Job) (e : Err) :
    (do let queued : Bool ← .call (.enqueue job) .ret
        throwIf (!queued) e : Prog shop Unit).Within (S := shop) A :=
  within_bind within_call fun _ => within_throwIf

theorem within_dispatchMessageFulfillment (t id : Id) (tenant : Tenant)
    (method : FulfillmentMethod) :
    (dispatchMessageFulfillment t tenant id method).Within (S := shop)
      fun u => u = .confirmMessage id := by
  refine within_bind (within_updateOne rfl) fun _ => ?_
  split
  · exact within_throwIf
  · exact within_bind within_throwIf fun _ => within_enqueue _ _

theorem within_assertDigitalOrder {A : Update → Prop} (dto : CreateOrder) :
    (assertDigitalOrder dto).Within (S := shop) A :=
  within_bind within_throwIf fun _ => within_bind within_throwIf fun _ =>
    within_bind within_throwIf fun _ => within_throwIf

theorem places_of_isTake {u : Update} (hu : u.isTake) : u.places := by
  cases u <;> trivial

theorem places_of_isInsertItem {u : Update} (hu : u.isInsertItem) : u.places := by
  cases u <;> trivial

theorem within_create (t : Id) (dto : CreateOrder) :
    (create t dto).Within (S := shop) Update.places := by
  refine within_bind within_throwIf fun _ => within_bind (within_getTenant t) fun tenant => ?_
  refine within_bind within_call fun _ => within_bind within_throwIf fun _ => ?_
  refine within_bind (within_runIf (within_bind (within_getDecryptedCredentials t .zelle)
    fun _ => within_throwIf)) fun _ => ?_
  refine within_bind (within_runIf (within_assertDigitalOrder dto)) fun _ => ?_
  refine within_bind (within_priceOrder t _ _ _ _) fun priced => ?_
  refine within_bind (within_runIf ((within_reserveStock _).mono fun _ => places_of_isTake)) fun _ => ?_
  have hrest : (do
      let createdAt ← now
      let orderId ← uuid
      insertOne (.insertOrder orderId
        (newOrder t tenant dto (priced.coupon.map Prod.fst) priced.totals createdAt))
      Prog.each (createItem t orderId) priced.pricedLines
      Prog.runIf dto.fulfillmentMethod.byMessage
        (dispatchMessageFulfillment t tenant orderId dto.fulfillmentMethod)
      Prog.runIf (dto.customerEmail.isSome && !tenant.catalogType == .digital)
        (queueConfirmationEmail t orderId)
      .call (.emitOrderEvent orderId) .ret : Prog shop Unit).Within (S := shop) Update.places := by
    refine within_bind within_call fun _ => within_bind within_call fun orderId => ?_
    refine within_bind (within_insertOne trivial) fun _ => ?_
    refine within_bind (within_each fun l => (within_createItem t orderId l).mono
      fun _ => places_of_isInsertItem) fun _ => ?_
    refine within_bind (within_runIf ((within_dispatchMessageFulfillment t orderId tenant _).mono
      fun u hu => hu ▸ trivial)) fun _ => ?_
    exact within_bind (within_runIf (within_enqueue _ _)) fun _ => within_call
  split
  · exact hrest
  · exact within_bind (within_bind (within_updateMany trivial) fun _ => within_throwIf)
      fun _ => hrest

/-! ## Moving an order -/

theorem within_revokeForOrder (id : Id) (reason : String) :
    (revokeForOrder id reason).Within (S := shop) Update.isDigital := by
  refine within_bind within_query fun found => ?_
  split
  · exact within_ret
  split
  · exact within_ret
  refine within_bind within_call fun _ => within_bind (within_updateOne trivial) fun _ => ?_
  refine within_bind within_query fun _ => within_each fun _ => ?_
  exact within_bind (within_updateMany trivial) fun _ => within_ret

theorem within_refundOrderPayment {A : Update → Prop} (t : Id) (o : Order) :
    (refundOrderPayment t o).Within (S := shop) A := by
  unfold refundOrderPayment
  split
  · exact within_bind (within_getDecryptedCredentials _ _) fun _ =>
      within_bind within_call fun _ => within_throwIf
  · exact within_bind within_call fun _ => within_throwIf
  · exact within_bind within_call fun _ => within_throwIf
  · exact within_ret

theorem within_releaseCoupon (o : Order) :
    (releaseCoupon o).Within (S := shop) anyUpdate := by
  unfold releaseCoupon
  split
  · exact within_bind (within_updateMany trivial) fun _ => within_ret
  · exact within_ret

theorem within_updateStatus (t id : Id) (status : OrderStatus) (canRefund : Bool) :
    (updateStatus t id status canRefund).Within (S := shop) anyUpdate := by
  refine within_bind within_query fun _ => within_bind within_orThrow fun x => ?_
  refine within_bind within_throwIf fun _ => within_bind within_throwIf fun _ => ?_
  refine within_bind (within_runIf (within_bind (within_updateMany trivial)
    fun _ => within_throwIf)) fun _ => ?_
  refine within_bind (within_runIf (within_updateOne trivial)) fun _ => ?_
  refine within_bind (within_runIf ((within_revokeForOrder _ _).mono
    fun _ _ => trivial)) fun _ => ?_
  refine within_bind (within_runIf (within_bind (within_getTenant t) fun _ => ?_)) fun _ => ?_
  · exact within_bind (within_runIf ((within_releaseStock _).mono fun _ _ => trivial))
      fun _ => within_releaseCoupon _
  refine within_bind (within_runIf (within_refundOrderPayment _ _)) fun _ => ?_
  exact within_bind within_query fun _ => within_bind within_orThrow fun _ => within_call

/-! ## Correcting an order -/

theorem within_collect {A : Update → Prop} {β γ : Type} {body : β → Prog shop γ} {as : List β}
    (hbody : ∀ a, (body a).Within (S := shop) A) : (collect body as).Within (S := shop) A := by
  induction as with
  | nil => exact within_ret
  | cons a as ih => exact within_bind (hbody a) fun _ => within_bind ih fun _ => within_ret

theorem within_stockLine {A : Update → Prop} (productId variantId : Option Id) (n : Int) :
    (stockLine productId variantId n).Within (S := shop) A := by
  unfold stockLine
  split
  · refine within_bind within_query fun _ => ?_
    split
    · exact within_ret
    · exact within_bind within_orThrow fun _ => within_ret
  · exact within_ret
  · exact within_bind within_query fun _ => within_ret

theorem within_applyLine (t id : Id) (l : RepricedLine) :
    (applyLine t id l).Within (S := shop) Update.corrects := by
  unfold applyLine
  split
  · simp only
    split
    · exact within_ret
    refine within_bind (within_updateOne trivial) fun _ => ?_
    split
    · exact within_bind (within_stockLine _ _ _) fun _ => within_ret
    · exact within_ret
  · exact within_bind within_call fun _ => within_bind (within_insertOne trivial) fun _ =>
      within_ret

theorem within_applyItemChanges (t id : Id) (x : Repriced) (tracks : Bool) :
    (applyItemChanges t id x tracks).Within (S := shop) Update.corrects := by
  refine within_bind (within_collect fun l => within_applyLine t id l) fun _ => ?_
  refine within_bind (within_each fun _ => within_updateOne trivial) fun _ => ?_
  refine within_runIf (within_bind ((within_reserveStock _).mono fun u hu => ?_) fun _ =>
    (within_releaseStock _).mono fun u hu => ?_)
  · cases u <;> trivial
  · cases u <;> trivial

theorem within_updateDetails (t id : Id) (dto : UpdateOrder) :
    (updateDetails t id dto).Within (S := shop) Update.corrects := by
  refine within_bind within_query fun _ => within_bind within_orThrow fun x => ?_
  refine within_bind within_throwIf fun _ => within_bind within_throwIf fun _ => ?_
  refine within_bind ?_ fun _ => within_bind (within_updateOne trivial) fun _ => ?_
  · unfold correctLines
    split
    · exact within_ret
    refine within_bind (within_reprice _ _ _ _ _) fun _ => within_bind within_throwIf fun _ => ?_
    exact within_bind (within_getTenant t) fun _ =>
      within_bind (within_applyItemChanges _ _ _ _) fun _ => within_ret
  · simp only
    split
    · exact within_bind within_call fun _ =>
        within_bind (fun _ _ => ⟨trivial, trivial⟩) fun _ => within_ret
    · exact within_bind within_ret fun _ =>
        within_bind (fun _ _ => ⟨trivial, trivial⟩) fun _ => within_ret

/-! ## The requests -/

theorem whole_runHooks (jobs : List Job) : (runHooks jobs).Along Whole h fun _ _ => True := by
  refine (along_each (I := fun _ _ => True) trivial fun job _ h' _ => ?_).mono fun _ _ _ => trivial
  exact fun _ => ⟨trivial, trivial⟩

/-- The body of a `try` block may throw, the request does not. -/
theorem whole_attempt (p : Prog shop α) : p.attempt.Along Whole h fun _ _ => True := by
  induction p generalizing h with
  | ret a => exact trivial
  | throw e => exact ⟨trivial, trivial⟩
  | query q k ih => exact fun s => ⟨trivial, ih _⟩
  | update u k ih => exact fun hit => ⟨trivial, ih _⟩
  | call c k ih => exact fun a => ⟨trivial, ih _⟩
  | commit k ih => exact ⟨trivial, ih⟩
  | rollback k ih => exact ⟨trivial, ih⟩

theorem handler_whole (r : Request) (hr : r.trades = true) : (handler r).Follows Whole := by
  cases r with
  | create t dto => exact follows_whole_of_within (within_create t dto)
  | updateStatus t id status canRefund =>
      exact follows_whole_of_within (within_updateStatus t id status canRefund)
  | updateDetails t id dto =>
      refine along_seq.2 ((whole_of_within (within_updateDetails t id dto) (by simp)).mono
        fun jobs h' _ => ?_)
      exact Permissive.finish trivial ((whole_runHooks jobs).mono fun _ _ _ => trivial)
  | sweep =>
      refine fun time => ⟨trivial, fun s => ⟨trivial, trivial, ?_⟩⟩
      refine (along_each (I := fun _ _ => True) trivial fun x _ h _ => ?_).mono fun _ _ _ => trivial
      exact along_seq.2 ((whole_attempt (expireOrder x.2 x.1)).mono fun _ _ _ => trivial)
  | _ => cases hr

end WhatStore
