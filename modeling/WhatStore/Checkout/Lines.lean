import WhatStore.Protocol.Whole
import WhatStore.Checkout.Pricing

/-!
# The lines of an order

How the lines of an order change when a row is written, and what `create`
leaves: one new order with the priced totals, and a line for each line of the
basket.
-/

namespace WhatStore

open ReadCommitted ReadCommitted.Prog

def lineOf (orderId : Id) : (k : Key) → Option (Row k) → Option (Id × OrderItem)
  | .item id, v => (v.filter fun i : OrderItem => i.orderId == orderId).map (Prod.mk id)
  | _, _ => none

theorem itemsOf_eq_gather (db : Database) (orderId : Id) :
    itemsOf db orderId = Store.gather (lineOf orderId) db := by
  refine List.filterMap_congr fun k _ => ?_
  cases k <;> rfl

theorem lineOf_none (orderId : Id) (k : Key) : lineOf orderId k none = none := by
  cases k <;> rfl

theorem itemsOf_applyUpdate_of_ne {u : Update} (hu : ∀ id, u.key ≠ .item id) (db : Database)
    (orderId : Id) : itemsOf (applyUpdate (S := shop) u db) orderId = itemsOf db orderId := by
  rw [itemsOf_eq_gather, itemsOf_eq_gather]
  refine Store.gather_set_of_blind _ _ (fun v => ?_) _
  have hblind : ∀ k, (∀ id, k ≠ .item id) → ∀ v, lineOf orderId k v = none := by
    intro k hk v
    cases k with
    | item id => exact absurd rfl (hk id)
    | _ => rfl
  exact hblind _ hu v

theorem itemsOf_replay_of_ne {us : List Update} (hus : ∀ u ∈ us, ∀ id, u.key ≠ .item id)
    (db : Database) (orderId : Id) : itemsOf (replay (S := shop) us db) orderId =
      itemsOf db orderId := by
  induction us with
  | nil => rfl
  | cons u us ih =>
      rw [replay_cons, itemsOf_applyUpdate_of_ne (hus u List.mem_cons_self),
        ih fun u' hu' => hus u' (List.mem_cons_of_mem _ hu')]

theorem itemsOf_insertItem {db : Database} {iid : Id} (hnone : db.row (.item iid) = none)
    (item : OrderItem) (orderId : Id) :
    List.Perm (itemsOf (applyUpdate (S := shop) (.insertItem iid item) db) orderId)
      (if item.orderId = orderId then (iid, item) :: itemsOf db orderId
        else itemsOf db orderId) := by
  rw [itemsOf_eq_gather, itemsOf_eq_gather]
  have h := Store.gather_set (lineOf orderId) (lineOf_none orderId) db (.item iid) (some item)
  rw [hnone, lineOf_none, Option.toList_none, List.nil_append] at h
  refine h.trans ?_
  by_cases hid : item.orderId = orderId <;> simp [lineOf, hid, Option.filter]

/-- The references the database enforces: a line has its order, and its product
and variant as long as it names them. -/
structure ForeignKeys (db : Database) : Prop where
  order : ∀ iid i, db.row (.item iid) = some i → ∃ o, db.row (.order i.orderId) = some o
  product : ∀ iid i p, db.row (.item iid) = some i → i.productId = some p →
    ∃ x, db.row (.product p) = some x
  variant : ∀ iid i v, db.row (.item iid) = some i → i.variantId = some v →
    ∃ x, db.row (.variant v) = some x

def OrderItem.refersWithin (i : OrderItem) (db : Database) : Bool :=
  (db.row (.order i.orderId)).isSome && (i.productId.all fun p => (db.row (.product p)).isSome) &&
    i.variantId.all fun v => (db.row (.variant v)).isSome

theorem refersWithin_iff {i : OrderItem} {db : Database} : i.refersWithin db = true ↔
    (db.row (.order i.orderId)).isSome = true ∧
      (∀ p, i.productId = some p → (db.row (.product p)).isSome = true) ∧
      ∀ v, i.variantId = some v → (db.row (.variant v)).isSome = true := by
  simp [OrderItem.refersWithin, Option.all_eq_true, and_assoc]

theorem foreignKeys_iff {db : Database} : ForeignKeys db ↔
    ∀ iid i, db.row (.item iid) = some i → i.refersWithin db = true := by
  simp only [refersWithin_iff, Option.isSome_iff_exists]
  constructor
  · intro h iid i hi
    exact ⟨h.order iid i hi, fun p hp => h.product iid i p hi hp,
      fun v hv => h.variant iid i v hi hv⟩
  · intro h
    exact ⟨fun iid i hi => (h iid i hi).1, fun iid i p hi hp => (h iid i hi).2.1 p hp,
      fun iid i v hi hv => (h iid i hi).2.2 v hv⟩

theorem foreignKeys_of_check {db : Database} (h : (db.keys.all fun k => match k with
    | .item iid => (db.row (.item iid)).all fun i => i.refersWithin db
    | _ => true) = true) : ForeignKeys db := by
  refine foreignKeys_iff.2 fun iid i hi => ?_
  by_cases hmem : Key.item iid ∈ db.keys
  · have hkey := List.all_eq_true.1 h _ hmem
    simpa only [hi, Option.all_some] using hkey
  · rw [db.row_eq_none _ hmem] at hi
    cases hi

theorem ForeignKeys.no_lines {db : Database} (h : ForeignKeys db) {id : Id}
    (hnone : db.row (.order id) = none) : itemsOf db id = [] := by
  refine List.eq_nil_iff_forall_not_mem.2 fun x hx => ?_
  obtain ⟨hrow, hid⟩ := mem_itemsOf.1 hx
  obtain ⟨o, ho⟩ := h.order x.1 x.2 hrow
  rw [hid, hnone] at ho
  cases ho

/-! ## Placing an order -/

variable {A : (c : Call) → c.Answer → Prop} {σ : Session shop}

theorem createItems_ensures (t id : Id) (lines : List OrderLine) :
    (each (createItem t id) lines).Ensures (S := shop) A σ fun _ σ' =>
      σ'.db = σ.db ∧ (∀ k, (∀ iid, k ≠ .item iid) → σ'.view.row k = σ.view.row k) ∧
      List.Perm ((itemsOf σ'.view id).map Prod.snd) ((itemsOf σ.view id).map Prod.snd ++
        lines.map fun l => newItem t id l.toPricedLine l.priced) ∧
      ∀ id', id' ≠ id → List.Perm (itemsOf σ'.view id') (itemsOf σ.view id') := by
  refine (ensures_each (I := fun rest σ' => σ'.db = σ.db ∧
    (∀ k, (∀ iid, k ≠ .item iid) → σ'.view.row k = σ.view.row k) ∧
    List.Perm ((itemsOf σ'.view id).map Prod.snd ++
        rest.map fun l => newItem t id l.toPricedLine l.priced)
      ((itemsOf σ.view id).map Prod.snd ++
        lines.map fun l => newItem t id l.toPricedLine l.priced) ∧
    ∀ id', id' ≠ id → List.Perm (itemsOf σ'.view id') (itemsOf σ.view id'))
    ⟨rfl, fun _ _ => rfl, List.Perm.refl _, fun _ _ => List.Perm.refl _⟩ ?_).mono fun _ σ' hI => ?_
  · rintro l rest σ' ⟨hdb, hrows, hlines, hothers⟩
    refine ensures_invoke fun iid _ => ensures_seq.2 ⟨fun hnone => ?_, fun _ => ?_⟩
    · refine ensures_throwIf.2 fun _ => ⟨hdb, fun k hk => ?_, ?_, fun id' hne => ?_⟩
      · exact (applyUpdate_row_of_ne (S := shop) _ _ (hk iid)).trans (hrows k hk)
      · have hnone' : σ'.view.row (.item iid) = none := Option.isNone_iff_eq_none.1 hnone
        have hnew := itemsOf_insertItem hnone' (newItem t id l.toPricedLine l.priced) id
        rw [if_pos (show (newItem t id l.toPricedLine l.priced).orderId = id from rfl)] at hnew
        refine List.Perm.trans ((hnew.map Prod.snd).append_right _) ?_
        rw [List.map_cons] at hlines ⊢
        exact List.perm_middle.symm.trans hlines
      · have hnone' : σ'.view.row (.item iid) = none := Option.isNone_iff_eq_none.1 hnone
        have hnew := itemsOf_insertItem hnone' (newItem t id l.toPricedLine l.priced) id'
        rw [if_neg (show (newItem t id l.toPricedLine l.priced).orderId ≠ id' from Ne.symm hne)]
          at hnew
        exact hnew.trans (hothers id' hne)
    · exact ensures_throwIf.2 (by simp)
  · exact ⟨hI.1, hI.2.1, by simpa using hI.2.2.1, hI.2.2.2⟩

/-- What `create` leaves in the store. -/
structure Placed (time : Time) (tenantId : Id) (dto : CreateOrder) (db db' : Database) (id : Id)
    (o : Order) (priced : PricedOrder) : Prop where
  pricing : pricing db time tenantId dto.items dto.couponCode dto.shippingId
    { lenientCoupon := false, onlyPublished := true } = .ok priced
  new : db.row (.order id) = none
  row : db'.row (.order id) = some o
  order : ∃ tenant createdAt status, db.row (.tenant tenantId) = some tenant ∧
    o = { newOrder tenantId tenant dto (priced.coupon.map Prod.fst) priced.totals createdAt with
      status := status }
  others : ∀ id', id' ≠ id → db'.row (.order id') = db.row (.order id')
  lines : List.Perm ((itemsOf db' id).map Prod.snd) ((itemsOf db id).map Prod.snd ++
    priced.pricedLines.map fun l => newItem tenantId id l.toPricedLine l.priced)
  otherLines : ∀ id', id' ≠ id → List.Perm (itemsOf db' id') (itemsOf db id')

/-- The updates before the order: stock and the coupon. -/
def Update.prepares : Update → Prop
  | .take _ _ => True
  | .redeem _ _ => True
  | _ => False

theorem Update.prepares_key {u : Update} (hu : u.prepares) :
    (∀ id, u.key ≠ .order id) ∧ ∀ id, u.key ≠ .item id := by
  cases u with
  | take row n => cases row <;> exact ⟨nofun, nofun⟩
  | redeem id limit => exact ⟨nofun, nofun⟩
  | _ => exact hu.elim

theorem confirm_ensures {t id : Id} {tenant : Tenant} {method : FulfillmentMethod} :
    (dispatchMessageFulfillment t tenant id method).Ensures (S := shop) A σ fun _ σ' =>
      σ'.view = applyUpdate (S := shop) (.confirmMessage id) σ.view := by
  have hlast : (if method == .whatsapp then
      throwIf (!tenant.whatsappEnabled || tenant.whatsappNumber.isNone)
        (.badRequest "This store has not enabled WhatsApp checkout")
    else do
      throwIf (!tenant.telegramEnabled || tenant.telegramBotToken.isNone ||
        tenant.telegramChatId.isNone) (.badRequest "This store has not enabled Telegram checkout")
      let queued : Bool ← .call (.enqueue (.telegramMessage t id)) .ret
      throwIf (!queued) (.failure "The queue is not available") : Prog shop Unit).Within (S := shop)
        noUpdate := by
    split
    · exact within_throwIf
    · exact within_bind within_throwIf fun _ => within_enqueue _ _
  refine ensures_require fun _ => ?_
  refine (hlast.ensures_same fun _ hu => hu).mono ?_
  rintro _ _ rfl
  rfl

/-- Run alone, `create` places the order it has priced. -/
theorem create_ensures (hclock : ∃ time, A .now time) (t : Id) (dto : CreateOrder)
    (db : Database) : (create t dto).Ensures (S := shop) A (.start db) fun _ σ' =>
      ∃ time id o priced, A .now time ∧ Placed time t dto db σ'.view id o priced := by
  have hsame : ∀ {α β : Type} {p : Prog shop α} {f : α → Prog shop β} {σ : Session shop}
      {Q : β → Session shop → Prop}, p.Within (S := shop) noUpdate →
      (∀ a, (f a).Ensures A σ Q) → (p >>= f).Ensures A σ Q := fun hp hf =>
    (hp.ensures_same fun _ hu => hu).seq fun a σ' hσ => hσ ▸ hf a
  refine ensures_check fun _ => ensures_ask (ensures_demand fun tenant htenant => ?_)
  refine ensures_invoke fun methods _ => ensures_check fun _ => ?_
  refine hsame (within_runIf (within_bind (within_getDecryptedCredentials t .zelle)
    fun _ => within_throwIf)) fun _ => ?_
  refine hsame (within_runIf (within_assertDigitalOrder dto)) fun _ => ?_
  refine Ensures.seq (priceOrder_ensures hclock t _ _ _ _) fun priced σ₁ hpriced => ?_
  obtain ⟨time, htime, hpricing, rfl⟩ := hpriced
  -- stock and coupon are taken before the order is written
  refine Ensures.seq ((within_runIf ((within_reserveStock _).mono fun u hu => ?_)).ensures
    (B := Update.prepares)) fun _ σ₂ hreserved => ?_
  · cases u <;> trivial
  obtain ⟨us, hus, -, hview⟩ := hreserved
  have hrest : ∀ us' : List Update, (∀ u ∈ us', u.prepares) → ∀ σ₃ : Session shop,
      σ₃.view = replay (S := shop) us' db → (do
        let createdAt ← now
        let orderId ← uuid
        insertOne (.insertOrder orderId
          (newOrder t tenant dto (priced.coupon.map Prod.fst) priced.totals createdAt))
        Prog.each (createItem t orderId) priced.pricedLines
        Prog.runIf dto.fulfillmentMethod.byMessage
          (dispatchMessageFulfillment t tenant orderId dto.fulfillmentMethod)
        Prog.runIf (dto.customerEmail.isSome && !tenant.catalogType == .digital)
          (queueConfirmationEmail t orderId)
        .call (.emitOrderEvent orderId) .ret : Prog shop Unit).Ensures A σ₃ fun _ σ' =>
          ∃ time id o priced, A .now time ∧ Placed time t dto db σ'.view id o priced := by
    intro us' hus' σ₃ hview₃
    have hrow : ∀ k, (∀ u ∈ us', u.key ≠ k) → σ₃.view.row k = db.row k := fun k hk => by
      rw [hview₃]
      refine replay_row_of_notMem (S := shop) db fun hmem => ?_
      obtain ⟨u, hu, hkey⟩ := List.mem_map.1 hmem
      exact hk u hu hkey
    have horder : ∀ id, σ₃.view.row (.order id) = db.row (.order id) := fun id =>
      hrow _ fun u hu => (Update.prepares_key (hus' u hu)).1 id
    have hitems : ∀ id, itemsOf σ₃.view id = itemsOf db id := fun id => by
      rw [hview₃]
      exact itemsOf_replay_of_ne (fun u hu => (Update.prepares_key (hus' u hu)).2) db id
    refine ensures_invoke fun createdAt _ => ensures_invoke fun id _ => ?_
    refine ensures_require fun hnone => ?_
    have hnew : db.row (.order id) = none := by
      rw [← horder]
      exact Option.isNone_iff_eq_none.1 hnone
    refine Ensures.seq (createItems_ensures t id priced.pricedLines) fun _ σ₄ hlines => ?_
    obtain ⟨-, hrows₄, hlines₄, hothers₄⟩ := hlines
    have ho₄ : σ₄.view.row (.order id) = some (newOrder t tenant dto (priced.coupon.map Prod.fst)
        priced.totals createdAt) := by
      rw [hrows₄ (.order id) nofun]
      exact applyUpdate_row_self (S := shop) _ _
    have hother₄ : ∀ id', id' ≠ id → σ₄.view.row (.order id') = db.row (.order id') := by
      intro id' hid
      rw [hrows₄ (.order id') nofun, ← horder]
      exact applyUpdate_row_of_ne (S := shop) _ _ (by simpa using hid)
    have hplaced₄ : Placed time t dto db σ₄.view id (newOrder t tenant dto
        (priced.coupon.map Prod.fst) priced.totals createdAt) priced := by
      refine ⟨hpricing, hnew, ho₄, ⟨tenant, createdAt, .pending, htenant, rfl⟩, hother₄, ?_,
        fun id' hid => ?_⟩
      · rw [Session.apply_view, itemsOf_applyUpdate_of_ne (u := .insertOrder id _) nofun, hitems]
          at hlines₄
        exact hlines₄
      · have hline := hothers₄ id' hid
        rw [Session.apply_view, itemsOf_applyUpdate_of_ne (u := .insertOrder id _) nofun, hitems]
          at hline
        exact hline
    refine Ensures.seq (Q := fun _ σ' => ∃ o, Placed time t dto db σ'.view id o priced)
      (ensures_runIf.2 ⟨fun _ => ?_, fun _ => ⟨_, hplaced₄⟩⟩) fun _ σ₅ hplaced₅ => ?_
    · refine confirm_ensures.mono fun _ σ₅ hview₅ => ?_
      refine ⟨_, hpricing, hnew, ?_, ⟨tenant, createdAt, .confirmed, htenant, rfl⟩, ?_, ?_,
        fun id' hid => ?_⟩
      · rw [hview₅]
        refine (applyUpdate_row_self (S := shop) (.confirmMessage id) σ₄.view).trans ?_
        exact congrArg (Option.map _) ho₄
      · intro id' hid
        rw [hview₅, ← hother₄ id' hid]
        exact applyUpdate_row_of_ne (S := shop) _ _ (by simpa using hid)
      · rw [hview₅, itemsOf_applyUpdate_of_ne (u := .confirmMessage id) nofun]
        exact hplaced₄.lines
      · rw [hview₅, itemsOf_applyUpdate_of_ne (u := .confirmMessage id) nofun]
        exact hplaced₄.otherLines id' hid
    · obtain ⟨o, hplaced⟩ := hplaced₅
      refine hsame (within_runIf (within_enqueue _ _)) fun _ => ?_
      exact ensures_invoke fun _ _ => ⟨time, id, o, priced, htime, hplaced⟩
  split
  · exact hrest us hus σ₂ hview
  · next c coupon hcoupon =>
      refine ensures_require fun _ => hrest (.redeem c coupon.usageLimit :: us) ?_ _ ?_
      · exact List.forall_mem_cons.2 ⟨trivial, hus⟩
      · rw [Session.apply_view, hview]
        rfl

end WhatStore
