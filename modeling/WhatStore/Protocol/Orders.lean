import WhatStore.Protocol.Digital

/-!
# The order services keep to the protocol
-/

namespace WhatStore

open ReadCommitted ReadCommitted.Prog

variable {α : Type} {r : Request} {h : List Ev} {Q : α → List Ev → Prop}

/-! ## Pricing -/

/-- The product and variant of the line are rows the process has read. -/
structure LineSaw (l : PricedLine) (h : List Ev) : Prop where
  product : Saw (S := shop) (.product l.productId) (some l.product) h
  variant : ∀ v, l.variant = some v → Saw (S := shop) (.variant v.1) (some v.2) h

theorem LineSaw.mono {l : PricedLine} {h h' : List Ev} (hl : LineSaw l h) (hh : h <:+ h') :
    LineSaw l h' :=
  ⟨Saw.mono hl.product hh, fun v hv => Saw.mono (hl.variant v hv) hh⟩

theorem LineSaw.stockRow {l : PricedLine} (hl : LineSaw l h) :
    ∃ v, Saw (S := shop) l.stockRow.key (some v) h := by
  cases hv : l.variant with
  | none =>
      rw [PricedLine.stockRow, hv]
      exact ⟨l.product, hl.product⟩
  | some v =>
      rw [PricedLine.stockRow, hv]
      exact ⟨v.2, hl.variant v hv⟩

theorem newItem_stockRow (t o : Id) (l : PricedLine) (p : Priced) :
    (newItem t o l p).stockRow = some l.stockRow := by
  cases hv : l.variant with
  | none => simp [newItem, OrderItem.stockRow, stockRowOf, PricedLine.stockRow, hv]
  | some v => simp [newItem, OrderItem.stockRow, stockRowOf, PricedLine.stockRow, hv]

theorem mem_of_mapM_ok {β γ ε : Type} {f : β → Except ε γ} {as : List β} {bs : List γ}
    (h : as.mapM f = .ok bs) {b : γ} (hb : b ∈ bs) : ∃ a ∈ as, f a = .ok b := by
  induction as generalizing bs with
  | nil =>
      simp only [List.mapM_nil] at h
      cases h
      cases hb
  | cons a as ih =>
      rw [List.mapM_cons] at h
      cases hfa : f a with
      | error e =>
          rw [hfa] at h
          cases h
      | ok b' =>
          cases hrest : as.mapM f with
          | error e =>
              rw [hfa, hrest] at h
              cases h
          | ok bs' =>
              rw [hfa, hrest] at h
              cases h
              rcases List.mem_cons.1 hb with rfl | hb
              · exact ⟨a, List.mem_cons_self, hfa⟩
              · obtain ⟨x, hx, hfx⟩ := ih hrest hb
                exact ⟨x, List.mem_cons_of_mem _ hx, hfx⟩

theorem lineSaw_of_mem {s : Database} {t : Id} {ids : List Id} {published : Bool} {l : PricedLine}
    {variants : List (Id × ProductVariant)}
    (hp : (l.productId, l.product, variants) ∈ Query.eval (.products t ids published) s)
    (hv : ∀ v, l.variant = some v → v ∈ variants) (hopen : openTx (S := shop) h = []) :
    LineSaw l (.query (.products t ids published) (Query.eval (.products t ids published) s) :: h)
    where
  product := saw_query (fun s' hs' => (mem_products (hs' ▸ hp)).1) (by simp [hopen, locks])
  variant v hlv := by
    refine saw_query (fun s' hs' => ?_) (by simp [hopen, locks])
    have hvariants := (mem_products (hs' ▸ hp)).2
    simp only at hvariants
    exact (mem_variantsOf (hvariants ▸ hv v hlv)).1

theorem priceLine_ok {products : Catalog} {item : OrderItemInput} {l : OrderLine}
    (h : priceLine products item = .ok l) :
    (∃ variants, (l.productId, l.product, variants) ∈ products ∧
      ∀ v, l.variant = some v → v ∈ variants) ∧ l.quantity = item.quantity := by
  unfold priceLine at h
  split at h
  · cases h
  · next p product variants hfind =>
      simp only at h
      split at h
      · cases h
      split at h
      · cases h
      cases h
      refine ⟨⟨variants, List.mem_of_find?_eq_some hfind, fun v hv => ?_⟩, rfl⟩
      obtain ⟨x, -, hx⟩ := Option.bind_eq_some_iff.1 hv
      exact List.mem_of_find?_eq_some hx

theorem couponByCode_row {s : Database} {t : Id} {code : String} {c : Id × Coupon}
    (h : Query.eval (.couponByCode t code) s = some c) :
    s.row (.coupon c.1) = some c.2 ∧ c.2.tenantId = t := by
  obtain ⟨k, -, hk⟩ := List.exists_of_findSome?_eq_some h
  cases k with
  | coupon id =>
      obtain ⟨j, hj, heq⟩ := Option.map_eq_some_iff.1 hk
      obtain ⟨hrow, hmatch⟩ := Option.filter_eq_some_iff.1 hj
      cases heq
      simp only [Bool.and_eq_true, beq_iff_eq] at hmatch
      exact ⟨hrow, hmatch.1.1⟩
  | _ => cases hk

theorem openTx_of_extends {h' : List Ev} (e : Extends (S := shop) noUpdate h h') :
    openTx (S := shop) h' = openTx (S := shop) h := by
  obtain ⟨us, hus, hnone⟩ := e.tx
  cases us with
  | nil => exact hus
  | cons u us => exact (hnone u List.mem_cons_self).elim

theorem within_getTenant {A : Update → Prop} (t : Id) : (getTenant t).Within (S := shop) A :=
  within_bind within_query fun _ => within_orThrow

theorem within_priceShipping {A : Update → Prop} (t : Id) (id : Option Id) (active : Bool) :
    (priceShipping t id active).Within (S := shop) A := by
  unfold priceShipping
  split
  · exact within_ret
  · exact within_bind within_query fun _ => within_bind within_orThrow fun _ => within_ret

structure PricedSaw (priced : PricedOrder) (h : List Ev) : Prop where
  lines : ∀ l ∈ priced.pricedLines, LineSaw l.toPricedLine h ∧ 1 ≤ l.quantity
  coupon : ∀ c, priced.coupon = some c → Saw (S := shop) (.coupon c.1) (some c.2) h

theorem PricedSaw.mono {priced : PricedOrder} {h h' : List Ev} (hp : PricedSaw priced h)
    (hh : h <:+ h') : PricedSaw priced h' :=
  ⟨fun l hl => ⟨(hp.lines l hl).1.mono hh, (hp.lines l hl).2⟩,
    fun c hc => Saw.mono (hp.coupon c hc) hh⟩

theorem lawful_priceCoupon {t : Id} {code : Option String} {options : PriceOptions}
    (hopen : openTx (S := shop) h = []) :
    (priceCoupon t code options).Along (Lawful r) h fun x h' =>
      ∀ c, x.1 = some c → Saw (S := shop) (.coupon c.1) (some c.2) h' := by
  unfold priceCoupon
  split
  · exact nofun
  · refine (lawful_permissive r).ask fun s => (lawful_permissive r).invoke fun time => ?_
    split
    · split
      · exact nofun
      · exact trivial
    · intro c hc
      have hshow : Saw (S := shop) (.coupon c.1) (some c.2) _ :=
        saw_query (s := s) (q := .couponByCode t _) (h := h)
          (fun s' hs' => (couponByCode_row (hs'.trans hc)).1) (by simp [hopen, locks])
      exact hshow.cons _

theorem within_priceCoupon {A : Update → Prop} (t : Id) (code : Option String)
    (options : PriceOptions) : (priceCoupon t code options).Within (S := shop) A := by
  unfold priceCoupon
  split
  · exact within_ret
  · refine within_bind within_query fun _ => within_bind within_call fun _ => ?_
    split
    · split
      · exact within_ret
      · exact fun _ => trivial
    · exact within_ret

theorem lawful_priceOrder {t : Id} {items : List OrderItemInput} {code : Option String}
    {shippingId : Option Id} {options : PriceOptions} (hopen : openTx (S := shop) h = []) :
    (priceOrder t items code shippingId options).Along (Lawful r) h fun priced h' =>
      PricedSaw priced h' := by
  refine (lawful_permissive r).ask fun s => (lawful_permissive r).lift fun lines hlines => ?_
  have hsaw : ∀ l ∈ lines, LineSaw l.toPricedLine
      (.query (.products t (items.map OrderItemInput.productId) options.onlyPublished)
        (Query.eval (.products t (items.map OrderItemInput.productId) options.onlyPublished) s) ::
        h) ∧ 1 ≤ l.quantity := by
    intro l hl
    obtain ⟨item, -, hitem⟩ := mem_of_mapM_ok hlines hl
    obtain ⟨⟨variants, hp, hv⟩, hquantity⟩ := priceLine_ok hitem
    exact ⟨lineSaw_of_mem (h := h) hp hv hopen, hquantity ▸ item.quantity_pos⟩
  refine along_seq.2 (((lawful_priceCoupon (by exact hopen)).grows).mono fun x h₁ hx => ?_)
  refine Permissive.skip (p := priceShipping t shippingId options.onlyPublished) ?_
    fun shipping h₂ hh₂ => ?_
  · unfold priceShipping
    split
    · exact trivial
    · exact (lawful_permissive r).ask fun _ => (lawful_permissive r).demand fun _ _ => trivial
  · refine ⟨fun l hl => ?_, fun c hc => Saw.mono (hx.2 c hc) hh₂⟩
    exact ⟨(hsaw l hl).1.mono (hx.1.trans hh₂), (hsaw l hl).2⟩

/-! ## Creating an order -/

theorem lawful_queueConfirmationEmail (t id : Id) :
    (queueConfirmationEmail t id).Along (Lawful r) h fun _ _ => True :=
  (lawful_permissive r).invoke fun _ => along_throwIf.2 ⟨fun _ => trivial, fun _ => trivial⟩

theorem lawful_dispatchMessageFulfillment {t id : Id} {tenant : Tenant}
    {method : FulfillmentMethod} {o : Order} (hr : ∃ t dto, r = .create t dto)
    (ho : o.status = .pending) (hw : Wrote (S := shop) (.insertOrder id o) h) :
    (dispatchMessageFulfillment t tenant id method).Along (Lawful r) h fun _ _ => True := by
  refine lawful_updateOne ⟨hr, o, ho, hw⟩ ?_
  split
  · exact along_throwIf.2 ⟨fun _ => trivial, fun _ => trivial⟩
  · refine (lawful_permissive r).check fun _ => (lawful_permissive r).invoke fun _ => ?_
    exact along_throwIf.2 ⟨fun _ => trivial, fun _ => trivial⟩

def Update.isInsertItem : Update → Prop
  | .insertItem _ _ => True
  | _ => False

theorem within_createItem (t id : Id) (l : OrderLine) :
    (createItem t id l).Within (S := shop) Update.isInsertItem :=
  within_bind within_call fun _ => within_insertOne trivial

theorem lawful_createItems (t id : Id) (dto : CreateOrder) {lines : List OrderLine}
    (hlines : ∀ l ∈ lines, LineSaw l.toPricedLine h ∧ 1 ≤ l.quantity) :
    (each (createItem t id) lines).Along (Lawful (.create t dto)) h fun _ _ => True := by
  refine lawful_each fun l hl h' hh => (lawful_permissive _).invoke fun iid => ?_
  have hsaw := (hlines l hl).1.mono (hh.trans (List.suffix_cons (.call .uuid iid) h'))
  refine lawful_insertOne_last ⟨.inl ⟨t, dto, rfl⟩, ?_, ⟨_, rfl, _, hsaw.product⟩, ?_⟩
  · rw [newItem, l.priced_quantity]
    exact (hlines l hl).2
  · rintro row hrow
    rw [newItem_stockRow] at hrow
    cases hrow
    exact hsaw.stockRow

/-- The items of a new order are written after the order itself. -/
theorem wrote_of_items {id : Id} {o : Order} {h' : List Ev}
    (e : Extends (S := shop) Update.isInsertItem (.update (.insertOrder id o) true :: h) h') :
    Wrote (S := shop) (.insertOrder id o) h' := by
  obtain ⟨us, hus, hitems⟩ := e.tx
  refine ⟨us, openTx (S := shop) h, hus, fun hmem => ?_⟩
  obtain ⟨u, hu, hkey⟩ := List.mem_map.1 hmem
  have := hitems u hu
  cases u <;> first | exact this.elim | cases hkey

theorem create_follows (t : Id) (dto : CreateOrder) :
    (create t dto).Follows (Lawful (.create t dto)) := by
  have hP := lawful_permissive (.create t dto)
  refine hP.check fun _ => ?_
  have htenant : (getTenant t).Along (Lawful (.create t dto)) [] fun _ h' =>
      openTx (S := shop) h' = [] :=
    ((lawful_getTenant t).within (within_getTenant t)).mono fun _ _ hh => openTx_of_extends hh.2
  refine along_seq.2 (htenant.mono fun tenant h₁ hopen₁ => ?_)
  refine hP.invoke fun methods => hP.check fun _ => ?_
  have hzelle : (runIf (dto.fulfillmentMethod == .zelle) (assertZelleConfigured t)).Along
      (Lawful (.create t dto)) (.call (.fulfillmentMethods t) methods :: h₁) fun _ h' =>
        openTx (S := shop) h' = [] := by
    have hzelle' : (assertZelleConfigured t).Along (Lawful (.create t dto))
        (.call (.fulfillmentMethods t) methods :: h₁) fun _ _ => True :=
      Permissive.skip (lawful_getDecryptedCredentials _ _) fun _ _ _ =>
        along_throwIf.2 ⟨fun _ => trivial, fun _ => trivial⟩
    refine along_runIf.2 ⟨fun _ => ?_, fun _ => hopen₁⟩
    refine (hzelle'.within (A := noUpdate) ?_).mono fun _ _ hh => ?_
    swap
    · rw [openTx_of_extends hh.2]
      exact hopen₁
    refine within_bind ?_ fun _ => within_throwIf
    unfold getDecryptedCredentials
    split
    · exact within_ret
    · refine within_bind within_query fun _ => ?_
      split
      · exact within_ret
      · split
        · exact within_ret
        · exact within_bind within_orThrow fun _ => within_ret
  refine along_seq.2 (hzelle.mono fun _ h₂ hopen₂ => ?_)
  have hdigital : (runIf (tenant.catalogType == .digital) (assertDigitalOrder dto)).Along
      (Lawful (.create t dto)) h₂ fun _ h' => openTx (S := shop) h' = [] := by
    refine along_runIf.2 ⟨fun _ => ?_, fun _ => hopen₂⟩
    refine hP.check fun _ => hP.check fun _ => hP.check fun _ => ?_
    exact along_throwIf.2 ⟨fun _ => trivial, fun _ => hopen₂⟩
  refine along_seq.2 (hdigital.mono fun _ h₃ hopen₃ => ?_)
  refine along_seq.2 ((lawful_priceOrder hopen₃).mono fun priced h₄ hpriced => ?_)
  refine Permissive.skipIf (fun _ => ?_) fun h₅ hh₅ => ?_
  · refine lawful_reserveStock (.inl ⟨t, dto, rfl⟩) fun l hl => ?_
    obtain ⟨l', hl', rfl⟩ := List.mem_map.1 hl
    exact le_trans (by decide) (hpriced.lines l' hl').2
  -- the rest is the same whether a coupon was redeemed or not
  have hrest : ∀ h₆, h₅ <:+ h₆ → (do
      let createdAt ← now
      let orderId ← uuid
      insertOne (.insertOrder orderId
        (newOrder t tenant dto (priced.coupon.map Prod.fst) priced.totals createdAt))
      Prog.each (createItem t orderId) priced.pricedLines
      Prog.runIf dto.fulfillmentMethod.byMessage
        (dispatchMessageFulfillment t tenant orderId dto.fulfillmentMethod)
      Prog.runIf (dto.customerEmail.isSome && !tenant.catalogType == .digital)
        (queueConfirmationEmail t orderId)
      .call (.emitOrderEvent orderId) .ret : Prog shop Unit).Along (Lawful (.create t dto)) h₆
        fun _ _ => True := by
    intro h₆ hh₆
    have hpriced₆ := hpriced.mono (hh₅.trans hh₆)
    refine hP.invoke fun createdAt => hP.invoke fun orderId => ?_
    refine lawful_insertOne ⟨t, dto, tenant, _, _, createdAt, rfl, rfl⟩ ?_
    have hsuffix : h₆ <:+ .update (.insertOrder orderId (newOrder t tenant dto
        (priced.coupon.map Prod.fst) priced.totals createdAt)) true ::
        .call .uuid orderId :: .call .now createdAt :: h₆ :=
      ((List.suffix_cons _ _).trans (List.suffix_cons _ _)).trans (List.suffix_cons _ _)
    have hitems := lawful_createItems t orderId dto
      (hpriced₆.mono hsuffix).lines
    refine along_seq.2 ((hitems.within (within_each fun l => within_createItem t orderId l)).mono
      fun _ h₇ hh₇ => ?_)
    refine Permissive.skipIf (fun _ => ?_) fun h₈ _ => ?_
    · exact lawful_dispatchMessageFulfillment ⟨t, dto, rfl⟩ rfl (wrote_of_items hh₇.2)
    · exact Permissive.skipIf (fun _ => lawful_queueConfirmationEmail t orderId)
        fun _ _ => hP.invoke fun _ => trivial
  split
  · exact hrest _ (List.suffix_refl _)
  · next c coupon hcoupon =>
      refine Permissive.skip ?_ fun _ h₆ hh₆ => hrest h₆ hh₆
      refine hP.write ⟨⟨t, dto, rfl⟩, coupon, ?_, rfl⟩ fun _ => ?_
      · exact Saw.mono (hpriced.coupon _ hcoupon) hh₅
      · exact along_throwIf.2 ⟨fun _ => trivial, fun _ => trivial⟩

end WhatStore
