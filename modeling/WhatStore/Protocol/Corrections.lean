import WhatStore.Protocol.Orders

/-!
# Status changes and corrections keep to the protocol
-/

namespace WhatStore

open ReadCommitted ReadCommitted.Prog

variable {α : Type} {r : Request} {h : List Ev} {Q : α → List Ev → Prop}

/-! ## Status changes -/

theorem updateStatus_follows (t id : Id) (status : OrderStatus) (canRefund : Bool) :
    (updateStatus t id status canRefund).Follows
      (Lawful (.updateStatus t id status canRefund)) := by
  have hP := lawful_permissive (.updateStatus t id status canRefund)
  refine hP.ask fun s => hP.demand fun x hx => ?_
  have ho : OrderSaw id x.1 _ := orderSaw_orderWithItems (h := []) hx (by simp [locks])
  have hitems : ∀ i ∈ x.2, Saw (S := shop) (.item i.1) (some i.2) _ := fun i hi =>
    (itemSaw_orderWithItems (h := []) hx hi (by simp [locks])).2
  refine hP.check fun hterm => hP.check fun _ => ?_
  refine Permissive.skipIf (fun hne => ?_) fun h₁ hh₁ => ?_
  · have hnew : status ≠ x.1.status := by simpa using hne
    refine hP.write ⟨⟨t, canRefund, rfl⟩, x.1, ho, rfl, hnew.symm, ?_, rfl⟩ fun _ =>
      along_throwIf.2 ⟨fun _ => trivial, fun _ => trivial⟩
    simpa [hnew] using hterm
  refine Permissive.skipIf (fun hsame => ?_) fun h₂ hh₂ => ?_
  · simp only [Bool.and_eq_true, beq_iff_eq] at hsame
    exact lawful_updateOne_last
      ⟨⟨t, canRefund, rfl⟩, x.1, Saw.mono ho hh₁, hsame.1.symm, rfl, hsame.2⟩
  refine Permissive.skipIf (fun _ => lawful_revokeForOrder _ _) fun h₃ hh₃ => ?_
  refine Permissive.skipIf (fun hcancel => ?_) fun h₄ _ => ?_
  · simp only [Bool.and_eq_true, beq_iff_eq] at hcancel
    refine Permissive.skip (lawful_getTenant t) fun tenant h' hh' => ?_
    refine Permissive.skipIf (fun _ => ?_) fun _ _ => ?_
    · exact lawful_releaseStock (released_nonneg fun i hi =>
        Saw.mono (hitems i hi) (hh₁.trans (hh₂.trans (hh₃.trans hh'))))
    · exact lawful_releaseCoupon (.inl ⟨t, id, canRefund, by rw [hcancel.1]⟩)
  refine Permissive.skipIf (fun _ => lawful_refundOrderPayment _ _) fun h₅ _ => ?_
  refine hP.ask fun _ => hP.demand fun _ _ => ?_
  exact hP.invoke fun _ => trivial

/-! ## What a correction asks for -/

theorem addWanted_spec {wanted : List (LineKey × Int)} {line w : LineKey × Int}
    (hw : w ∈ addWanted wanted line) :
    ((∃ v ∈ wanted, v.1 = w.1) ∨ line.1 = w.1) ∧
      ((∀ v ∈ wanted, 1 ≤ v.2) → 1 ≤ line.2 → 1 ≤ w.2) := by
  unfold addWanted at hw
  split at hw
  · obtain ⟨v, hv, rfl⟩ := List.mem_map.1 hw
    split
    · refine ⟨.inl ⟨v, hv, rfl⟩, fun hpos hline => ?_⟩
      have := hpos v hv
      simp only
      omega
    · exact ⟨.inl ⟨v, hv, rfl⟩, fun hpos _ => hpos v hv⟩
  · rcases List.mem_append.1 hw with hw | hw
    · exact ⟨.inl ⟨w, hw, rfl⟩, fun hpos _ => hpos w hw⟩
    · rw [List.mem_singleton.1 hw]
      exact ⟨.inr rfl, fun _ hline => hline⟩

theorem foldl_addWanted_spec {lines : List (LineKey × Int)} :
    ∀ {wanted : List (LineKey × Int)} {w : LineKey × Int}, w ∈ lines.foldl addWanted wanted →
      (∃ v ∈ wanted ++ lines, v.1 = w.1) ∧ ((∀ v ∈ wanted ++ lines, 1 ≤ v.2) → 1 ≤ w.2) := by
  induction lines with
  | nil =>
      intro wanted w hw
      exact ⟨⟨w, by simpa using hw, rfl⟩, fun hpos => hpos w (by simpa using hw)⟩
  | cons line lines ih =>
      intro wanted w hw
      obtain ⟨⟨v, hv, hkey⟩, hpos⟩ := ih hw
      refine ⟨?_, fun hall => hpos fun v hv => ?_⟩
      · rcases List.mem_append.1 hv with hv | hv
        · rcases (addWanted_spec hv).1 with ⟨u, hu, huv⟩ | hline
          · exact ⟨u, List.mem_append_left _ hu, huv.trans hkey⟩
          · exact ⟨line, List.mem_append_right _ List.mem_cons_self, hline.trans hkey⟩
        · exact ⟨v, List.mem_append_right _ (List.mem_cons_of_mem _ hv), hkey⟩
      · rcases List.mem_append.1 hv with hv | hv
        · refine (addWanted_spec hv).2 (fun u hu => hall u (List.mem_append_left _ hu)) ?_
          exact hall line (List.mem_append_right _ List.mem_cons_self)
        · exact hall v (List.mem_append_right _ (List.mem_cons_of_mem _ hv))

theorem existingLine_mem {items : List (Id × OrderItem)} {key : LineKey} {i : Id × OrderItem}
    (h : existingLine items key = some i) : i ∈ items ∧ i.2.lineKey = key := by
  have hmem := List.mem_of_getLast? h
  obtain ⟨hi, hkey⟩ := List.mem_filter.1 hmem
  exact ⟨hi, by simpa using hkey⟩

theorem existingLine_isSome {items : List (Id × OrderItem)} {i : Id × OrderItem} (hi : i ∈ items) :
    (existingLine items i.2.lineKey).isSome := by
  rw [existingLine, List.getLast?_isSome]
  exact List.ne_nil_of_mem (List.mem_filter.2 ⟨hi, by simp⟩)

/-- A wanted line has a positive quantity if the lines of the order have; one
that is new on the order comes from the request, and is positive anyhow. -/
theorem wantedLines_pos {items : List (Id × OrderItem)}
    {requested : Option (List OrderItemInput)} {w : LineKey × Int}
    (hw : w ∈ wantedLines items requested) :
    ((∀ i ∈ items, 1 ≤ i.2.quantity) → 1 ≤ w.2) ∧ (existingLine items w.1 = none → 1 ≤ w.2) := by
  cases requested with
  | some inputs =>
      obtain ⟨-, hpos⟩ := foldl_addWanted_spec hw
      have hone : 1 ≤ w.2 := hpos fun v hv => by
        obtain ⟨i, -, rfl⟩ := List.mem_map.1 (by simpa using hv)
        exact i.quantity_pos
      exact ⟨fun _ => hone, fun _ => hone⟩
  | none =>
      obtain ⟨⟨v, hv, hkey⟩, hpos⟩ := foldl_addWanted_spec hw
      rw [List.nil_append] at hv hpos
      obtain ⟨i, hi, rfl⟩ := List.mem_map.1 hv
      refine ⟨fun hall => hpos fun v hv => ?_, fun hnone => ?_⟩
      · obtain ⟨j, hj, rfl⟩ := List.mem_map.1 hv
        exact hall j hj
      · have := existingLine_isSome hi
        rw [show i.2.lineKey = w.1 from hkey, hnone] at this
        cases this

theorem repriceLine_ok {items : List (Id × OrderItem)} {products : Catalog}
    {wanted : LineKey × Int} {l : RepricedLine} (h : repriceLine items products wanted = .ok l) :
    (∃ i priced, l = .kept i.1 i.2 priced ∧ existingLine items wanted.1 = some i ∧
      priced.quantity = wanted.2) ∨
    (∃ line variants, l = .added line ∧ existingLine items wanted.1 = none ∧
      line.quantity = wanted.2 ∧ (line.productId, line.product, variants) ∈ products ∧
      ∀ v, line.variant = some v → v ∈ variants) := by
  unfold repriceLine at h
  split at h
  · next itemId item hex =>
      cases h
      exact .inl ⟨(itemId, item), _, rfl, hex, rfl⟩
  · next hnone =>
      simp only at h
      split at h
      · cases h
      · next p product variants hfind =>
          split at h
          · cases h
          cases h
          refine .inr ⟨_, variants, rfl, hnone, rfl, List.mem_of_find?_eq_some hfind, ?_⟩
          intro v hv
          obtain ⟨x, -, hx⟩ := Option.bind_eq_some_iff.1 hv
          exact List.mem_of_find?_eq_some hx

structure RepricedSaw (items : List (Id × OrderItem)) (R : Repriced) (h : List Ev) : Prop where
  kept : ∀ id item priced, RepricedLine.kept id item priced ∈ R.lines →
    (id, item) ∈ items ∧ ((∀ i ∈ items, 1 ≤ i.2.quantity) → 1 ≤ priced.quantity)
  added : ∀ line, RepricedLine.added line ∈ R.lines → LineSaw line.toPricedLine h ∧ 1 ≤ line.quantity
  removed : ∀ i ∈ R.removed, i ∈ items

theorem RepricedSaw.mono {items : List (Id × OrderItem)} {R : Repriced} {h h' : List Ev}
    (hR : RepricedSaw items R h) (hh : h <:+ h') : RepricedSaw items R h' :=
  ⟨hR.kept, fun l hl => ⟨(hR.added l hl).1.mono hh, (hR.added l hl).2⟩, hR.removed⟩

theorem lawful_newProducts {t : Id} {items : List (Id × OrderItem)}
    {wanted : List (LineKey × Int)} (hopen : openTx (S := shop) h = []) :
    (newProducts t items wanted).Along (Lawful r) h fun products h' =>
      ∀ (l : PricedLine) variants, (l.productId, l.product, variants) ∈ products →
        (∀ v, l.variant = some v → v ∈ variants) → LineSaw l h' := by
  unfold newProducts
  simp only
  split
  · intro l variants hmem
    cases hmem
  · exact fun s => ⟨trivial, fun l variants hp hv => lineSaw_of_mem (h := h) hp hv hopen⟩

theorem within_newProducts {A : Update → Prop} (t : Id) (items : List (Id × OrderItem))
    (wanted : List (LineKey × Int)) : (newProducts t items wanted).Within (S := shop) A := by
  unfold newProducts
  simp only
  split
  · exact within_ret
  · exact within_query

theorem within_repriceDiscount {A : Update → Prop} (t : Id) (o : Order) (total : Cents) :
    (repriceDiscount t o total).Within (S := shop) A := by
  unfold repriceDiscount
  split
  · exact within_ret
  · refine within_bind within_query fun _ => ?_
    split
    · exact within_ret
    · exact within_ret

theorem within_repriceShipping {A : Update → Prop} (t : Id) (o : Order)
    (shippingId : Option (Option Id)) : (repriceShipping t o shippingId).Within (S := shop) A := by
  unfold repriceShipping
  split
  · exact within_ret
  · exact within_ret
  · exact within_bind within_query fun _ => within_bind within_orThrow fun _ => within_ret

theorem within_reprice {A : Update → Prop} (t : Id) (o : Order) (items : List (Id × OrderItem))
    (requested : Option (List OrderItemInput)) (shippingId : Option (Option Id)) :
    (reprice t o items requested shippingId).Within (S := shop) A := by
  refine within_bind (within_newProducts t items _) fun products => ?_
  refine within_bind (fun h => along_ofExcept.2 ⟨fun _ _ => trivial, fun _ _ => trivial⟩)
    fun lines => ?_
  refine within_bind (within_repriceDiscount _ _ _) fun _ => ?_
  exact within_bind (within_repriceShipping _ _ _) fun _ => within_ret

theorem lawful_reprice {t : Id} {o : Order} {items : List (Id × OrderItem)}
    {requested : Option (List OrderItemInput)} {shippingId : Option (Option Id)}
    (hopen : openTx (S := shop) h = []) :
    (reprice t o items requested shippingId).Along (Lawful r) h fun R h' =>
      RepricedSaw items R h' := by
  refine along_seq.2 ((lawful_newProducts hopen).mono fun products h₁ hproducts => ?_)
  refine (lawful_permissive r).lift fun lines hlines => ?_
  have hdiscount : ∀ total, (repriceDiscount t o total).Along (Lawful r) h₁ fun _ _ => True := by
    intro total
    unfold repriceDiscount
    split
    · exact trivial
    · refine (lawful_permissive r).ask fun _ => ?_
      split
      · exact trivial
      · exact trivial
  refine Permissive.skip (hdiscount _) fun discount h₂ hh₂ => ?_
  have hshipping : (repriceShipping t o shippingId).Along (Lawful r) h₂ fun _ _ => True := by
    unfold repriceShipping
    split
    · exact trivial
    · exact trivial
    · exact (lawful_permissive r).ask fun _ => (lawful_permissive r).demand fun _ _ => trivial
  refine Permissive.skip hshipping fun shipping h₃ hh₃ => ?_
  refine ⟨fun id item priced hl => ?_, fun line hl => ?_, fun i hi => (List.mem_filter.1 hi).1⟩
  · obtain ⟨w, hw, hok⟩ := mem_of_mapM_ok hlines hl
    rcases repriceLine_ok hok with ⟨i, priced', heq, hex, hq⟩ | ⟨line, variants, heq, -⟩
    · cases heq
      refine ⟨(existingLine_mem hex).1, fun hall => ?_⟩
      rw [hq]
      exact (wantedLines_pos hw).1 hall
    · cases heq
  · obtain ⟨w, hw, hok⟩ := mem_of_mapM_ok hlines hl
    rcases repriceLine_ok hok with ⟨i, priced', heq, -⟩ | ⟨line', variants, heq, hnone, hq, hp, hv⟩
    · cases heq
    · cases heq
      refine ⟨(hproducts _ variants hp hv).mono (hh₂.trans hh₃), ?_⟩
      rw [hq]
      exact (wantedLines_pos hw).2 hnone

/-! ## Writing a correction -/

theorem lawful_stockLine {productId variantId : Option Id} {n : Int} (hn : 0 ≤ n) :
    (stockLine productId variantId n).Along (Lawful r) h fun l _ =>
      ∀ x, l = some x → 0 ≤ x.quantity := by
  unfold stockLine
  split
  · refine (lawful_permissive r).ask fun _ => ?_
    split
    · exact nofun
    · refine (lawful_permissive r).demand fun _ _ => ?_
      rintro x ⟨⟩
      exact hn
  · exact nofun
  · refine (lawful_permissive r).ask fun _ => ?_
    intro x hx
    obtain ⟨p, -, rfl⟩ := Option.map_eq_some_iff.1 hx
    exact hn

structure StockMoves.Nonneg (m : StockMoves) : Prop where
  reserve : ∀ l ∈ m.toReserve, 0 ≤ l.quantity
  release : ∀ i ∈ m.toRelease, 0 ≤ i.quantity

theorem lawful_applyLine {t id : Id} {dto : UpdateOrder} {items : List (Id × OrderItem)}
    {R : Repriced} {l : RepricedLine} (hl : l ∈ R.lines) (hR : RepricedSaw items R h)
    (hitems : ∀ i ∈ items, i.2.orderId = id ∧ Saw (S := shop) (.item i.1) (some i.2) h) :
    (applyLine t id l).Along (Lawful (.updateDetails t id dto)) h fun m _ => m.Nonneg := by
  cases l with
  | kept itemId item priced =>
      obtain ⟨hmem, hpos⟩ := hR.kept itemId item priced hl
      unfold applyLine
      simp only
      split
      · exact ⟨by simp, by simp⟩
      · refine lawful_updateOne ⟨⟨t, dto, by rw [(hitems _ hmem).1]⟩, (hitems _ hmem).2,
          fun hlines => hpos fun i hi => hlines _ _ (hitems i hi).2⟩ ?_
        split
        · next hdelta =>
            refine along_seq.2 ((lawful_stockLine (le_of_lt hdelta)).mono fun l _ hl => ?_)
            exact ⟨fun x hx => hl x (by simpa using hx), by simp⟩
        · next hdelta =>
            refine ⟨by simp, fun i hi => ?_⟩
            rw [List.mem_singleton.1 hi]
            simp only
            omega
  | added line =>
      obtain ⟨hsaw, hpos⟩ := hR.added line hl
      refine (lawful_permissive _).invoke fun iid => lawful_insertOne ?_ ?_
      · have hsaw' := hsaw.mono (List.suffix_cons (.call .uuid iid) h)
        refine ⟨.inr ⟨t, dto, rfl⟩, ?_, ⟨_, rfl, _, hsaw'.product⟩, fun row hrow => ?_⟩
        · rw [newItem, line.priced_quantity]
          exact hpos
        · rw [newItem_stockRow] at hrow
          cases hrow
          exact hsaw'.stockRow
      · refine ⟨fun l hl => ?_, by simp⟩
        rw [List.mem_singleton.1 hl]
        exact le_trans (by decide) hpos

theorem lawful_applyItemChanges {t id : Id} {dto : UpdateOrder} {items : List (Id × OrderItem)}
    {R : Repriced} {tracks : Bool} (hR : RepricedSaw items R h)
    (hitems : ∀ i ∈ items, i.2.orderId = id ∧ Saw (S := shop) (.item i.1) (some i.2) h) :
    (applyItemChanges t id R tracks).Along (Lawful (.updateDetails t id dto)) h
      fun _ _ => True := by
  have hcollect : (collect (applyLine t id) R.lines).Along (Lawful (.updateDetails t id dto)) h
      fun moves h' => h <:+ h' ∧ ∀ m ∈ moves, m.Nonneg := by
    refine (along_collect (I := fun rest moves h' => h <:+ h' ∧ (∀ l ∈ rest, l ∈ R.lines) ∧
      ∀ m ∈ moves, m.Nonneg) [] ⟨List.suffix_refl h, fun _ hl => hl, nofun⟩ ?_).mono
      fun moves h' hI => ⟨hI.1, by simpa using hI.2.2⟩
    intro l rest moves h' hI
    have hitems' : ∀ i ∈ items, i.2.orderId = id ∧ Saw (S := shop) (.item i.1) (some i.2) h' :=
      fun i hi => ⟨(hitems i hi).1, Saw.mono (hitems i hi).2 hI.1⟩
    refine (lawful_applyLine (hI.2.1 l List.mem_cons_self) (hR.mono hI.1) hitems').grows.mono
      fun m h'' hm => ?_
    refine ⟨hI.1.trans hm.1, fun l' hl' => hI.2.1 l' (List.mem_cons_of_mem _ hl'), fun m' hm' => ?_⟩
    rcases List.mem_append.1 hm' with hm' | hm'
    · exact hI.2.2 m' hm'
    · rw [List.mem_singleton.1 hm']
      exact hm.2
  refine along_seq.2 (hcollect.mono fun moves h₁ hmoves => ?_)
  refine Permissive.skip (lawful_each fun i hi h' hh' => ?_) fun _ h₂ hh₂ => ?_
  · obtain ⟨hid, hsaw⟩ := hitems i (hR.removed i hi)
    refine lawful_updateOne_last ⟨⟨t, dto, by rw [hid]⟩, Saw.mono hsaw (hmoves.1.trans hh')⟩
  · refine along_runIf.2 ⟨fun _ => ?_, fun _ => trivial⟩
    refine Permissive.skip (lawful_reserveStock (.inr ⟨t, id, dto, rfl⟩) fun l hl => ?_)
      fun _ h₃ hh₃ => lawful_releaseStock fun hlines i hi => ?_
    · obtain ⟨m, hm, hlm⟩ := List.mem_flatMap.1 hl
      exact (hmoves.2 m hm).reserve l hlm
    · rcases List.mem_append.1 hi with hi | hi
      · obtain ⟨m, hm, him⟩ := List.mem_flatMap.1 hi
        exact (hmoves.2 m hm).release i him
      · refine released_nonneg (fun i hi => ?_) hlines i hi
        exact Saw.mono (hitems i (hR.removed i hi)).2 (hmoves.1.trans (hh₂.trans hh₃))

/-- The new totals of an order that was paid by card are its old ones. -/
theorem lawful_correctLines {t id : Id} {dto : UpdateOrder} {o : Order}
    {items : List (Id × OrderItem)} (hopen : openTx (S := shop) h = [])
    (hitems : ∀ i ∈ items, i.2.orderId = id ∧ Saw (S := shop) (.item i.1) (some i.2) h) :
    (correctLines t id o items dto).Along (Lawful (.updateDetails t id dto)) h fun x _ =>
      (∀ R, x = some R → o.isGateway = true → o.paymentStatus = .paid →
        R.totals.grandTotal = o.grandTotal) ∧
      ((dto.items = none ∧ dto.shippingId = none) → x = none) := by
  unfold correctLines
  split
  · exact ⟨nofun, fun _ => rfl⟩
  · next hasked =>
      refine along_seq.2 ((lawful_reprice hopen).grows.mono fun R h₁ hR => ?_)
      refine (lawful_permissive _).check fun htotals => ?_
      refine Permissive.skip (lawful_getTenant t) fun tenant h₂ hh₂ => ?_
      refine Permissive.skip (lawful_applyItemChanges (hR.2.mono hh₂) fun i hi => ?_)
        fun _ h₃ _ => ?_
      · exact ⟨(hitems i hi).1, Saw.mono (hitems i hi).2 (hR.1.trans hh₂)⟩
      · refine ⟨?_, fun hnone => ?_⟩
        · rintro _ ⟨⟩ hgateway hpaid
          simpa [hgateway, hpaid] using htotals
        · simp [hnone.1, hnone.2] at hasked

theorem lawful_updateDetails (t id : Id) (dto : UpdateOrder) :
    (updateDetails t id dto).Along (Lawful (.updateDetails t id dto)) [] fun _ _ => True := by
  have hP := lawful_permissive (.updateDetails t id dto)
  refine hP.ask fun s => hP.demand fun x hx => ?_
  have ho : OrderSaw id x.1 _ := orderSaw_orderWithItems (h := []) hx (by simp [locks])
  have hitems : ∀ i ∈ x.2, i.2.orderId = id ∧ Saw (S := shop) (.item i.1) (some i.2) _ :=
    fun i hi => itemSaw_orderWithItems (h := []) hx hi (by simp [locks])
  refine hP.check fun hterm => hP.check fun hstatus => ?_
  refine along_seq.2 ((lawful_correctLines (by rfl) hitems).grows.mono fun R h₁ hR => ?_)
  refine lawful_updateOne ⟨t, dto, rfl, x.1, Saw.mono ho hR.1, hterm, fun p hp => ?_,
    fun totals htotals => ?_, fun hnone => ?_⟩ ?_
  · obtain ⟨hdto, hne⟩ := Option.filter_eq_some_iff.1 hp
    refine ⟨dto.paymentStatus_ok p hdto, ?_, by simpa using hne⟩
    simpa [hdto, hne] using hstatus
  · obtain ⟨R', rfl, rfl⟩ := Option.map_eq_some_iff.1 htotals
    exact hR.2.1 R' rfl
  · rw [orderEdit, hR.2.2 hnone]
    rfl
  · simp only
    split
    · exact hP.invoke fun _ => hP.invoke fun _ => trivial
    · exact hP.invoke fun _ => trivial

/-! ## Proofs of payment and hiding -/

theorem submitPaymentProof_follows (t id : Id) (proofUrl : String) (safe : Bool)
    (reference : Option String) :
    (submitPaymentProof t id proofUrl safe reference).Follows (Lawful r) := by
  have hP := lawful_permissive r
  refine hP.check fun _ => hP.ask fun s => hP.demand fun o ho => ?_
  refine hP.check fun hmethod => hP.check fun hpaid => lawful_updateOne ?_ ?_
  · exact ⟨o, orderSaw_order ho (by simp [locks]), by simpa using hmethod, by simpa using hpaid⟩
  · split
    · split
      · exact hP.invoke fun _ => hP.invoke fun _ => trivial
      · exact hP.invoke fun _ => trivial
    · exact hP.invoke fun _ => trivial

theorem hide_follows (t id : Id) : (hide t id).Follows (Lawful r) := by
  have hP := lawful_permissive r
  refine hP.ask fun s => hP.demand fun x hx => hP.check fun hhide => hP.invoke fun time => ?_
  refine (lawful_updateOne_last ?_).mono fun _ _ _ => trivial
  refine ⟨x.1, Saw.mono (orderSaw_orderWithItems (h := []) hx (by simp [locks]))
    (List.suffix_cons _ _), ?_⟩
  simpa using hhide

/-! ## Every request -/

theorem thenHooks_follows {p : Prog shop (List Job)}
    (hp : p.Along (Lawful r) [] fun _ _ => True) : (thenHooks p).Follows (Lawful r) := by
  refine Permissive.skip hp fun jobs h' _ => Permissive.finish trivial ?_
  exact (lawful_runHooks jobs).mono fun _ _ _ => trivial

/-- The program of every request follows its protocol. -/
theorem handler_follows (r : Request) : (handler r).Follows (Lawful r) := by
  cases r with
  | create t dto => exact create_follows t dto
  | updateStatus t id status canRefund => exact updateStatus_follows t id status canRefund
  | updateDetails t id dto => exact thenHooks_follows (lawful_updateDetails t id dto)
  | hide t id => exact hide_follows t id
  | submitPaymentProof t id url safe reference =>
      exact submitPaymentProof_follows t id url safe reference
  | confirmZellePayment t id => exact thenHooks_follows (lawful_confirmManualPayment t id)
  | rejectZellePayment t id => exact rejectManualPayment_follows t id
  | createStripeCheckout t id => exact createStripeCheckout_follows t id
  | createMercadoPagoCheckout t id => exact createMercadoPagoCheckout_follows t id
  | createPayPalCheckout t id => exact createPayPalCheckout_follows t id
  | capturePayPalOrder t id => exact capturePayPalOrder_follows t id
  | stripeWebhook event => exact handleStripeWebhook_follows event
  | mercadoPagoWebhook notification => exact handleMercadoPagoWebhook_follows notification
  | payPalWebhook event => exact handlePayPalWebhook_follows event
  | sweep => exact sweep_follows
  | updateTenant t dto => exact updateTenant_follows t dto
  | updateProduct t id dto => exact updateProduct_follows t id dto
  | processDelivery id resend => exact processDelivery_follows id resend
  | requeueUnsent => exact requeueUnsent_follows
  | resend t id => exact thenHooks_follows (lawful_resend t id)
  | redeem token => exact redeem_follows token
  | removeAsset t p id => exact removeAsset_follows t p id
  | removeProduct t p => exact removeProduct_follows t p

def Among (starts : Request → Prop) : Protocol shop Request := fun r h e => starts r ∧ Lawful r h e

theorem handler_among {starts : Request → Prop} (r : Request) (hr : starts r) :
    (handler r).Follows (Among starts r) :=
  (handler_follows r).weaken fun _ _ he => ⟨hr, he⟩

end WhatStore
