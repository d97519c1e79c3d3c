import WhatStore.Checkout.Lines

/-!
# Repricing an order

What a correction computes before it writes: the lines that are wanted, each
key once with its units added up, the rows of the order they stand for, and the
new totals. A key that stands on several rows of the order is matched to the
last of them only.
-/

namespace WhatStore

open ReadCommitted ReadCommitted.Prog

/-! ## Wanted lines -/

/-- The units a list of keyed lines has of a key. -/
def unitsAt (key : LineKey) (lines : List (LineKey × Int)) : Int :=
  (lines.map fun l => if l.1 = key then l.2 else 0).sum

@[simp] theorem unitsAt_nil (key : LineKey) : unitsAt key [] = 0 := rfl

theorem unitsAt_append (key : LineKey) (lines lines' : List (LineKey × Int)) :
    unitsAt key (lines ++ lines') = unitsAt key lines + unitsAt key lines' := by
  simp [unitsAt]

theorem unitsAt_eq_zero {key : LineKey} {lines : List (LineKey × Int)}
    (h : key ∉ lines.map Prod.fst) : unitsAt key lines = 0 := by
  refine List.sum_eq_zero fun n hn => ?_
  obtain ⟨l, hl, rfl⟩ := List.mem_map.1 hn
  exact if_neg fun heq => h (List.mem_map.2 ⟨l, hl, heq⟩)

/-- `wanted` has each key of `lines` once, with its units added up. -/
structure Merged (wanted lines : List (LineKey × Int)) : Prop where
  nodup : (wanted.map Prod.fst).Nodup
  keys : ∀ key, key ∈ wanted.map Prod.fst ↔ key ∈ lines.map Prod.fst
  units : ∀ w ∈ wanted, w.2 = unitsAt w.1 lines

theorem Merged.addWanted {wanted lines : List (LineKey × Int)} (h : Merged wanted lines)
    (line : LineKey × Int) : Merged (addWanted wanted line) (lines ++ [line]) := by
  have hline : ∀ key, unitsAt key [line] = if line.1 = key then line.2 else 0 := fun key => by
    simp [unitsAt]
  unfold WhatStore.addWanted
  split
  · next hseen =>
      obtain ⟨v, hv, hkey⟩ := List.any_eq_true.1 hseen
      have hmem : line.1 ∈ wanted.map Prod.fst := by
        rw [← eq_of_beq hkey]
        exact List.mem_map_of_mem hv
      have hkeys : (wanted.map fun w => if w.1 == line.1 then (w.1, w.2 + line.2) else w).map
          Prod.fst = wanted.map Prod.fst := by
        rw [List.map_map]
        refine List.map_congr_left fun w _ => ?_
        by_cases hw : w.1 = line.1 <;> simp [hw]
      refine ⟨hkeys ▸ h.nodup, fun key => ?_, fun w hw => ?_⟩
      · rw [hkeys, h.keys, List.map_append, List.mem_append]
        refine ⟨.inl, fun hk => hk.elim id fun hk => ?_⟩
        rw [List.mem_singleton.1 hk]
        exact (h.keys line.1).1 hmem
      · obtain ⟨u, hu, rfl⟩ := List.mem_map.1 hw
        rw [unitsAt_append, hline]
        by_cases hul : u.1 = line.1
        · simp [hul, h.units u hu]
        · simp [hul, h.units u hu, Ne.symm hul]
  · next hnew =>
      have hnot : line.1 ∉ wanted.map Prod.fst := fun hmem => by
        obtain ⟨v, hv, hkey⟩ := List.mem_map.1 hmem
        exact hnew (List.any_eq_true.2 ⟨v, hv, by simp [hkey]⟩)
      refine ⟨?_, fun key => ?_, fun w hw => ?_⟩
      · rw [List.map_append, List.nodup_append]
        refine ⟨h.nodup, List.nodup_singleton _, fun k hk k' hk' heq => hnot ?_⟩
        rw [← List.mem_singleton.1 hk', ← heq]
        exact hk
      · simp only [List.map_append, List.mem_append, h.keys]
      · rw [unitsAt_append, hline]
        rcases List.mem_append.1 hw with hw | hw
        · have hne : line.1 ≠ w.1 := fun heq => hnot (heq ▸ List.mem_map_of_mem hw)
          rw [if_neg hne, add_zero]
          exact h.units w hw
        · rw [List.mem_singleton.1 hw, if_pos rfl, unitsAt_eq_zero fun hmem =>
            hnot ((h.keys line.1).2 hmem), zero_add]

theorem merged_foldl (lines : List (LineKey × Int)) : Merged (lines.foldl addWanted []) lines := by
  induction lines using List.reverseRecOn with
  | nil => exact ⟨List.nodup_nil, fun _ => Iff.rfl, nofun⟩
  | append_singleton lines line ih =>
      rw [List.foldl_append]
      exact ih.addWanted line

/-- The lines a correction asks for, before repeated ones are merged. -/
def askedLines (items : List (Id × OrderItem)) (requested : Option (List OrderItemInput)) :
    List (LineKey × Int) :=
  match requested with
  | some inputs => inputs.map fun i => (i.lineKey, i.quantity)
  | none => items.map fun i => (i.2.lineKey, i.2.quantity)

theorem merged_wantedLines (items : List (Id × OrderItem))
    (requested : Option (List OrderItemInput)) :
    Merged (wantedLines items requested) (askedLines items requested) := by
  cases requested with
  | some inputs => exact merged_foldl _
  | none => exact merged_foldl _

/-! ## The rows a line stands for -/

def rowsAt (key : LineKey) (items : List (Id × OrderItem)) : List (Id × OrderItem) :=
  items.filter fun i => i.2.lineKey == key

/-- No wanted line stands on more than one row of the order. -/
def SingleRows (items : List (Id × OrderItem)) (requested : Option (List OrderItemInput)) : Prop :=
  ∀ w ∈ wantedLines items requested, (rowsAt w.1 items).length ≤ 1

instance (items : List (Id × OrderItem)) (requested : Option (List OrderItemInput)) :
    Decidable (SingleRows items requested) :=
  inferInstanceAs (Decidable (∀ w ∈ wantedLines items requested, (rowsAt w.1 items).length ≤ 1))

theorem mem_rowsAt {key : LineKey} {items : List (Id × OrderItem)} {i : Id × OrderItem} :
    i ∈ rowsAt key items ↔ i ∈ items ∧ i.2.lineKey = key := by
  simp [rowsAt]

theorem existingLine_of_single {items : List (Id × OrderItem)} {i : Id × OrderItem} (hi : i ∈ items)
    (hone : (rowsAt i.2.lineKey items).length ≤ 1) : existingLine items i.2.lineKey = some i := by
  have hmem : i ∈ rowsAt i.2.lineKey items := mem_rowsAt.2 ⟨hi, rfl⟩
  have hex : existingLine items i.2.lineKey = (rowsAt i.2.lineKey items).getLast? := rfl
  cases hrows : rowsAt i.2.lineKey items with
  | nil =>
      rw [hrows] at hmem
      cases hmem
  | cons j rows =>
      rw [hrows] at hone hmem
      have hnil : rows = [] := List.eq_nil_of_length_eq_zero (by simpa using hone)
      subst hnil
      rw [hex, hrows, List.mem_singleton.1 hmem]
      rfl

theorem itemsOf_nodup (db : Database) (id : Id) : (itemsOf db id).Nodup := by
  refine List.Nodup.filterMap ?_ db.keys_nodup
  intro k k' x hx hx'
  cases k <;> cases k' <;> first | cases hx | cases hx' | skip
  obtain ⟨i, -, rfl⟩ := Option.map_eq_some_iff.1 hx
  obtain ⟨i', -, heq⟩ := Option.map_eq_some_iff.1 hx'
  cases heq
  rfl

theorem itemsOf_inj {db : Database} {id : Id} {i j : Id × OrderItem} (hi : i ∈ itemsOf db id)
    (hj : j ∈ itemsOf db id) (h : i.1 = j.1) : i = j := by
  obtain ⟨hi, -⟩ := mem_itemsOf.1 hi
  obtain ⟨hj, -⟩ := mem_itemsOf.1 hj
  rw [h] at hi
  exact Prod.ext h (Option.some.inj (hi.symm.trans hj))

theorem nodup_existing (items : List (Id × OrderItem)) (requested : Option (List OrderItemInput)) :
    ((wantedLines items requested).filterMap fun w => existingLine items w.1).Nodup := by
  have hkeys := List.pairwise_map.1 (merged_wantedLines items requested).nodup
  refine List.pairwise_filterMap.2 (hkeys.imp fun hne i hi j hj heq => hne ?_)
  rw [← (existingLine_mem hi).2, ← (existingLine_mem hj).2, heq]

/-- The rows matched to wanted lines and the rows that are removed are all the
rows, when no wanted line stands on several. -/
theorem kept_append_removed {items : List (Id × OrderItem)} (hnd : items.Nodup)
    {requested : Option (List OrderItemInput)} (hsingle : SingleRows items requested) :
    List.Perm ((wantedLines items requested).filterMap (fun w => existingLine items w.1) ++
      items.filter fun i => !(wantedLines items requested).any fun w => w.1 == i.2.lineKey) items := by
  have hkept : ∀ i, i ∈ (wantedLines items requested).filterMap (fun w => existingLine items w.1) ↔
      i ∈ items ∧ ∃ w ∈ wantedLines items requested, w.1 = i.2.lineKey := by
    intro i
    rw [List.mem_filterMap]
    constructor
    · rintro ⟨w, hw, hex⟩
      obtain ⟨hi, hkey⟩ := existingLine_mem hex
      exact ⟨hi, w, hw, hkey.symm⟩
    · rintro ⟨hi, w, hw, hkey⟩
      have hone := hsingle w hw
      rw [hkey] at hone
      exact ⟨w, hw, hkey ▸ existingLine_of_single hi hone⟩
  have hremoved : ∀ i, i ∈ items.filter (fun i => !(wantedLines items requested).any
      fun w => w.1 == i.2.lineKey) ↔ i ∈ items ∧ ¬ ∃ w ∈ wantedLines items requested,
        w.1 = i.2.lineKey := by
    intro i
    simp only [List.mem_filter, Bool.not_eq_true', ← Bool.not_eq_true, List.any_eq_true,
      beq_iff_eq]
  refine (List.perm_ext_iff_of_nodup (List.Nodup.append (nodup_existing items requested)
    (hnd.filter _) ?_) hnd).2 fun i => ?_
  · exact fun i hi hi' => ((hremoved i).1 hi').2 ((hkept i).1 hi).2
  · rw [List.mem_append, hkept, hremoved]
    constructor
    · rintro (h | h)
      · exact h.1
      · exact h.1
    · intro hi
      by_cases hw : ∃ w ∈ wantedLines items requested, w.1 = i.2.lineKey
      · exact .inl ⟨hi, hw⟩
      · exact .inr ⟨hi, hw⟩

/-! ## Repriced lines -/

/-- The price of a row at a quantity, at the unit price and rates it was sold
at. -/
def OrderItem.repriced (i : OrderItem) (quantity : Int) : Priced :=
  priceLineItem i.unitPrice quantity
    (i.taxBreakdown.map fun t => { name := t.name, rate := t.rate : TaxLine })

def Priced.itemData (p : Priced) : ItemData where
  quantity := p.quantity
  taxAmount := p.taxAmount
  lineTotal := p.lineTotal
  taxBreakdown := p.taxBreakdown

def OrderItem.write (i : OrderItem) (data : ItemData) : OrderItem :=
  { i with quantity := data.quantity, taxAmount := data.taxAmount
           lineTotal := data.lineTotal, taxBreakdown := data.taxBreakdown }

@[simp] theorem OrderItem.write_orderId (i : OrderItem) (data : ItemData) :
    (i.write data).orderId = i.orderId := rfl

@[simp] theorem OrderItem.write_lineKey (i : OrderItem) (data : ItemData) :
    (i.write data).lineKey = i.lineKey := rfl

@[simp] theorem OrderItem.write_stockRow (i : OrderItem) (data : ItemData) :
    (i.write data).stockRow = i.stockRow := rfl

@[simp] theorem OrderItem.write_quantity (i : OrderItem) (data : ItemData) :
    (i.write data).quantity = data.quantity := rfl

def RepricedLine.row (tenantId orderId : Id) : RepricedLine → OrderItem
  | .kept _ item priced =>
    if priced.quantity = item.quantity then item else item.write priced.itemData
  | .added line => newItem tenantId orderId line.toPricedLine line.priced

theorem row_kept (t id iid : Id) (i : OrderItem) (priced : Priced) :
    RepricedLine.row t id (.kept iid i priced) = i ∨
      RepricedLine.row t id (.kept iid i priced) = i.write priced.itemData :=
  ite_eq_or_eq _ _ _

def RepricedLine.old : RepricedLine → Option (Id × OrderItem)
  | .kept itemId item _ => some (itemId, item)
  | .added _ => none

inductive RepricedFrom (items : List (Id × OrderItem)) (products : Catalog) (w : LineKey × Int) :
    RepricedLine → Prop
  | kept (i : Id × OrderItem) (h : existingLine items w.1 = some i) :
      RepricedFrom items products w (.kept i.1 i.2 (i.2.repriced w.2))
  | added (line : OrderLine) (variants : List (Id × ProductVariant))
      (h : existingLine items w.1 = none)
      (hproduct : (line.productId, line.product, variants) ∈ products)
      (hvariant : ∀ v, line.variant = some v → v ∈ variants)
      (hkey : (line.productId, line.variant.map Prod.fst) = (w.1.1.getD 0, w.1.2))
      (hpriced : line.priced = priceLineItem ((line.variant.map fun v => v.2.price).getD
        line.product.price) w.2 line.product.taxes) :
      RepricedFrom items products w (.added line)

theorem repricedFrom_of_ok {items : List (Id × OrderItem)} {products : Catalog}
    {w : LineKey × Int} {l : RepricedLine} (h : repriceLine items products w = .ok l) :
    RepricedFrom items products w l := by
  unfold repriceLine at h
  split at h
  · next itemId item hex =>
      cases h
      exact .kept (itemId, item) hex
  · next hnone =>
      simp only at h
      split at h
      · cases h
      next productId product variants hfind =>
      split at h
      · cases h
      next hknown =>
      cases h
      have hid : productId = w.1.1.getD 0 := by simpa using List.find?_some hfind
      refine .added _ variants hnone (List.mem_of_find?_eq_some hfind) (fun v hv => ?_) ?_ rfl
      · obtain ⟨x, -, hx⟩ := Option.bind_eq_some_iff.1 hv
        exact List.mem_of_find?_eq_some hx
      · refine Prod.ext hid ?_
        cases hv : w.1.2 with
        | none => simp
        | some v =>
            cases hfound : variants.find? fun x => x.1 == v with
            | none => simp [hv, hfound] at hknown
            | some x =>
                have hx : x.1 = v := by simpa using List.find?_some hfound
                simp [hfound, hx]

theorem forall₂_of_mapM_ok {β γ ε : Type} {f : β → Except ε γ} {as : List β} {bs : List γ}
    (h : as.mapM f = .ok bs) : List.Forall₂ (fun a b => f a = .ok b) as bs := by
  induction as generalizing bs with
  | nil =>
      simp only [List.mapM_nil] at h
      cases h
      exact .nil
  | cons a as ih =>
      rw [List.mapM_cons] at h
      cases hfa : f a with
      | error e =>
          rw [hfa] at h
          cases h
      | ok b =>
          cases hrest : as.mapM f with
          | error e =>
              rw [hfa, hrest] at h
              cases h
          | ok bs' =>
              rw [hfa, hrest] at h
              cases h
              exact .cons hfa (ih hrest)

theorem exists_of_forall₂ {β γ : Type} {R : β → γ → Prop} {as : List β} {bs : List γ}
    (h : List.Forall₂ R as bs) {b : γ} (hb : b ∈ bs) : ∃ a ∈ as, R a b := by
  induction h with
  | nil => cases hb
  | cons hab _ ih =>
      rcases List.mem_cons.1 hb with rfl | hb
      · exact ⟨_, List.mem_cons_self, hab⟩
      · obtain ⟨a, ha, hr⟩ := ih hb
        exact ⟨a, List.mem_cons_of_mem _ ha, hr⟩

theorem filterMap_old {items : List (Id × OrderItem)} {products : Catalog}
    {wanted : List (LineKey × Int)} {lines : List RepricedLine}
    (h : List.Forall₂ (RepricedFrom items products) wanted lines) :
    lines.filterMap RepricedLine.old = wanted.filterMap fun w => existingLine items w.1 := by
  induction h with
  | nil => rfl
  | cons hl _ ih =>
      cases hl with
      | kept i hex => simp [RepricedLine.old, hex, ih]
      | added line variants hnone =>
          simp only [List.filterMap_cons, hnone]
          exact ih

def OrderItem.keyed (i : OrderItem) : LineKey × Int := (i.lineKey, i.quantity)

/-- Only a requested line can be new on the order, and it names its product. -/
theorem product_of_new {items : List (Id × OrderItem)} {requested : Option (List OrderItemInput)}
    {w : LineKey × Int} (hw : w ∈ wantedLines items requested)
    (hnew : existingLine items w.1 = none) : ∃ p, w.1.1 = some p := by
  have hkey := ((merged_wantedLines items requested).keys w.1).1 (List.mem_map_of_mem hw)
  obtain ⟨l, hl, hlw⟩ := List.mem_map.1 hkey
  cases requested with
  | some inputs =>
      obtain ⟨i, -, rfl⟩ := List.mem_map.1 hl
      exact ⟨i.productId, (congrArg Prod.fst hlw).symm⟩
  | none =>
      obtain ⟨i, hi, rfl⟩ := List.mem_map.1 hl
      have hsome := existingLine_isSome hi
      rw [show i.2.lineKey = w.1 from hlw, hnew] at hsome
      cases hsome

theorem RepricedFrom.keyed_row {items : List (Id × OrderItem)} {products : Catalog}
    {w : LineKey × Int} {l : RepricedLine} (h : RepricedFrom items products w l) (t id : Id)
    (hnew : existingLine items w.1 = none → ∃ p, w.1.1 = some p) : (l.row t id).keyed = w := by
  cases h with
  | kept i hex =>
      have hkey := (existingLine_mem hex).2
      by_cases hsame : w.2 = i.2.quantity
      · have hrow : RepricedLine.row t id (.kept i.1 i.2 (i.2.repriced w.2)) = i.2 := if_pos hsame
        rw [hrow]
        exact Prod.ext hkey hsame.symm
      · have hrow : RepricedLine.row t id (.kept i.1 i.2 (i.2.repriced w.2)) =
            i.2.write (i.2.repriced w.2).itemData := if_neg hsame
        rw [hrow]
        exact Prod.ext hkey rfl
  | added line variants hnone hproduct hvariant hkey hpriced =>
      obtain ⟨p, hp⟩ := hnew hnone
      rw [hp] at hkey
      have hproductId : some line.productId = w.1.1 :=
        (congrArg some (congrArg Prod.fst hkey)).trans hp.symm
      have hvariantId : line.variant.map Prod.fst = w.1.2 := congrArg Prod.snd hkey
      have hquantity : line.priced.quantity = w.2 := congrArg Priced.quantity hpriced
      exact Prod.ext (Prod.ext hproductId hvariantId) hquantity

theorem keyed_rows {items : List (Id × OrderItem)} {products : Catalog}
    {requested : Option (List OrderItemInput)} {lines : List RepricedLine}
    (h : List.Forall₂ (RepricedFrom items products) (wantedLines items requested) lines)
    (t id : Id) : (lines.map (RepricedLine.row t id)).map OrderItem.keyed =
      wantedLines items requested := by
  have hnew : ∀ w ∈ wantedLines items requested,
      existingLine items w.1 = none → ∃ p, w.1.1 = some p := fun w hw => product_of_new hw
  revert hnew
  generalize wantedLines items requested = wanted at h
  intro hnew
  induction h with
  | nil => rfl
  | cons hl _ ih =>
      simp only [List.map_cons]
      rw [hl.keyed_row t id (hnew _ List.mem_cons_self),
        ih fun w hw => hnew w (List.mem_cons_of_mem _ hw)]

/-- The discount of an order on a new amount: that of its coupon, if it has
one. -/
def discountAfter (db : Database) (tenantId : Id) (order : Order) (taxedTotal : Cents) : Cents :=
  match order.couponId.bind fun couponId => Query.eval (.coupon tenantId couponId) db with
  | none => order.discountTotal
  | some coupon => applyCouponDiscount taxedTotal coupon.discountType coupon.discountValue

def ShippingAfter (db : Database) (tenantId : Id) (order : Order) (total : Cents) :
    Option (Option Id) → Prop
  | none => total = order.shippingTotal
  | some none => total = 0
  | some (some id) => ∃ x, Query.eval (.shipping tenantId id false) db = some x ∧ total = x.cost

/-- What `reprice` computes on a store. -/
structure Repricing (db : Database) (tenantId : Id) (order : Order)
    (items : List (Id × OrderItem)) (requested : Option (List OrderItemInput))
    (shippingId : Option (Option Id)) (r : Repriced) : Prop where
  lines : ∃ products : Catalog,
    (∀ p ∈ products, ∃ ids, p ∈ Query.eval (.products tenantId ids false) db) ∧
    List.Forall₂ (RepricedFrom items products) (wantedLines items requested) r.lines
  removed : r.removed =
    items.filter fun i => !(wantedLines items requested).any fun w => w.1 == i.2.lineKey
  subtotal : r.totals.subtotal = (r.lines.map fun l => l.priced.lineSubtotal).sum
  taxTotal : r.totals.taxTotal = (r.lines.map fun l => l.priced.taxAmount).sum
  discountTotal : r.totals.discountTotal =
    discountAfter db tenantId order (r.totals.subtotal + r.totals.taxTotal)
  shippingTotal : ShippingAfter db tenantId order r.totals.shippingTotal shippingId
  shipping : r.shippingId = shippingId
  grandTotal : r.totals.grandTotal = r.totals.subtotal + r.totals.taxTotal -
    r.totals.discountTotal + r.totals.shippingTotal

variable {A : (c : Call) → c.Answer → Prop} {σ : Session shop}

theorem newProducts_ensures (t : Id) (items : List (Id × OrderItem))
    (wanted : List (LineKey × Int)) :
    (newProducts t items wanted).Ensures (S := shop) A σ fun products σ' => σ' = σ ∧
      ∀ p ∈ products, ∃ ids, p ∈ Query.eval (.products t ids false) σ.view := by
  unfold newProducts
  simp only
  split
  · exact ⟨rfl, nofun⟩
  · exact ⟨rfl, fun p hp => ⟨_, hp⟩⟩

theorem repriceDiscount_ensures (t : Id) (o : Order) (taxedTotal : Cents) :
    (repriceDiscount t o taxedTotal).Ensures (S := shop) A σ fun discount σ' => σ' = σ ∧
      discount = discountAfter σ.view t o taxedTotal := by
  unfold repriceDiscount
  split
  · next hnone => exact ⟨rfl, by rw [discountAfter, hnone]; rfl⟩
  · next c hsome =>
      refine ensures_ask ?_
      split
      · next hfound =>
          have hfound' : Query.eval (.coupon t c) σ.view = none := hfound
          exact ⟨rfl, by rw [discountAfter, hsome, Option.bind_some, hfound']⟩
      · next coupon hfound =>
          have hfound' : Query.eval (.coupon t c) σ.view = some coupon := hfound
          exact ⟨rfl, by rw [discountAfter, hsome, Option.bind_some, hfound']⟩

theorem repriceShipping_ensures (t : Id) (o : Order) (shippingId : Option (Option Id)) :
    (repriceShipping t o shippingId).Ensures (S := shop) A σ fun total σ' => σ' = σ ∧
      ShippingAfter σ.view t o total shippingId := by
  unfold repriceShipping
  split
  · exact ⟨rfl, rfl⟩
  · exact ⟨rfl, rfl⟩
  · exact ensures_ask (ensures_demand fun x hx => ⟨rfl, x, hx, rfl⟩)

theorem reprice_ensures (t : Id) (o : Order) (items : List (Id × OrderItem))
    (requested : Option (List OrderItemInput)) (shippingId : Option (Option Id)) :
    (reprice t o items requested shippingId).Ensures (S := shop) A σ fun r σ' => σ' = σ ∧
      Repricing σ.view t o items requested shippingId r := by
  refine Ensures.seq (newProducts_ensures t items _) fun products σ' hproducts => ?_
  obtain ⟨rfl, hproducts⟩ := hproducts
  refine ensures_lift fun lines hlines => ?_
  refine Ensures.seq (repriceDiscount_ensures t o _) fun discount σ' hdiscount => ?_
  obtain ⟨rfl, hdiscount⟩ := hdiscount
  refine Ensures.seq (repriceShipping_ensures t o shippingId) fun shipping σ' hshipping => ?_
  obtain ⟨rfl, hshipping⟩ := hshipping
  exact ⟨rfl, ⟨products, hproducts, (forall₂_of_mapM_ok hlines).imp fun _ _ => repricedFrom_of_ok⟩,
    rfl, rfl, rfl, hdiscount, hshipping, rfl, rfl⟩

end WhatStore
