import WhatStore.Checkout.Edits

/-!
# The items a correction reaches

A correction that names the items of an order should leave one row for each
product and variant of the request, and one that does not should leave the rows
alone. It does unless a wanted line stands on several rows of the order, which
an order placed with repeated lines has: the correction merges the lines, and
writes the last of the rows only.
-/

namespace WhatStore

open ReadCommitted ReadCommitted.Prog

variable {db : Database}

/-! ## Rows by key -/

theorem filter_key_of_nodup {α β : Type} [BEq α] [LawfulBEq α] {l : List (α × β)}
    (hnd : (l.map Prod.fst).Nodup) {w : α × β} (hw : w ∈ l) :
    (l.filter fun v => v.1 == w.1) = [w] := by
  induction l with
  | nil => cases hw
  | cons v l ih =>
      rw [List.map_cons, List.nodup_cons] at hnd
      rcases List.mem_cons.1 hw with rfl | hw
      · have hrest : (l.filter fun v => v.1 == w.1) = [] := by
          refine List.filter_eq_nil_iff.2 fun v hv heq => hnd.1 ?_
          rw [← eq_of_beq heq]
          exact List.mem_map_of_mem hv
        rw [List.filter_cons_of_pos (by simp), hrest]
      · have hne : ¬ (v.1 == w.1) = true := fun heq => hnd.1 (eq_of_beq heq ▸ List.mem_map_of_mem hw)
        rw [List.filter_cons, if_neg hne]
        exact ih hnd.2 hw

/-- Merged lines have each asked key once, with the units asked for. -/
theorem Merged.filter_key {wanted lines : List (LineKey × Int)} (h : Merged wanted lines)
    (key : LineKey) : ((wanted.filter fun w => w.1 == key).map Prod.snd) =
      if key ∈ lines.map Prod.fst then [unitsAt key lines] else [] := by
  split
  · next hmem =>
      obtain ⟨w, hw, rfl⟩ := List.mem_map.1 ((h.keys key).2 hmem)
      rw [filter_key_of_nodup h.nodup hw, List.map_cons, List.map_nil, h.units w hw]
  · next hnot =>
      have hnil : (wanted.filter fun w => w.1 == key) = [] := by
        refine List.filter_eq_nil_iff.2 fun w hw heq => hnot ((h.keys key).1 ?_)
        rw [← eq_of_beq heq]
        exact List.mem_map_of_mem hw
      rw [hnil, List.map_nil]

theorem rowsAt_cons (key : LineKey) (i : Id × OrderItem) (items : List (Id × OrderItem)) :
    rowsAt key (i :: items) =
      if i.2.lineKey = key then i :: rowsAt key items else rowsAt key items := by
  by_cases hkey : i.2.lineKey = key <;> simp [rowsAt, hkey]

theorem rowsAt_existing {items : List (Id × OrderItem)} {wanted : List (LineKey × Int)}
    (hnd : (wanted.map Prod.fst).Nodup) (key : LineKey) :
    rowsAt key (wanted.filterMap fun w => existingLine items w.1) =
      if key ∈ wanted.map Prod.fst then (existingLine items key).toList else [] := by
  induction wanted with
  | nil => rfl
  | cons w wanted ih =>
      rw [List.map_cons, List.nodup_cons] at hnd
      have hrest := ih hnd.2
      by_cases hkey : key = w.1
      · subst hkey
        rw [if_neg hnd.1] at hrest
        rw [if_pos (by simp)]
        cases hex : existingLine items w.1 with
        | none =>
            simp only [List.filterMap_cons, hex]
            exact hrest
        | some i =>
            simp only [List.filterMap_cons, hex]
            rw [rowsAt_cons, if_pos (existingLine_mem hex).2, hrest]
            rfl
      · have hmem : key ∈ (w :: wanted).map Prod.fst ↔ key ∈ wanted.map Prod.fst := by
          simp [hkey]
        simp only [hmem, ← hrest]
        cases hex : existingLine items w.1 with
        | none => simp only [List.filterMap_cons, hex]
        | some i =>
            simp only [List.filterMap_cons, hex]
            rw [rowsAt_cons, if_neg]
            exact fun heq => hkey (heq.symm.trans (existingLine_mem hex).2)

theorem map_quantity_rowsAt (key : LineKey) (items : List (Id × OrderItem)) :
    (rowsAt key items).map (fun i => i.2.quantity) =
      (((items.map fun i => i.2.keyed).filter fun w => w.1 == key).map Prod.snd) := by
  simp only [rowsAt, List.filter_map, List.map_map]
  rfl

theorem unitsAt_keyed (key : LineKey) (items : List (Id × OrderItem)) :
    unitsAt key (items.map fun i => i.2.keyed) = ((rowsAt key items).map fun i => i.2.quantity).sum := by
  induction items with
  | nil => rfl
  | cons i items ih =>
      have hcons : unitsAt key ((i :: items).map fun i => i.2.keyed) =
          (if i.2.lineKey = key then i.2.quantity else 0) +
            unitsAt key (items.map fun i => i.2.keyed) := rfl
      rw [hcons, ih]
      rw [rowsAt_cons]
      by_cases hkey : i.2.lineKey = key
      · rw [if_pos hkey, if_pos hkey, List.map_cons, List.sum_cons]
      · rw [if_neg hkey, if_neg hkey, zero_add]

/-! ## What a correction should reach -/

def keyedInputs (inputs : List OrderItemInput) : List (LineKey × Int) :=
  inputs.map fun i => (i.lineKey, i.quantity)

/-- The order has one row for each product and variant of the request, with the
units asked for it together, and the stock of a store that tracks inventory has
moved by the difference. -/
structure ItemsReached (tenantId id : Id) (inputs : List OrderItemInput) (db db' : Database) :
    Prop where
  rows : ∀ key, (rowsAt key (itemsOf db' id)).map (fun i => i.2.quantity) =
    if key ∈ (keyedInputs inputs).map Prod.fst then [unitsAt key (keyedInputs inputs)] else []
  stock : ∀ tenant, db.row (.tenant tenantId) = some tenant → tenant.tracksInventory = true →
    ∀ x, shelf x db' = shelf x db + unitsIn x (rowsOf db id) - unitsIn x (rowsOf db' id)

/-- The items of the order, their totals and the stock are as they were. -/
structure ItemsKept (id : Id) (db db' : Database) : Prop where
  rows : List.Perm (itemsOf db' id) (itemsOf db id)
  subtotal : (db'.row (.order id)).map Order.subtotal = (db.row (.order id)).map Order.subtotal
  taxTotal : (db'.row (.order id)).map Order.taxTotal = (db.row (.order id)).map Order.taxTotal
  stock : ∀ x, shelf x db' = shelf x db

def CorrectionReaches (tenantId id : Id) (dto : UpdateOrder) (db db' : Database) : Prop :=
  match dto.items with
  | some inputs => ItemsReached tenantId id inputs db db'
  | none => ItemsKept id db db'

/-- The row is priced at its unit price and tax rates. -/
structure OrderItem.WellPriced (i : OrderItem) : Prop where
  quantity : 1 ≤ i.quantity
  taxAmount : i.taxAmount = (i.repriced i.quantity).taxAmount
  lineTotal : i.lineTotal = (i.repriced i.quantity).lineTotal

/-- The order is as it was placed: its totals are those of its rows. -/
structure AsPlaced (db : Database) (id : Id) (o : Order) : Prop where
  rows : ∀ i ∈ rowsOf db id, i.WellPriced
  subtotal : o.subtotal = ((rowsOf db id).map fun i => i.unitPrice * i.quantity).sum
  taxTotal : o.taxTotal = ((rowsOf db id).map OrderItem.taxAmount).sum

theorem taxLines_priceLineItem (unitPrice : Cents) (quantity : Int) (taxes : List TaxLine) :
    ((priceLineItem unitPrice quantity taxes).taxBreakdown.map fun t =>
      { name := t.name, rate := t.rate : TaxLine }) = taxes := by
  simp only [priceLineItem, List.map_map]
  exact List.map_id taxes

theorem wellPriced_newItem {l : OrderLine} {unitPrice : Cents} {quantity : Int}
    {taxes : List TaxLine} (hpriced : l.priced = priceLineItem unitPrice quantity taxes)
    (hquantity : 1 ≤ quantity) (t id : Id) :
    (newItem t id l.toPricedLine l.priced).WellPriced := by
  have hagain : (newItem t id l.toPricedLine l.priced).repriced
      (newItem t id l.toPricedLine l.priced).quantity = l.priced := by
    rw [hpriced]
    exact congrArg (priceLineItem unitPrice quantity) (taxLines_priceLineItem _ _ _)
  refine ⟨?_, ?_, ?_⟩
  · rw [hpriced]
    exact hquantity
  · rw [hagain]
    rfl
  · rw [hagain]
    rfl

theorem asPlaced_of_placed {time : Time} {t : Id} {dto : CreateOrder} {db db' : Database} {id : Id}
    {o : Order} {priced : PricedOrder} (hkeys : ForeignKeys db)
    (h : Placed time t dto db db' id o priced) : AsPlaced db' id o := by
  have hparts := pricing_ok h.pricing
  have hrows : List.Perm (rowsOf db' id)
      (priced.pricedLines.map fun l => newItem t id l.toPricedLine l.priced) := by
    have hlines := h.lines
    rw [hkeys.no_lines h.new] at hlines
    exact hlines
  have hpriced : ∀ l ∈ priced.pricedLines, ∃ unitPrice quantity taxes, 1 ≤ quantity ∧
      l.priced = priceLineItem unitPrice quantity taxes := fun l hl => by
    obtain ⟨item, -, hitem⟩ := mem_of_mapM_ok hparts.lines hl
    exact ⟨_, _, _, item.quantity_pos, priced_of_priceLine hitem⟩
  obtain ⟨tenant, createdAt, status, -, rfl⟩ := h.order
  refine ⟨fun i hi => ?_, ?_, ?_⟩
  · obtain ⟨l, hl, rfl⟩ := List.mem_map.1 (hrows.mem_iff.1 hi)
    obtain ⟨unitPrice, quantity, taxes, hquantity, heq⟩ := hpriced l hl
    exact wellPriced_newItem heq hquantity t id
  · rw [(hrows.map _).sum_eq, List.map_map]
    change priced.totals.subtotal = _
    rw [hparts.totals]
    refine congrArg List.sum (List.map_congr_left fun l hl => ?_)
    obtain ⟨unitPrice, quantity, taxes, -, heq⟩ := hpriced l hl
    simp [newItem, heq, priceLineItem]
  · rw [(hrows.map _).sum_eq, List.map_map]
    change priced.totals.taxTotal = _
    rw [hparts.totals]
    rfl

/-! ## What it does reach -/

variable {t id : Id} {o : Order} {requested : Option (List OrderItemInput)}
  {shippingId : Option (Option Id)} {r : Repriced} {tracks : Bool} {db' : Database}

theorem rowsAt_corrected (hr : Repricing db t o (itemsOf db id) requested shippingId r)
    (hc : ItemsChanged t id r tracks db db') (key : LineKey) :
    List.Perm ((rowsAt key (itemsOf db' id)).map (fun i => i.2.quantity) ++
        ((rowsAt key (r.lines.filterMap RepricedLine.old)).map (fun i => i.2.quantity) ++
          (rowsAt key r.removed).map fun i => i.2.quantity))
      ((rowsAt key (itemsOf db id)).map (fun i => i.2.quantity) ++
        if key ∈ (askedLines (itemsOf db id) requested).map Prod.fst then
          [unitsAt key (askedLines (itemsOf db id) requested)] else []) := by
  obtain ⟨products, -, hlines⟩ := hr.lines
  have hkeyed := hc.rows.map OrderItem.keyed
  simp only [rowsOf, List.map_append, List.map_map] at hkeyed
  have hnew := keyed_rows hlines t id
  rw [List.map_map] at hnew
  rw [hnew] at hkeyed
  have hkey := (hkeyed.filter fun w => w.1 == key).map Prod.snd
  simp only [List.filter_append, List.map_append] at hkey
  rw [(merged_wantedLines (itemsOf db id) requested).filter_key key] at hkey
  rw [map_quantity_rowsAt, map_quantity_rowsAt, map_quantity_rowsAt, map_quantity_rowsAt]
  exact hkey

theorem rowsAt_old (hr : Repricing db t o (itemsOf db id) requested shippingId r) (key : LineKey) :
    rowsAt key (r.lines.filterMap RepricedLine.old) =
      if key ∈ (askedLines (itemsOf db id) requested).map Prod.fst then
        (existingLine (itemsOf db id) key).toList else [] := by
  obtain ⟨products, -, hlines⟩ := hr.lines
  have hmerged := merged_wantedLines (itemsOf db id) requested
  rw [filterMap_old hlines, rowsAt_existing hmerged.nodup]
  simp only [hmerged.keys]

theorem rowsAt_removed (hr : Repricing db t o (itemsOf db id) requested shippingId r)
    (key : LineKey) : rowsAt key r.removed =
      if key ∈ (askedLines (itemsOf db id) requested).map Prod.fst then []
      else rowsAt key (itemsOf db id) := by
  have hkeys := (merged_wantedLines (itemsOf db id) requested).keys key
  have hany : ∀ i : Id × OrderItem, i.2.lineKey = key →
      ((wantedLines (itemsOf db id) requested).any fun w => w.1 == i.2.lineKey) =
        decide (key ∈ (askedLines (itemsOf db id) requested).map Prod.fst) := by
    rintro i rfl
    rw [Bool.eq_iff_iff, List.any_eq_true, decide_eq_true_iff, ← hkeys, List.mem_map]
    simp only [beq_iff_eq]
  rw [hr.removed, rowsAt, List.filter_filter]
  split
  · next hmem =>
      refine List.filter_eq_nil_iff.2 fun i _ h => ?_
      simp only [Bool.and_eq_true, beq_iff_eq] at h
      rw [hany i h.1, decide_eq_true hmem] at h
      exact absurd h.2 (by decide)
  · next hnot =>
      refine List.filter_congr fun i _ => ?_
      by_cases hkey : i.2.lineKey = key
      · rw [hany i hkey, decide_eq_false hnot]
        simp
      · simp [hkey]

theorem singleRows_iff {items : List (Id × OrderItem)} : SingleRows items requested ↔
    ∀ key ∈ (askedLines items requested).map Prod.fst, (rowsAt key items).length ≤ 1 := by
  have hkeys := (merged_wantedLines items requested).keys
  constructor
  · intro h key hkey
    obtain ⟨w, hw, rfl⟩ := List.mem_map.1 ((hkeys key).2 hkey)
    exact h w hw
  · intro h w hw
    exact h w.1 ((hkeys w.1).1 (List.mem_map_of_mem hw))

theorem existingLine_toList {items : List (Id × OrderItem)} {key : LineKey}
    (h : (rowsAt key items).length ≤ 1) : (existingLine items key).toList = rowsAt key items := by
  have hex : existingLine items key = (rowsAt key items).getLast? := rfl
  rw [hex]
  cases hrows : rowsAt key items with
  | nil => rfl
  | cons i rows =>
      rw [hrows] at h
      have hnil : rows = [] := List.eq_nil_of_length_eq_zero (by simpa using h)
      rw [hnil]
      rfl

/-- When no wanted line stands on several rows, each stands on one row with its
units afterwards, and nothing else is left. -/
theorem rowsAt_of_single (hr : Repricing db t o (itemsOf db id) requested shippingId r)
    (hc : ItemsChanged t id r tracks db db') (hsingle : SingleRows (itemsOf db id) requested)
    (key : LineKey) : (rowsAt key (itemsOf db' id)).map (fun i => i.2.quantity) =
      if key ∈ (askedLines (itemsOf db id) requested).map Prod.fst then
        [unitsAt key (askedLines (itemsOf db id) requested)] else [] := by
  have hperm := rowsAt_corrected hr hc key
  rw [rowsAt_old hr, rowsAt_removed hr] at hperm
  split
  · next hkey =>
      rw [if_pos hkey, if_pos hkey, if_pos hkey,
        existingLine_toList (singleRows_iff.1 hsingle key hkey)] at hperm
      rw [List.map_nil, List.append_nil] at hperm
      have hone := (List.perm_append_left_iff _).1 (List.perm_append_comm.trans hperm)
      exact List.perm_singleton.1 hone
  · next hkey =>
      rw [if_neg hkey, if_neg hkey, if_neg hkey, List.map_nil, List.nil_append] at hperm
      have hnil := (List.perm_append_left_iff _).1 (List.perm_append_comm.trans hperm)
      exact List.perm_nil.1 hnil

theorem length_rowsAt_le (hr : Repricing db t o (itemsOf db id) requested shippingId r)
    (hc : ItemsChanged t id r tracks db db') {key : LineKey}
    (hkey : key ∈ (askedLines (itemsOf db id) requested).map Prod.fst) :
    (rowsAt key (itemsOf db id)).length ≤ (rowsAt key (itemsOf db' id)).length := by
  have hperm := (rowsAt_corrected hr hc key).length_eq
  rw [rowsAt_old hr, rowsAt_removed hr, if_pos hkey, if_pos hkey, if_pos hkey] at hperm
  have hold : (existingLine (itemsOf db id) key).toList.length ≤ 1 := by
    cases existingLine (itemsOf db id) key <;> simp
  simp only [List.length_append, List.length_map, List.length_cons, List.length_nil] at hperm
  omega

/-- A request reaches its items exactly when none of its lines stands on several
rows of the order. -/
theorem itemsReached_iff {inputs : List OrderItemInput}
    (hr : Repricing db t o (itemsOf db id) (some inputs) shippingId r) {tenant : Tenant}
    (htenant : db.row (.tenant t) = some tenant)
    (hc : ItemsChanged t id r tenant.tracksInventory db db') :
    ItemsReached t id inputs db db' ↔ SingleRows (itemsOf db id) (some inputs) := by
  constructor
  · intro h
    refine singleRows_iff.2 fun key hkey => ?_
    have hrows := congrArg List.length (h.rows key)
    have hkey' : key ∈ (keyedInputs inputs).map Prod.fst := hkey
    rw [if_pos hkey', List.length_map] at hrows
    have hle := length_rowsAt_le hr hc hkey
    simp only [List.length_cons, List.length_nil] at hrows
    omega
  · intro h
    refine ⟨rowsAt_of_single hr hc h, fun tenant' htenant' htracks x => ?_⟩
    cases htenant.symm.trans htenant'
    rw [hc.shelf, if_pos htracks]

theorem length_le_one_of_units {items : List (Id × OrderItem)} {key : LineKey} {i : Id × OrderItem}
    (hpos : ∀ j ∈ items, 1 ≤ j.2.quantity) (hi : existingLine items key = some i)
    (hunits : i.2.quantity = ((rowsAt key items).map fun j => j.2.quantity).sum) :
    (rowsAt key items).length ≤ 1 := by
  have hlast : (rowsAt key items).getLast? = some i := hi
  obtain ⟨rest, hrest⟩ := List.getLast?_eq_some_iff.1 hlast
  rw [hrest, List.map_append, List.sum_append] at hunits
  have hzero : (rest.map fun j => j.2.quantity).sum = 0 := by
    simp only [List.map_cons, List.map_nil, List.sum_cons, List.sum_nil, add_zero] at hunits
    omega
  have hlen : (rest.length : ℤ) ≤ (rest.map fun j => j.2.quantity).sum := by
    have hall : ∀ j ∈ rest, 1 ≤ j.2.quantity := fun j hj =>
      hpos j (mem_rowsAt.1 (hrest ▸ List.mem_append_left _ hj)).1
    clear hunits hrest hzero
    induction rest with
    | nil => exact le_refl 0
    | cons j rest ih =>
        have hj := hall j List.mem_cons_self
        have := ih fun j' hj' => hall j' (List.mem_cons_of_mem _ hj')
        rw [List.map_cons, List.sum_cons, List.length_cons]
        push_cast
        omega
  rw [hrest, List.length_append, List.length_singleton]
  omega

theorem askedLines_none (items : List (Id × OrderItem)) :
    askedLines items none = items.map fun i => i.2.keyed := rfl

theorem idle_of_single (hr : Repricing db t o (itemsOf db id) none shippingId r)
    (hsingle : SingleRows (itemsOf db id) none) :
    (∀ l ∈ r.lines, ∃ i ∈ itemsOf db id, l = .kept i.1 i.2 (i.2.repriced i.2.quantity)) ∧
      r.removed = [] := by
  obtain ⟨products, -, hlines⟩ := hr.lines
  have hmerged := merged_wantedLines (itemsOf db id) none
  constructor
  · intro l hl
    obtain ⟨w, hw, hfrom⟩ := exists_of_forall₂ hlines hl
    have hkey := (hmerged.keys w.1).1 (List.mem_map_of_mem hw)
    have hone := singleRows_iff.1 hsingle w.1 hkey
    cases hfrom with
    | kept i hex =>
        obtain ⟨hi, hik⟩ := existingLine_mem hex
        have hunits : w.2 = i.2.quantity := by
          rw [hmerged.units w hw, askedLines_none, unitsAt_keyed, ← existingLine_toList hone, hex]
          simp
        exact ⟨i, hi, by rw [hunits]⟩
    | added line variants hnone =>
        rw [askedLines_none, List.map_map] at hkey
        obtain ⟨i, hi, hik⟩ := List.mem_map.1 hkey
        have hsome := existingLine_isSome hi
        rw [show i.2.lineKey = w.1 from hik, hnone] at hsome
        cases hsome
  · rw [hr.removed]
    refine List.filter_eq_nil_iff.2 fun i hi h => ?_
    have hkey : i.2.lineKey ∈ (askedLines (itemsOf db id) none).map Prod.fst := by
      rw [askedLines_none, List.map_map]
      exact List.mem_map.2 ⟨i, hi, rfl⟩
    obtain ⟨w, hw, hwk⟩ := List.mem_map.1 ((hmerged.keys _).2 hkey)
    rw [Bool.not_eq_true', ← Bool.not_eq_true, List.any_eq_true] at h
    exact h ⟨w, hw, by simp [hwk]⟩

theorem sum_of_idle {lines : List RepricedLine} {f : Priced → ℤ} {g : OrderItem → ℤ}
    (h : ∀ l ∈ lines, ∃ i : Id × OrderItem, l = .kept i.1 i.2 (i.2.repriced i.2.quantity) ∧
      f (i.2.repriced i.2.quantity) = g i.2) :
    (lines.map fun l => f l.priced).sum =
      ((lines.filterMap RepricedLine.old).map fun i => g i.2).sum := by
  induction lines with
  | nil => rfl
  | cons l lines ih =>
      obtain ⟨i, rfl, hi⟩ := h l List.mem_cons_self
      have hrest := ih fun l' hl' => h l' (List.mem_cons_of_mem _ hl')
      simp only [List.filterMap_cons, RepricedLine.old, List.map_cons, List.sum_cons, hrest, ← hi]
      rfl

theorem totals_of_single (hr : Repricing db t o (itemsOf db id) none shippingId r)
    (hplaced : AsPlaced db id o) (hsingle : SingleRows (itemsOf db id) none) :
    r.totals.subtotal = o.subtotal ∧ r.totals.taxTotal = o.taxTotal := by
  obtain ⟨hlines, hremoved⟩ := idle_of_single hr hsingle
  have hold : List.Perm (r.lines.filterMap RepricedLine.old) (itemsOf db id) := by
    obtain ⟨products, -, hfrom⟩ := hr.lines
    have hperm := kept_append_removed (itemsOf_nodup db id) hsingle
    rw [← hr.removed, hremoved, List.append_nil, ← filterMap_old hfrom] at hperm
    exact hperm
  have hsum : ∀ (f : Priced → ℤ) (g : OrderItem → ℤ),
      (∀ i ∈ rowsOf db id, f (i.repriced i.quantity) = g i) →
      (r.lines.map fun l => f l.priced).sum = ((rowsOf db id).map g).sum := by
    intro f g hfg
    rw [sum_of_idle (g := g) fun l hl => ?_, (hold.map _).sum_eq, rowsOf, List.map_map]
    · rfl
    · obtain ⟨i, hi, hl⟩ := hlines l hl
      exact ⟨i, hl, hfg i.2 (List.mem_map_of_mem hi)⟩
  rw [hr.subtotal, hr.taxTotal, hplaced.subtotal, hplaced.taxTotal]
  exact ⟨hsum Priced.lineSubtotal _ fun i _ => rfl,
    hsum Priced.taxAmount _ fun i hi => (hplaced.rows i hi).taxAmount.symm⟩

/-- Without items, a correction of the shipping leaves the items alone exactly
when no two rows of the order share a key. -/
theorem itemsKept_iff {db₁ : Database}
    (hr : Repricing db t o (itemsOf db id) none shippingId r)
    (hplaced : AsPlaced db id o) (ho : db.row (.order id) = some o)
    (hc : ItemsChanged t id r tracks db db₁) (hitems : itemsOf db' id = itemsOf db₁ id)
    (hshelf : ∀ x, shelf x db' = shelf x db₁) {o' : Order} (ho' : db'.row (.order id) = some o')
    (hsubtotal : o'.subtotal = r.totals.subtotal) (htaxTotal : o'.taxTotal = r.totals.taxTotal) :
    ItemsKept id db db' ↔ SingleRows (itemsOf db id) none := by
  constructor
  · intro h
    refine singleRows_iff.2 fun key hkey => ?_
    have hsame := h.rows
    rw [hitems] at hsame
    have hperm := rowsAt_corrected hr hc key
    rw [rowsAt_old hr, rowsAt_removed hr, if_pos hkey, if_pos hkey, if_pos hkey, List.map_nil,
      List.append_nil] at hperm
    have hrows : List.Perm ((rowsAt key (itemsOf db₁ id)).map fun i => i.2.quantity)
        ((rowsAt key (itemsOf db id)).map fun i => i.2.quantity) :=
      (hsame.filter _).map _
    -- the row that was matched has the units of all rows with its key
    have hmatched := (List.perm_append_left_iff _).1 ((hrows.append_right _).symm.trans hperm)
    cases hex : existingLine (itemsOf db id) key with
    | none =>
        rw [hex] at hmatched
        have := hmatched.length_eq
        simp at this
    | some i =>
        rw [hex] at hmatched
        have hunits : i.2.quantity = _ := List.singleton_perm_singleton.1 hmatched
        refine length_le_one_of_units (fun j hj => ?_) hex ?_
        · exact (hplaced.rows j.2 (List.mem_map_of_mem hj)).quantity
        · rw [hunits, askedLines_none, unitsAt_keyed]
  · intro h
    obtain ⟨hlines, hremoved⟩ := idle_of_single hr h
    have hidle : ∀ l ∈ r.lines, l.Idle := fun l hl => by
      obtain ⟨i, -, rfl⟩ := hlines l hl
      exact rfl
    have hrows : List.Perm (itemsOf db' id) (itemsOf db id) := by
      rw [hitems]
      exact itemsOf_perm (hc.idle hidle hremoved) id
    obtain ⟨hsub, htax⟩ := totals_of_single hr hplaced h
    refine ⟨hrows, ?_, ?_, fun x => ?_⟩
    · rw [ho, ho', Option.map_some, Option.map_some, hsubtotal, hsub]
    · rw [ho, ho', Option.map_some, Option.map_some, htaxTotal, htax]
    · have hunits := unitsIn_perm x (hrows.map Prod.snd)
      rw [hitems] at hunits
      rw [hshelf, hc.shelf]
      split
      · rw [rowsOf, rowsOf, hunits]
        ring
      · rfl

/-- A correction that succeeds reaches the items of its request exactly when it
changes no lines or none of the wanted lines stands on several rows. -/
theorem correction_reaches_iff {answer : Answers shop} {db : Database} {t id : Id}
    {dto : UpdateOrder} {jobs : List Job} (hkeys : ForeignKeys db)
    (hplaced : dto.items = none → ∀ o, db.row (.order id) = some o → AsPlaced db id o)
    (hok : ((updateDetails t id dto).exec (S := shop) answer 0 (.start db)).value = .ok jobs) :
    CorrectionReaches t id dto db
        ((updateDetails t id dto).exec (S := shop) answer 0 (.start db)).session.view ↔
      (dto.items = none ∧ dto.shippingId = none) ∨ SingleRows (itemsOf db id) dto.items := by
  obtain ⟨o, r, hcorrected⟩ := (updateDetails_ensures (A := anyAnswer) hkeys t id dto).of_exec
    (fun _ _ => trivial) hok
  revert hcorrected
  generalize ((updateDetails t id dto).exec (S := shop) answer 0 (.start db)).session.view = db'
  intro hcorrected
  obtain ⟨db₁, hlines, rfl⟩ := hcorrected.written
  have ho := orderOf_eq_some hcorrected.found
  have hitems := itemsOf_applyUpdate_of_ne (u := .editOrder id (orderEdit o dto r)) (by simp) db₁ id
  have hshelf : ∀ x, shelf x (applyUpdate (S := shop) (.editOrder id (orderEdit o dto r)) db₁) =
      shelf x db₁ := fun x => by
    rw [shelf, shelf, applyUpdate_row_of_ne (S := shop) _ _ (by cases x <;> simp [StockRow.key])]
  have hrow : ∀ o₁, db₁.row (.order id) = some o₁ →
      (applyUpdate (S := shop) (.editOrder id (orderEdit o dto r)) db₁).row (.order id) =
        some (o₁.edit (orderEdit o dto r)) := fun o₁ ho₁ =>
    (applyUpdate_row_self (S := shop) (.editOrder id (orderEdit o dto r)) db₁).trans
      (congrArg (Option.map _) ho₁)
  cases r with
  | none =>
      obtain ⟨hnoItems, hnoShipping, rfl⟩ := hlines
      refine iff_of_true ?_ (.inl ⟨hnoItems, hnoShipping⟩)
      rw [CorrectionReaches, hnoItems]
      refine ⟨List.Perm.of_eq hitems, ?_, ?_, hshelf⟩
      · rw [hrow o ho, ho]
        rfl
      · rw [hrow o ho, ho]
        rfl
  | some r =>
      obtain ⟨hsome, hr, tenant, htenant, hc⟩ := hlines
      have ho₁ : db₁.row (.order id) = some o := by
        rw [hc.frame (.order id) (by simp) (fun x => by cases x <;> simp [StockRow.key]), ho]
      rw [or_iff_right hsome, CorrectionReaches]
      cases hreq : dto.items with
      | none =>
          rw [hreq] at hr
          exact itemsKept_iff hr (hplaced hreq o ho) ho hc hitems hshelf (hrow o ho₁) rfl rfl
      | some inputs =>
          rw [hreq] at hr
          rw [← itemsReached_iff hr htenant hc]
          constructor
          · intro h
            refine ⟨fun key => hitems ▸ h.rows key, fun tenant' ht htracks x => ?_⟩
            rw [← hshelf, h.stock tenant' ht htracks, rowsOf, rowsOf, rowsOf, hitems]
          · intro h
            refine ⟨fun key => hitems ▸ h.rows key, fun tenant' ht htracks x => ?_⟩
            rw [hshelf, h.stock tenant' ht htracks, rowsOf, rowsOf, rowsOf, hitems]

def threeMugs : UpdateOrder where
  customerName := none
  customerEmail := none
  customerPhone := none
  shippingAddress := none
  items := some [.three]
  items_ne := by simp
  shippingId := none
  paymentStatus := none
  paymentStatus_ok := by simp

def soldMugs : Database := serve (S := shop) (counting 0) (create 0 twoMugs) mugStore

/-- Two mugs become three. -/
theorem correction_reaches_mugs : CorrectionReaches 0 2 threeMugs soldMugs
    ((updateDetails 0 2 threeMugs).exec (S := shop) (counting 9) 0
      (.start soldMugs)).session.view := by
  obtain ⟨jobs, hjobs⟩ := exists_ok (by decide +kernel : ((updateDetails 0 2 threeMugs).exec
    (S := shop) (counting 9) 0 (.start soldMugs)).value.isOk = true)
  have hkeys : ForeignKeys soldMugs := foreignKeys_of_check (by decide +kernel)
  exact (correction_reaches_iff hkeys (fun hnone => by cases hnone) hjobs).2
    (.inr (by decide +kernel))

def mugPair : CreateOrder :=
  .basket [.one, .one] (by simp) (by decide) none

/-- The store after an order of two lines of one mug each. -/
def soldPair : Database := serve (S := shop) (counting 0) (create 0 mugPair) mugStore

/-- An order placed with two lines of one product keeps two rows when it is
corrected to three of them. -/
theorem correction_misses : ¬ ∀ (answer : Answers shop) (db : Database) (t id : Id)
    (dto : UpdateOrder) (jobs : List Job), ForeignKeys db →
    (dto.items = none → ∀ o, db.row (.order id) = some o → AsPlaced db id o) →
    ((updateDetails t id dto).exec (S := shop) answer 0 (.start db)).value = .ok jobs →
    CorrectionReaches t id dto db
      ((updateDetails t id dto).exec (S := shop) answer 0 (.start db)).session.view := by
  intro h
  obtain ⟨jobs, hjobs⟩ := exists_ok (by decide +kernel : ((updateDetails 0 2 threeMugs).exec
    (S := shop) (counting 9) 0 (.start soldPair)).value.isOk = true)
  have hreached : ItemsReached 0 2 _ soldPair _ :=
    h (counting 9) soldPair 0 2 threeMugs jobs
      (foreignKeys_of_check (by decide +kernel)) (fun hnone => by cases hnone) hjobs
  have hrows := congrArg List.length (hreached.rows (some 0, none))
  revert hrows
  decide +kernel

end WhatStore
