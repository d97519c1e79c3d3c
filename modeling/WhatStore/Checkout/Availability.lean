import WhatStore.Checkout.Quote

/-!
# The stock verdict of a quote

A quote compares each line with the shelf, while the order takes the lines one
after the other. The two agree unless lines of one row, each within its stock,
ask together for more.
-/

namespace WhatStore

open ReadCommitted ReadCommitted.Prog

variable {answer : Answers shop} {db : Database}

/-- The line shows its product and variant as they are in the store. -/
structure LineRows (db : Database) (l : PricedLine) : Prop where
  product : db.row (.product l.productId) = some l.product
  variant : ∀ v, l.variant = some v → db.row (.variant v.1) = some v.2
  quantity : 1 ≤ l.quantity

theorem lineRows_of_mem {t : Id} {ids : List Id} {published : Bool} {l : PricedLine}
    {variants : List (Id × ProductVariant)}
    (h : (l.productId, l.product, variants) ∈ Query.eval (.products t ids published) db)
    (hvariant : ∀ v, l.variant = some v → v ∈ variants) (hquantity : 1 ≤ l.quantity) :
    LineRows db l := by
  obtain ⟨hrow, hvariants⟩ := mem_products h
  refine ⟨hrow, fun v hv => ?_, hquantity⟩
  have hmem := hvariant v hv
  simp only at hvariants
  rw [hvariants] at hmem
  exact (mem_variantsOf hmem).1

theorem lineRows_of_pricing {time : Time} {t : Id} {items : List OrderItemInput}
    {code : Option String} {shippingId : Option Id} {options : PriceOptions} {priced : PricedOrder}
    (h : pricing db time t items code shippingId options = .ok priced) :
    ∀ l ∈ priced.pricedLines.map OrderLine.toPricedLine, LineRows db l := by
  refine List.forall_mem_map.2 fun l hl => ?_
  obtain ⟨item, -, hitem⟩ := mem_of_mapM_ok (pricing_ok h).lines hl
  obtain ⟨⟨variants, hproduct, hvariant⟩, hquantity⟩ := priceLine_ok hitem
  exact lineRows_of_mem hproduct hvariant (hquantity ▸ item.quantity_pos)

/-- The units a list of lines asks of a stock row. -/
def demand (x : StockRow) (lines : List PricedLine) : ℤ :=
  (lines.map fun l => if l.stockRow = x then l.quantity else 0).sum

def Shelved (db : Database) (l : PricedLine) : Prop := (db.row l.stockRow.key).isSome = true

theorem shelf_of_lineRows {l : PricedLine} (h : LineRows db l) :
    Shelved db l ∧ shelf l.stockRow db = l.available := by
  unfold Shelved shelf PricedLine.stockRow PricedLine.available
  cases hv : l.variant with
  | none =>
      have hrow : db.row (StockRow.key (.product l.productId)) = some l.product := h.product
      simp only
      rw [hrow]
      exact ⟨rfl, rfl⟩
  | some v =>
      have hrow : db.row (StockRow.key (.variant v.1)) = some v.2 := h.variant v hv
      simp only
      rw [hrow]
      exact ⟨rfl, rfl⟩

theorem guard_take {row : StockRow} {n : ℤ} (h : (db.row row.key).isSome = true) :
    shop.guard (.take row n) (db.row (shop.key (.take row n))) = decide (n ≤ shelf row db) := by
  cases row with
  | product id =>
      obtain ⟨p, hp⟩ := Option.isSome_iff_exists.1 h
      have hrow : db.row (.product id) = some p := hp
      simp [shelf, units, StockRow.key, Update.guard, hrow]
      rfl
  | variant id =>
      obtain ⟨p, hp⟩ := Option.isSome_iff_exists.1 h
      have hrow : db.row (.variant id) = some p := hp
      simp [shelf, units, StockRow.key, Update.guard, hrow]
      rfl

theorem shelf_take {row : StockRow} {n : ℤ}
    (hguard : shop.guard (.take row n) (db.row (shop.key (.take row n))) = true) (x : StockRow) :
    shelf x (applyUpdate (S := shop) (.take row n) db) =
      shelf x db - if row = x then n else 0 := by
  have htotal := (respects_take hguard).total x
  rw [total_shelf, total_shelf] at htotal
  rw [htotal]
  simp [stockDiscipline, Update.given, Update.taken, sub_eq_add_neg]

theorem isSome_applyUpdate {u : Update} (hu : ∀ v, v.isSome → (u.change v).isSome) {k : Key}
    (h : (db.row k).isSome = true) : ((applyUpdate (S := shop) u db).row k).isSome = true := by
  by_cases hk : k = shop.key u
  · subst hk
    rw [applyUpdate_row_self]
    exact hu _ h
  · rw [applyUpdate_row_of_ne _ _ hk]
    exact h

theorem isSome_take {row : StockRow} {n : ℤ} {k : Key} (h : (db.row k).isSome = true) :
    ((applyUpdate (S := shop) (.take row n) db).row k).isSome = true := by
  refine isSome_applyUpdate (fun v hv => ?_) h
  cases row with
  | product id => exact Option.isSome_map.trans hv
  | variant id => exact Option.isSome_map.trans hv

theorem isSome_give {row : StockRow} {n : ℤ} {k : Key} (h : (db.row k).isSome = true) :
    ((applyUpdate (S := shop) (.give row n) db).row k).isSome = true := by
  refine isSome_applyUpdate (fun v hv => ?_) h
  cases row with
  | product id => exact Option.isSome_map.trans hv
  | variant id => exact Option.isSome_map.trans hv

@[simp] theorem demand_cons (x : StockRow) (l : PricedLine) (lines : List PricedLine) :
    demand x (l :: lines) = (if l.stockRow = x then l.quantity else 0) + demand x lines := rfl

theorem demand_nonneg {x : StockRow} {lines : List PricedLine}
    (h : ∀ l ∈ lines, 1 ≤ l.quantity) : 0 ≤ demand x lines := by
  induction lines with
  | nil => exact le_refl 0
  | cons l lines ih =>
      have hrest := ih fun l' hl' => h l' (List.mem_cons_of_mem _ hl')
      have hl := h l List.mem_cons_self
      rw [demand_cons]
      split <;> omega

theorem demand_eq_zero {x : StockRow} {lines : List PricedLine}
    (h : ∀ l ∈ lines, l.stockRow ≠ x) : demand x lines = 0 := by
  induction lines with
  | nil => rfl
  | cons l lines ih =>
      rw [demand_cons, if_neg (h l List.mem_cons_self),
        ih fun l' hl' => h l' (List.mem_cons_of_mem _ hl')]
      rfl

theorem reserveStock_cons (l : PricedLine) (lines : List PricedLine) :
    reserveStock (l :: lines) = .update (.take l.stockRow l.quantity) fun taken =>
      (throwIf (!taken) (Err.conflict l.shortage)).bind fun _ => reserveStock lines := rfl

/-- The order takes all its lines exactly when each row can serve all that is
asked of it. -/
theorem reserveStock_succeeds {n : ℕ} {σ : Session shop} {lines : List PricedLine}
    (hlines : ∀ l ∈ lines, Shelved σ.view l ∧ 1 ≤ l.quantity) :
    ((reserveStock lines).exec (S := shop) answer n σ).value = .ok () ↔
      ∀ l ∈ lines, demand l.stockRow lines ≤ shelf l.stockRow σ.view := by
  induction lines generalizing n σ with
  | nil => exact ⟨fun _ => nofun, fun _ => rfl⟩
  | cons l lines ih =>
      obtain ⟨hl, hpos⟩ := hlines l List.mem_cons_self
      have hrest := fun l' hl' => hlines l' (List.mem_cons_of_mem l hl')
      have hnonneg : ∀ x, 0 ≤ demand x lines := fun x => demand_nonneg fun l' hl' => (hrest l' hl').2
      have hguard := guard_take (n := l.quantity) hl
      by_cases hfits : l.quantity ≤ shelf l.stockRow σ.view
      · -- the first line is taken, and the others find its shelf lowered
        rw [decide_eq_true hfits] at hguard
        have hexec : ((reserveStock (l :: lines)).exec (S := shop) answer n σ).value =
            ((reserveStock lines).exec (S := shop) answer n
              (σ.apply (.take l.stockRow l.quantity))).value := by
          rw [reserveStock_cons, exec_update_hit hguard]
          rfl
        have htaken := ih (n := n) (σ := σ.apply (.take l.stockRow l.quantity)) fun l' hl' =>
          ⟨isSome_take (hrest l' hl').1, (hrest l' hl').2⟩
        rw [hexec, htaken]
        simp only [Session.apply_view, shelf_take hguard, List.forall_mem_cons, demand_cons,
          if_true]
        constructor
        · intro h
          refine ⟨?_, fun l' hl' => ?_⟩
          · by_cases hsame : ∃ l' ∈ lines, l'.stockRow = l.stockRow
            · obtain ⟨l', hl', heq⟩ := hsame
              have := h l' hl'
              rw [if_pos heq.symm, heq] at this
              omega
            · have hzero := demand_eq_zero (x := l.stockRow) fun l' hl' heq =>
                hsame ⟨l', hl', heq⟩
              omega
          · have := h l' hl'
            omega
        · intro h l' hl'
          have := h.2 l' hl'
          omega
      · rw [decide_eq_false hfits] at hguard
        have hexec : ((reserveStock (l :: lines)).exec (S := shop) answer n σ).value =
            .error (.conflict l.shortage) := by
          rw [reserveStock_cons, exec_update_miss hguard]
          rfl
        rw [hexec]
        refine ⟨nofun, fun h => ?_⟩
        have hall := h l List.mem_cons_self
        have := hnonneg l.stockRow
        rw [demand_cons, if_pos rfl] at hall
        omega

/-! ## The verdict -/

/-- The quote of a basket reports no stock issue exactly when the stock of its
lines can be taken. -/
def VerdictExact (answer : Answers shop) (db : Database) (t : Id) (dto : QuoteOrder)
    (lines : List PricedLine) : Prop :=
  (∃ q, ((quote t dto).exec (S := shop) answer 0 (.start db)).value = .ok q ∧
      q.stockIssues = []) ↔
    ((reserveStock lines).exec (S := shop) answer 0 (.start db)).value = .ok ()

theorem stockIssues_eq_nil {tenant : Tenant} {lines : List PricedLine} :
    stockIssues tenant lines = [] ↔
      (tenant.tracksInventory = true → ∀ l ∈ lines, l.quantity ≤ l.available) := by
  unfold stockIssues
  split
  · next htracks => simp [htracks, List.filter_eq_nil_iff]
  · next htracks => simp [htracks]

theorem quantity_le_demand {lines : List PricedLine} (hpos : ∀ l ∈ lines, 1 ≤ l.quantity)
    {l : PricedLine} (hl : l ∈ lines) : l.quantity ≤ demand l.stockRow lines := by
  induction lines with
  | nil => cases hl
  | cons l' lines ih =>
      have hrest := fun x hx => hpos x (List.mem_cons_of_mem l' hx)
      have hnonneg := demand_nonneg (x := l.stockRow) hrest
      have hl' := hpos l' List.mem_cons_self
      rw [demand_cons]
      rcases List.mem_cons.1 hl with rfl | hl
      · rw [if_pos rfl]
        omega
      · have := ih hrest hl
        split <;> omega

/-- The verdict of a quote is exact when all lines of each row fit the shelf
together, and when a line that does not fit is reported. -/
theorem verdict_exact_iff {answer : Answers shop} {time : Time} {db : Database} {t : Id}
    {tenant : Tenant} {dto : QuoteOrder} {priced : PricedOrder}
    (htenant : db.row (.tenant t) = some tenant) (hclock : ClockShows time answer)
    (hpriced : ((priceOrder t dto.items dto.couponCode dto.shippingId ⟨true, true⟩).exec (S := shop)
      answer 0 (.start db)).value = .ok priced) :
    VerdictExact answer db t dto (priced.pricedLines.map OrderLine.toPricedLine) ↔
      (∀ l ∈ priced.pricedLines.map OrderLine.toPricedLine,
        demand l.stockRow (priced.pricedLines.map OrderLine.toPricedLine) ≤ shelf l.stockRow db) ∨
      (tenant.tracksInventory = true ∧
        ∃ l ∈ priced.pricedLines.map OrderLine.toPricedLine, l.available < l.quantity) := by
  rw [(priceOrder_gives hclock t dto.items dto.couponCode dto.shippingId _).value] at hpriced
  have hquote := (quote_gives hclock t htenant dto).value (n := 0)
  rw [hpriced] at hquote
  have hrows := lineRows_of_pricing hpriced
  unfold VerdictExact
  rw [hquote, reserveStock_succeeds fun l hl => ⟨(shelf_of_lineRows (hrows l hl)).1, (hrows l hl).quantity⟩]
  have hshort : ∀ l ∈ priced.pricedLines.map OrderLine.toPricedLine,
      demand l.stockRow (priced.pricedLines.map OrderLine.toPricedLine) ≤ shelf l.stockRow db →
        l.quantity ≤ l.available := fun l hl hfits => by
    have := quantity_le_demand (fun l hl => (hrows l hl).quantity) hl
    rw [(shelf_of_lineRows (hrows l hl)).2] at hfits
    omega
  have hnil : (∃ q, (Except.map (fun priced => PricedOrder.quoted priced tenant dto)
      (.ok priced : Except Err PricedOrder)) = .ok q ∧ q.stockIssues = []) ↔
      (tenant.tracksInventory = true →
        ∀ l ∈ priced.pricedLines.map OrderLine.toPricedLine, l.quantity ≤ l.available) := by
    rw [← stockIssues_eq_nil]
    simp [Except.map, PricedOrder.quoted]
  rw [hnil]
  constructor
  · intro h
    by_cases hfits : tenant.tracksInventory = true →
        ∀ l ∈ priced.pricedLines.map OrderLine.toPricedLine, l.quantity ≤ l.available
    · exact .inl (h.1 hfits)
    · push Not at hfits
      exact .inr hfits
  · rintro (hfits | ⟨htracks, l, hl, hlt⟩)
    · exact ⟨fun _ => hfits, fun _ _ l hl => hshort l hl (hfits l hl)⟩
    · constructor
      · intro h
        exact absurd (h htracks l hl) (by omega)
      · intro h
        exact absurd (hshort l hl (h l hl)) (by omega)

/-- A quote of two mugs has no issue with the stock. -/
example : (((quote 0 twoMugs.toQuote).exec (S := shop) (steady {}) 0
    (.start mugStore)).value.toOption.map fun q => q.stockIssues.isEmpty) = some true := by
  decide +kernel

def mugsTwice : QuoteOrder where
  items := [.three, .three]
  items_ne := by simp
  items_le := by decide
  couponCode := none
  shippingId := none

/-- The quote of a basket that asks for one row twice misses that the store has
no stock for both lines. -/
theorem verdict_not_exact : ¬ ∀ (answer : Answers shop) (time : Time) (db : Database) (t : Id)
    (tenant : Tenant) (dto : QuoteOrder) (priced : PricedOrder),
    db.row (.tenant t) = some tenant → ClockShows time answer →
    ((priceOrder t dto.items dto.couponCode dto.shippingId ⟨true, true⟩).exec (S := shop)
      answer 0 (.start db)).value = .ok priced →
    VerdictExact answer db t dto (priced.pricedLines.map OrderLine.toPricedLine) := by
  intro h
  have hquoted : (((quote 0 mugsTwice).exec (S := shop) (steady {}) 0
      (.start mugStore)).value.toOption.map fun q => q.stockIssues.isEmpty) = some true := by
    decide +kernel
  have hreserved : (((priceOrder 0 mugsTwice.items mugsTwice.couponCode mugsTwice.shippingId
      ⟨true, true⟩).exec (S := shop) (steady {}) 0 (.start mugStore)).value.toOption.map
        fun priced => ((reserveStock (priced.pricedLines.map OrderLine.toPricedLine)).exec (S := shop)
          (steady {}) 0 (.start mugStore)).value.isOk) = some false := by
    decide +kernel
  obtain ⟨q, hq, hempty⟩ := Option.map_eq_some_iff.1 hquoted
  obtain ⟨priced, hpriced, hfails⟩ := Option.map_eq_some_iff.1 hreserved
  have hexact := h (steady {}) 0 mugStore 0 _ mugsTwice priced rfl (fun _ => rfl)
    (eq_ok_of_toOption hpriced)
  rw [hexact.1 ⟨q, eq_ok_of_toOption hq, List.isEmpty_iff.1 hempty⟩] at hfails
  cases hfails

/-- The quote of two mugs is right. -/
theorem verdict_exact_mugs : ∃ priced : PricedOrder, VerdictExact (steady {}) mugStore 0
    twoMugs.toQuote (priced.pricedLines.map OrderLine.toPricedLine) := by
  have hfits : (((priceOrder 0 twoMugs.items twoMugs.couponCode twoMugs.shippingId
      ⟨true, true⟩).exec (S := shop) (steady {}) 0 (.start mugStore)).value.toOption.map
        fun priced => decide (∀ l ∈ priced.pricedLines.map OrderLine.toPricedLine,
          demand l.stockRow (priced.pricedLines.map OrderLine.toPricedLine) ≤
            shelf l.stockRow mugStore)) = some true := by
    decide +kernel
  obtain ⟨priced, hpriced, hfits⟩ := Option.map_eq_some_iff.1 hfits
  have hexact : VerdictExact (steady {}) mugStore 0 twoMugs.toQuote
      (priced.pricedLines.map OrderLine.toPricedLine) ↔ _ :=
    verdict_exact_iff rfl (fun _ => rfl) (eq_ok_of_toOption hpriced)
  exact ⟨priced, hexact.2 (.inl (of_decide_eq_true hfits))⟩

end WhatStore
