import WhatStore.Arithmetic.Rounding
import WhatStore.Shop.Pricing
import Mathlib.Algebra.BigOperators.Group.List.Basic
import Mathlib.Data.Rat.Cast.Order

/-!
# `pricing.util` with every rounding

The same functions as in the model of prices, over decimals and with each call of
`round2` in its place. On amounts of whole cents the roundings in between change
nothing, and the two agree. A discount is cut to the total before it is rounded, so
a total that is no amount of whole cents can be exceeded.
-/

namespace WhatStore.Decimals

open Rounding

def round2 (value : ℚ) : ℚ := halfUp (100 * value) / 100

structure TaxLine where
  name : String
  /-- In percent. -/
  rate : ℚ

structure AppliedTax where
  name : String
  rate : ℚ
  amount : ℚ

structure PricedLine where
  unitPrice : ℚ
  quantity : ℤ
  lineSubtotal : ℚ
  taxAmount : ℚ
  taxBreakdown : List AppliedTax
  lineTotal : ℚ

def priceLineItem (unitPrice : ℚ) (quantity : ℤ) (taxes : List TaxLine) : PricedLine :=
  let lineSubtotal := round2 (unitPrice * quantity)
  let taxBreakdown := taxes.map fun tax =>
    { name := tax.name, rate := tax.rate, amount := round2 (tax.rate / 100 * lineSubtotal) }
  let taxAmount := round2 (taxBreakdown.foldl (fun sum tax => sum + tax.amount) 0)
  { unitPrice, quantity, lineSubtotal, taxAmount, taxBreakdown
    lineTotal := round2 (lineSubtotal + taxAmount) }

def discountOf (taxedTotal : ℚ) (discountType : DiscountType) (discountValue : ℚ) : ℚ :=
  match discountType with
  | .percentage => taxedTotal / 100 * discountValue
  | .flat => discountValue

def applyCouponDiscount (taxedTotal : ℚ) (discountType : DiscountType) (discountValue : ℚ) : ℚ :=
  round2 (min (discountOf taxedTotal discountType discountValue) taxedTotal)

/-! ## Whole cents -/

def WholeCents (value : ℚ) : Prop := ∃ n : ℤ, value = n / 100

theorem wholeCents_round2 (value : ℚ) : WholeCents (round2 value) := ⟨_, rfl⟩

theorem WholeCents.round2_eq {value : ℚ} (h : WholeCents value) : round2 value = value := by
  obtain ⟨n, rfl⟩ := h
  rw [round2, mul_div_cancel₀ _ (by norm_num), halfUp_intCast]

theorem WholeCents.add {value value' : ℚ} (h : WholeCents value) (h' : WholeCents value') :
    WholeCents (value + value') := by
  obtain ⟨n, rfl⟩ := h
  obtain ⟨n', rfl⟩ := h'
  exact ⟨n + n', by push_cast; ring⟩

theorem WholeCents.mul_int {value : ℚ} (h : WholeCents value) (quantity : ℤ) :
    WholeCents (value * quantity) := by
  obtain ⟨n, rfl⟩ := h
  exact ⟨n * quantity, by push_cast; ring⟩

theorem WholeCents.foldl {α : Type*} {amount : α → ℚ} {list : List α}
    (h : ∀ a ∈ list, WholeCents (amount a)) {start : ℚ} (hstart : WholeCents start) :
    WholeCents (list.foldl (fun sum a => sum + amount a) start) := by
  induction list generalizing start with
  | nil => exact hstart
  | cons a list ih =>
      exact ih (fun b hb => h b (List.mem_cons_of_mem _ hb))
        (hstart.add (h a List.mem_cons_self))

theorem foldl_amount {α : Type*} (amount : α → ℚ) (list : List α) (start : ℚ) :
    list.foldl (fun sum a => sum + amount a) start = start + (list.map amount).sum := by
  induction list generalizing start with
  | nil => simp
  | cons a list ih =>
      rw [List.foldl_cons, ih, List.map_cons, List.sum_cons]
      ring

/-! ## Lines -/

/-- A line whose only roundings are those of its taxes. -/
structure Exact (unitPrice : ℚ) (quantity : ℤ) (taxes : List TaxLine) (line : PricedLine) : Prop where
  lineSubtotal : line.lineSubtotal = unitPrice * quantity
  amounts : line.taxBreakdown = taxes.map fun tax =>
    ⟨tax.name, tax.rate, round2 (tax.rate / 100 * (unitPrice * quantity))⟩
  taxAmount : line.taxAmount = (line.taxBreakdown.map AppliedTax.amount).sum
  lineTotal : line.lineTotal = line.lineSubtotal + line.taxAmount

theorem priceLineItem_exact {unitPrice : ℚ} (h : WholeCents unitPrice) (quantity : ℤ)
    (taxes : List TaxLine) :
    Exact unitPrice quantity taxes (priceLineItem unitPrice quantity taxes) := by
  have hsubtotal := (h.mul_int quantity).round2_eq
  have hsum : WholeCents ((taxes.map fun tax => (⟨tax.name, tax.rate,
      round2 (tax.rate / 100 * (unitPrice * quantity))⟩ : AppliedTax)).foldl
        (fun sum tax => sum + tax.amount) 0) := by
    apply WholeCents.foldl
    · intro applied happlied
      obtain ⟨tax, -, rfl⟩ := List.mem_map.1 happlied
      exact wholeCents_round2 _
    · exact ⟨0, by simp⟩
  constructor
  · exact hsubtotal
  · simp only [priceLineItem, hsubtotal]
  · simp only [priceLineItem, hsubtotal]
    rw [hsum.round2_eq, foldl_amount, zero_add]
  · simp only [priceLineItem, hsubtotal]
    exact ((h.mul_int quantity).add (wholeCents_round2 _)).round2_eq

/-! ## Discounts -/

theorem round2_nonneg {value : ℚ} (h : 0 ≤ value) : 0 ≤ round2 value := by
  have hhalf : (0 : ℚ) ≤ halfUp (100 * value) := by exact_mod_cast halfUp_nonneg (by linarith)
  rw [round2]
  linarith

theorem round2_mono {value value' : ℚ} (h : 0 ≤ value) (hle : value ≤ value') :
    round2 value ≤ round2 value' := by
  have hhalf : (halfUp (100 * value) : ℚ) ≤ halfUp (100 * value') := by
    exact_mod_cast halfUp_mono (by linarith) (by linarith)
  rw [round2, round2]
  linarith

/-- The cents of an amount, and half a cent. -/
def nextHalf (value : ℚ) : ℚ := (⌊100 * value⌋ + 1 / 2) / 100

/-- What is rounded stays below an amount if it is below the next half of a cent. -/
theorem round2_le_iff {value total : ℚ} (h : 0 ≤ value) :
    round2 value ≤ total ↔ value < nextHalf total := by
  have hfloor : round2 value ≤ total ↔ halfUp (100 * value) ≤ ⌊100 * total⌋ := by
    rw [round2, Int.le_floor]
    constructor <;> intro hle <;> linarith
  rw [hfloor, halfUp_le_iff (by linarith), nextHalf]
  constructor <;> intro hlt <;> linarith

variable {taxedTotal discountValue : ℚ} {discountType : DiscountType}

theorem discountOf_nonneg (htotal : 0 ≤ taxedTotal) (hvalue : 0 ≤ discountValue) :
    0 ≤ discountOf taxedTotal discountType discountValue := by
  cases discountType with
  | percentage => exact mul_nonneg (by linarith) hvalue
  | flat => exact hvalue

theorem discountOf_mono {total value : ℚ} (htotal : 0 ≤ taxedTotal) (hvalue : 0 ≤ discountValue)
    (htotal_le : taxedTotal ≤ total) (hvalue_le : discountValue ≤ value) :
    discountOf taxedTotal discountType discountValue ≤ discountOf total discountType value := by
  cases discountType with
  | percentage => exact mul_le_mul (by linarith) hvalue_le hvalue (by linarith)
  | flat => exact hvalue_le

structure Fair (taxedTotal : ℚ) (discountType : DiscountType) (discountValue : ℚ) : Prop where
  nonneg : 0 ≤ applyCouponDiscount taxedTotal discountType discountValue
  le_total : applyCouponDiscount taxedTotal discountType discountValue ≤ taxedTotal
  mono : ∀ total value, taxedTotal ≤ total → discountValue ≤ value →
    applyCouponDiscount taxedTotal discountType discountValue ≤
      applyCouponDiscount total discountType value
  rounded : applyCouponDiscount taxedTotal discountType discountValue =
    round2 (min (discountOf taxedTotal discountType discountValue) taxedTotal)

theorem fair_iff (htotal : 0 ≤ taxedTotal) (hvalue : 0 ≤ discountValue) :
    Fair taxedTotal discountType discountValue ↔
      min (discountOf taxedTotal discountType discountValue) taxedTotal < nextHalf taxedTotal := by
  have hnonneg : 0 ≤ discountOf taxedTotal discountType discountValue :=
    discountOf_nonneg htotal hvalue
  have hmin := le_min hnonneg htotal
  constructor
  · intro h
    exact (round2_le_iff hmin).1 h.le_total
  · intro h
    constructor
    · exact round2_nonneg hmin
    · exact (round2_le_iff hmin).2 h
    · intro total value htotal_le hvalue_le
      exact round2_mono hmin (min_le_min (discountOf_mono htotal hvalue htotal_le hvalue_le) htotal_le)
    · rfl

theorem WholeCents.fair (h : WholeCents taxedTotal) (htotal : 0 ≤ taxedTotal)
    (hvalue : 0 ≤ discountValue) : Fair taxedTotal discountType discountValue := by
  rw [fair_iff htotal hvalue]
  obtain ⟨n, rfl⟩ := h
  apply lt_of_le_of_lt (min_le_right _ _)
  rw [nextHalf, mul_div_cancel₀ _ (by norm_num), Int.floor_intCast]
  linarith

/-- Lines are exact but for the roundings of their taxes, and a discount is what it has to be if
and only if it is not, once it is cut to a total, half a cent or more above the total's cents. -/
theorem pricing_iff {unitPrice : ℚ} (hprice : WholeCents unitPrice) (quantity : ℤ)
    (taxes : List TaxLine) (htotal : 0 ≤ taxedTotal) (hvalue : 0 ≤ discountValue) :
    Exact unitPrice quantity taxes (priceLineItem unitPrice quantity taxes) ∧
        Fair taxedTotal discountType discountValue ↔
      min (discountOf taxedTotal discountType discountValue) taxedTotal < nextHalf taxedTotal := by
  rw [fair_iff htotal hvalue]
  simp [priceLineItem_exact hprice]

theorem pricing_iff_ten :
    Exact 7.25 10 [⟨"Sales tax", 7.25⟩] (priceLineItem 7.25 10 [⟨"Sales tax", 7.25⟩]) ∧
      Fair 76 .flat 15 := by
  refine (pricing_iff ⟨725, by norm_num⟩ 10 _ (by norm_num) (by norm_num)).2 ?_
  norm_num [discountOf, nextHalf]

/-- A discount of one on half a cent is a cent. -/
theorem discount_exceeds : ¬ ∀ taxedTotal discountValue : ℚ, 0 ≤ taxedTotal → 0 ≤ discountValue →
    applyCouponDiscount taxedTotal .flat discountValue ≤ taxedTotal := by
  intro h
  have hhalf := h (1 / 200) 1 (by norm_num) (by norm_num)
  norm_num [applyCouponDiscount, discountOf, round2, halfUp] at hhalf

/-! ## The model in cents -/

theorem roundHalfUp_eq (num : ℤ) {den : ℕ} (hden : 0 < den) :
    roundHalfUp num den = halfUp (num / den) := by
  rw [roundHalfUp]
  split
  · next hnum => rw [halfUp_div hnum hden]
  · next hnum =>
      have hneg := halfUp_div (show 0 ≤ -num by omega) hden
      rw [Int.cast_neg, neg_div, halfUp_neg] at hneg
      rw [← hneg, neg_neg]

def TaxLine.ofModel (tax : WhatStore.TaxLine) : TaxLine := ⟨tax.name, tax.rate / 1000⟩

def AppliedTax.ofModel (tax : WhatStore.AppliedTax) : AppliedTax :=
  ⟨tax.name, tax.rate / 1000, tax.amount / 100⟩

def PricedLine.ofModel (line : Priced) : PricedLine where
  unitPrice := line.unitPrice / 100
  quantity := line.quantity
  lineSubtotal := line.lineSubtotal / 100
  taxAmount := line.taxAmount / 100
  taxBreakdown := line.taxBreakdown.map .ofModel
  lineTotal := line.lineTotal / 100

theorem sum_ofModel (taxes : List WhatStore.AppliedTax) :
    ((taxes.map .ofModel).map AppliedTax.amount).sum =
      (taxes.map WhatStore.AppliedTax.amount).sum / 100 := by
  induction taxes with
  | nil => simp
  | cons tax taxes ih =>
      rw [List.map_cons, List.map_cons, List.sum_cons, ih, List.map_cons, List.sum_cons]
      simp only [AppliedTax.ofModel]
      push_cast
      ring

/-- In cents only the taxes are rounded, and the lines are the same. -/
theorem priceLineItem_ofModel (unitPrice : Cents) (quantity : ℤ) (taxes : List WhatStore.TaxLine) :
    priceLineItem (unitPrice / 100) quantity (taxes.map .ofModel) =
      .ofModel (WhatStore.priceLineItem unitPrice quantity taxes) := by
  have hcents : WholeCents (unitPrice / 100) := ⟨unitPrice, rfl⟩
  have hexact := priceLineItem_exact hcents quantity (taxes.map .ofModel)
  have hamounts : (priceLineItem (unitPrice / 100) quantity (taxes.map .ofModel)).taxBreakdown =
      (WhatStore.priceLineItem unitPrice quantity taxes).taxBreakdown.map .ofModel := by
    rw [hexact.amounts, WhatStore.priceLineItem, List.map_map, List.map_map]
    apply List.map_congr_left
    intro tax htax
    have hround := roundHalfUp_eq (tax.rate * (unitPrice * quantity)) (show 0 < 100000 by norm_num)
    simp only [Function.comp_apply, TaxLine.ofModel, AppliedTax.ofModel, AppliedTax.mk.injEq,
      true_and, round2]
    push_cast at hround
    rw [hround]
    congr 3
    ring
  have hsubtotal : (priceLineItem (unitPrice / 100) quantity (taxes.map .ofModel)).lineSubtotal =
      ((WhatStore.priceLineItem unitPrice quantity taxes).lineSubtotal : ℚ) / 100 := by
    rw [hexact.lineSubtotal]
    simp only [WhatStore.priceLineItem]
    push_cast
    ring
  have htax : (priceLineItem (unitPrice / 100) quantity (taxes.map .ofModel)).taxAmount =
      ((WhatStore.priceLineItem unitPrice quantity taxes).taxAmount : ℚ) / 100 := by
    rw [hexact.taxAmount, hamounts, sum_ofModel]
    rfl
  have htotal : (priceLineItem (unitPrice / 100) quantity (taxes.map .ofModel)).lineTotal =
      ((WhatStore.priceLineItem unitPrice quantity taxes).lineTotal : ℚ) / 100 := by
    rw [hexact.lineTotal, hsubtotal, htax]
    simp only [WhatStore.priceLineItem]
    push_cast
    ring
  rw [PricedLine.ofModel, ← hsubtotal, ← htax, ← htotal, ← hamounts]
  rfl

theorem applyCouponDiscount_ofModel (taxedTotal : Cents) (discountType : DiscountType)
    (discountValue : ℤ) :
    applyCouponDiscount (taxedTotal / 100) discountType (discountValue / 100) =
      WhatStore.applyCouponDiscount taxedTotal discountType discountValue / 100 := by
  cases discountType with
  | percentage =>
      have hround := roundHalfUp_eq (min (taxedTotal * discountValue) (taxedTotal * 10000))
        (show 0 < 10000 by norm_num)
      have hmin : 100 * min ((taxedTotal : ℚ) / 100 / 100 * ((discountValue : ℚ) / 100))
          ((taxedTotal : ℚ) / 100) =
          ((min (taxedTotal * discountValue) (taxedTotal * 10000) : ℤ) : ℚ) / (10000 : ℕ) := by
        push_cast
        rw [mul_min_of_nonneg _ _ (by norm_num), ← min_div_div_right (by norm_num)]
        congr 1 <;> ring
      rw [applyCouponDiscount, discountOf, round2, hmin, ← hround, WhatStore.applyCouponDiscount]
      rfl
  | flat =>
      have hmin : min ((discountValue : ℚ) / 100) (taxedTotal / 100) =
          (min discountValue taxedTotal : ℤ) / 100 := by
        rw [min_div_div_right (by norm_num)]
        push_cast
        rfl
      rw [applyCouponDiscount, discountOf, hmin, WhatStore.applyCouponDiscount]
      exact WholeCents.round2_eq ⟨_, rfl⟩

end WhatStore.Decimals
