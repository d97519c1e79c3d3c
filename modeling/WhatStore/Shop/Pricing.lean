import WhatStore.Shop.Rows
import Mathlib.Algebra.Ring.Int.Defs

/-!
# Prices

`pricing.util` and `currency.util` in exact arithmetic: every amount is a whole
number of hundredths, so only taxes, percentage discounts and the minor units
of currencies without decimals are rounded.
-/

namespace WhatStore

/-- The whole number nearest to `num / den` for a positive `den`; halves round
away from zero (`ROUND_HALF_UP`). -/
def roundHalfUp (num den : Int) : Int :=
  if 0 ≤ num then (2 * num + den) / (2 * den) else -((2 * -num + den) / (2 * den))

/-- A line with its prices (`PricedLine` of `pricing.util`). -/
structure Priced where
  unitPrice : Cents
  quantity : Int
  lineSubtotal : Cents
  taxAmount : Cents
  taxBreakdown : List AppliedTax
  lineTotal : Cents

/-- Percentage taxes on the unit price times the quantity. -/
def priceLineItem (unitPrice : Cents) (quantity : Int) (taxes : List TaxLine) : Priced :=
  let lineSubtotal := unitPrice * quantity
  let taxBreakdown := taxes.map fun tax =>
    { name := tax.name, rate := tax.rate, amount := roundHalfUp (tax.rate * lineSubtotal) 100000 }
  let taxAmount := (taxBreakdown.map AppliedTax.amount).sum
  { unitPrice, quantity, lineSubtotal, taxAmount, taxBreakdown
    lineTotal := lineSubtotal + taxAmount }

/-- The discount on an amount with its taxes, never more than that amount. -/
def applyCouponDiscount (taxedTotal : Cents) (discountType : DiscountType)
    (discountValue : Int) : Cents :=
  match discountType with
  | .percentage => roundHalfUp (min (taxedTotal * discountValue) (taxedTotal * 10000)) 10000
  | .flat => min discountValue taxedTotal

/-- Currencies the providers treat as having no minor unit. -/
def zeroDecimalCurrencies : List String :=
  ["BIF", "CLP", "DJF", "GNF", "JPY", "KMF", "KRW", "MGA",
    "PYG", "RWF", "UGX", "VND", "VUV", "XAF", "XOF", "XPF"]

/-- `toUpperCase` of a character whose upper case is made of ASCII letters: besides the
ASCII letters these are the dotless i, the long and the sharp s and the ligatures. Others
stay what they are, and no currency code contains them. -/
def upperCase (c : Char) : List Char :=
  match c with
  | 'ı' => ['I']
  | 'ſ' => ['S']
  | 'ß' => ['S', 'S']
  | 'ﬀ' => ['F', 'F']
  | 'ﬁ' => ['F', 'I']
  | 'ﬂ' => ['F', 'L']
  | 'ﬃ' => ['F', 'F', 'I']
  | 'ﬄ' => ['F', 'F', 'L']
  | 'ﬅ' => ['S', 'T']
  | 'ﬆ' => ['S', 'T']
  | c => [c.toUpper]

def zeroDecimal (currency : String) : Bool :=
  zeroDecimalCurrencies.any fun code => code.toList == currency.toList.flatMap upperCase

/-- Converts an amount to the gateway's integer minor unit. -/
def toMinorUnits (amount : Cents) (currency : String) : Int :=
  if zeroDecimal currency then (amount + 50) / 100 else amount

theorem toMinorUnits_of_decimal {currency : String} (h : zeroDecimal currency = false)
    (amount : Cents) : toMinorUnits amount currency = amount :=
  if_neg (by rw [h]; decide)

/-- The dotless i of a code counts as any other. -/
example : zeroDecimal "bıf" = true := by decide

@[simp] theorem priceLineItem_quantity (unitPrice : Cents) (quantity : Int)
    (taxes : List TaxLine) : (priceLineItem unitPrice quantity taxes).quantity = quantity := rfl

end WhatStore
