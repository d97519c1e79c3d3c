import WhatStore.Shop.Database

/-!
# Taking and returning stock and coupon uses

The conditional writes of `OrdersService` on the shared counters of a store:
`reserveStock`, `releaseStock`, `redeemCoupon`, and the release of a coupon use
that both ways of cancelling an order share.
-/

namespace WhatStore

open ReadCommitted

/-- The parts of a priced line that stock handling needs. -/
structure PricedLine where
  productId : Id
  product : Product
  variant : Option (Id × ProductVariant)
  quantity : Int

/-- The row the line takes its units from. -/
def PricedLine.stockRow (line : PricedLine) : StockRow :=
  match line.variant with
  | some v => .variant v.1
  | none => .product line.productId

/-- What the customer is told when a line cannot be served. -/
def PricedLine.shortage (line : PricedLine) : String :=
  let available := match line.variant with
    | some v => v.2.quantity
    | none => line.product.quantity
  let label := match line.variant with
    | some v => line.product.name ++ " (" ++ v.2.name ++ ")"
    | none => line.product.name
  if 0 < available then "Only " ++ toString available ++ " left of " ++ label
  else label ++ " is out of stock"

/-- Takes stock for each line, or rejects the order. The check and the
decrement are one conditional update a line. -/
def reserveStock : List PricedLine → Prog shop Unit :=
  Prog.each fun line => do
    let taken ← updateMany (.take line.stockRow line.quantity)
    Prog.throwIf (!taken) (.conflict line.shortage)

/-- A number of units with the product and variant they go back to. -/
structure ReleasedItem where
  productId : Option Id
  variantId : Option Id
  quantity : Int

def ReleasedItem.stockRow (i : ReleasedItem) : Option StockRow :=
  stockRowOf i.productId i.variantId

def OrderItem.released (i : OrderItem) : ReleasedItem where
  productId := i.productId
  variantId := i.variantId
  quantity := i.quantity

def releaseStock : List ReleasedItem → Prog shop Unit :=
  Prog.each fun item => match item.stockRow with
    | some row => do let _ ← updateMany (.give row item.quantity)
    | none => .ret ()

/-- One conditional update as well: a use is taken only while one is left. -/
def redeemCoupon (couponId : Id) (coupon : Coupon) : Prog shop Unit := do
  let taken ← updateMany (.redeem couponId coupon.usageLimit)
  Prog.throwIf (!taken) (.conflict ("Coupon " ++ coupon.code ++ " usage limit reached"))

def releaseCoupon (order : Order) : Prog shop Unit :=
  match order.couponId with
  | some couponId => do let _ ← updateMany (.releaseCoupon couponId)
  | none => .ret ()

end WhatStore
