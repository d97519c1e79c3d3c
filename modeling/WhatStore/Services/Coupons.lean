import WhatStore.Services.Orders

/-!
# Coupons

`CouponsService`: the merchant's requests that write coupons, each of them one statement
after its check, and the check of a code before an order is placed. Upper case and trimming
of strings are the language's; they are parameters here, and so is the id of a new row.
-/

namespace WhatStore

open ReadCommitted

/-- The code an order looks up, if it has one: `if (input.couponCode)`. -/
def orderCode (toUpperCase trim : String → String) (couponCode : String) : Option String :=
  if couponCode = "" then none else some (toUpperCase (trim couponCode))

namespace CouponsService

structure CreateCouponDto where
  code : String
  discountType : DiscountType
  discountValue : Int
  usageLimit : Option Int
  expiresAt : Option Time
  isActive : Option Bool

/-- A field set to null is cleared, one left out is kept. -/
structure UpdateCouponDto where
  discountType : Option DiscountType
  discountValue : Option Int
  usageLimit : Option (Option Int)
  expiresAt : Option (Option Time)
  isActive : Option Bool

/-- `@@unique([tenantId, code])`. -/
def codeTaken (db : Database) (tenantId : Id) (code : String) : Bool :=
  db.keys.any fun k => match k with
    | .coupon id => (db.row (.coupon id)).any fun c : Coupon =>
        c.tenantId == tenantId && c.code == code
    | _ => false

def create (toUpperCase : String → String) (tenantId : Id) (dto : CreateCouponDto) (id : Id)
    (db : Database) : Except Err Database :=
  if codeTaken db tenantId (toUpperCase dto.code) || (db.row (.coupon id)).isSome then
    .error (.failure "Unique constraint failed")
  else .ok (db.set (.coupon id) (some
    { tenantId, code := toUpperCase dto.code, discountType := dto.discountType
      discountValue := dto.discountValue, usageLimit := dto.usageLimit, usageCount := 0
      expiresAt := dto.expiresAt, isActive := dto.isActive.getD true }))

def findOne (tenantId id : Id) (db : Database) : Except Err Coupon :=
  match Query.eval (.coupon tenantId id) db with
  | some coupon => .ok coupon
  | none => .error (.notFound "Coupon not found")

def update (tenantId id : Id) (dto : UpdateCouponDto) (db : Database) : Except Err Database := do
  let coupon ← findOne tenantId id db
  .ok (db.set (.coupon id) (some
    { coupon with
      discountType := dto.discountType.getD coupon.discountType
      discountValue := dto.discountValue.getD coupon.discountValue
      usageLimit := dto.usageLimit.getD coupon.usageLimit
      expiresAt := dto.expiresAt.getD coupon.expiresAt
      isActive := dto.isActive.getD coupon.isActive }))

def remove (tenantId id : Id) (db : Database) : Except Err Database := do
  let coupon ← findOne tenantId id db
  .ok (db.set (.coupon id) (some { coupon with isActive := false }))

inductive Request where
  | create (tenantId : Id) (dto : CreateCouponDto) (id : Id)
  | update (tenantId id : Id) (dto : UpdateCouponDto)
  | remove (tenantId id : Id)

/-- The database after a request: a request that throws leaves it. -/
def serve (toUpperCase : String → String) (db : Database) (r : Request) : Database :=
  (match r with
    | .create tenantId dto id => create toUpperCase tenantId dto id db
    | .update tenantId id dto => update tenantId id dto db
    | .remove tenantId id => remove tenantId id db).toOption.getD db

def validCoupon (toUpperCase : String → String) (tenantId : Id) (code : String) :
    Prog shop (Id × Coupon) := do
  let found : Option (Id × Coupon) ← .query (.couponByCode tenantId (toUpperCase code)) .ret
  let coupon ← Prog.orThrow found (.badRequest "Invalid or inactive coupon")
  let time ← now
  Prog.throwIf (coupon.2.expiresAt.any fun t => decide (t < time)) (.badRequest "Coupon expired")
  Prog.throwIf (coupon.2.usageLimit.any fun limit => decide (limit ≤ coupon.2.usageCount))
    (.badRequest "Coupon usage limit reached")
  .ret coupon

structure Validated where
  code : String
  discountType : DiscountType
  discountValue : Int
  discountAmount : Cents
  total : Cents

def validate (toUpperCase : String → String) (tenantId : Id) (code : String) (subtotal : Cents) :
    Prog shop Validated := do
  let coupon ← validCoupon toUpperCase tenantId code
  let discount := applyCouponDiscount subtotal coupon.2.discountType coupon.2.discountValue
  .ret { code := coupon.2.code, discountType := coupon.2.discountType
         discountValue := coupon.2.discountValue, discountAmount := discount
         total := subtotal - discount }

end CouponsService

end WhatStore
