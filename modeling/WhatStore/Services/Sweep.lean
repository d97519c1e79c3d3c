import WhatStore.Services.Stock

/-!
# The stale-order sweep

`StaleOrdersProcessor.process`: online-payment orders that were never paid are
cancelled, and what they held is given back.
-/

namespace WhatStore

open ReadCommitted

/-- `STALE_ORDER_TTL_MS`: two hours. -/
def staleOrderTtl : Nat := 2 * 60 * 60 * 1000

/-- The transaction that cancels one abandoned order. A payment that landed in
the meantime wins, and this becomes a no-op. -/
def expireOrder (tenantId id : Id) : Prog shop Unit := do
  let claimed ← updateMany (.sweepCancel id)
  Prog.runIf claimed do
    let found ← findOrderWithItems tenantId id
    let (order, items) ← Prog.orThrow found .recordNotFound
    let tenant ← getTenant tenantId
    Prog.runIf (tenant.tracksInventory && tenant.catalogType != .digital)
      (releaseStock (items.map fun i => i.2.released))
    releaseCoupon order
  commit

/-- One run of the sweep. An order that cannot be expired is only logged. -/
def sweep : Prog shop Unit := do
  let time ← now
  let stale : List (Id × Id) ← .query (.staleOrders (time - staleOrderTtl)) .ret
  commit
  Prog.each (fun x => do let _ ← (expireOrder x.2 x.1).attempt) stale

end WhatStore
