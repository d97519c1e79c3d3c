import WhatStore.Shop.Database

/-!
# Digital deliveries

`DigitalService.createDeliveryForPaidOrder` and `revokeForOrder`, the two
operations the payment and order services run inside their own transactions.
-/

namespace WhatStore

open ReadCommitted

/-- `digital.linkTtlDays`, in days. -/
def linkTtlDays : Nat := 7

/-- `digital.maxDownloads`. -/
def maxDownloads : Nat := 5

def generateDownloadToken : Prog shop Id := uuid

/-- Only this digest of a token is stored. -/
def hashDownloadToken (token : Id) : TokenHash := ⟨token⟩

/-- SHA-256 is taken to be free of collisions. -/
theorem ofToken_hashDownloadToken (token : Id) : (hashDownloadToken token).ofToken = token :=
  rfl

/-- When a link made at `time` stops working. -/
def linkExpiry (time : Time) : Time := time + linkTtlDays * 86400000

/-- One download link of a delivery. Its token is a placeholder until the
email is built. -/
def createGrant (tenantId deliveryId : Id) (expiresAt : Time) (assetId : Id) : Prog shop Unit := do
  let id ← uuid
  let token ← generateDownloadToken
  insertOne (.insertGrant id { tenantId, deliveryId, assetId, tokenHash := hashDownloadToken token
                               expiresAt, maxDownloads, downloadCount := 0, revokedAt := none })

def newDelivery (id tenantId : Id) (createdAt : Time) : DigitalDelivery where
  id := id
  tenantId := tenantId
  status := .pending
  emailAttempts := 0
  lastError := none
  sentAt := none
  revokedAt := none
  revokedReason := none
  updatedAt := createdAt

/-- Called inside the transaction that marks an order paid. The delivery row
is inserted with ON CONFLICT DO NOTHING, so there is one delivery however often
this runs. Answers the jobs to queue after the commit. -/
def createDeliveryForPaidOrder (tenantId orderId : Id) : Prog shop (List Job) := do
  let productIds : List Id ← .query (.itemProducts orderId) .ret
  if productIds.isEmpty then .ret [] else do
    let assets : List Id ← .query (.assets tenantId productIds) .ret
    if assets.isEmpty then .ret [] else do
      let createdAt ← now
      let id ← uuid
      let created ← updateMany (.insertDelivery orderId (newDelivery id tenantId createdAt))
      -- already delivered by the other path
      if !created then .ret [] else do
        let found : Option DigitalDelivery ← .query (.delivery orderId) .ret
        let delivery ← Prog.orThrow found .recordNotFound
        let time ← now
        Prog.each (createGrant tenantId delivery.id (linkExpiry time)) assets
        .ret [.sendDelivery delivery.id]

/-- Disables every link of an order. Idempotent. -/
def revokeForOrder (orderId : Id) (reason : String) : Prog shop Unit := do
  let found : Option DigitalDelivery ← .query (.delivery orderId) .ret
  match found with
  | none => .ret ()
  | some delivery =>
    if delivery.status == .revoked then .ret () else do
      let time ← now
      updateOne (.revokeDelivery orderId time reason)
      let grants : List Id ← .query (.openGrants delivery.id) .ret
      Prog.each (fun grantId => do let _ ← updateMany (.revokeGrant grantId time)) grants

end WhatStore
