import WhatStore.Services.Digital

/-!
# Sending and redeeming download links

The part of `DigitalService` that runs after a delivery was created: the queue
job that mails its links (`DigitalDeliveryProcessor`), the sweep that puts
unsent deliveries back on the queue, the merchant's resend, and the public
route that redeems a link.

`prepareDelivery`, `markSent`, `markFailed` and `redeem` open transactions of
their own (`withRlsBypass`). An update by the id of a delivery is issued on the
row of its order, which is found first.
-/

namespace WhatStore

open ReadCommitted

/-- `MAX_EMAIL_ATTEMPTS`: after this many failed emails the sweep stops. -/
def maxEmailAttempts : Nat := 12

/-- `SWEEP_MIN_AGE_MS`: five minutes. -/
def sweepMinAge : Nat := 5 * 60 * 1000

def enqueueSend (job : Job) : Prog shop Unit := do
  let queued : Bool ← .call (.enqueue job) .ret
  Prog.throwIf (!queued) (.failure "The queue is not available")

/-! ## The delivery processor -/

/-- A fresh token for one grant: only its hash is stored. Answers the label and
the token for the email. -/
def mintLink (expiresAt : Time) (grant : Id × DownloadGrant × Option DigitalAsset) :
    Prog shop (String × Id) := do
  let asset ← Prog.orThrow grant.2.2 (.failure "Field asset is required to return data")
  let token ← generateDownloadToken
  updateOne (.mintGrant grant.1 (hashDownloadToken token) expiresAt)
  .ret (asset.label, token)

/-- The transaction of `prepareDelivery`: what the delivery email needs, or
nothing when there is nothing (any more) to send. -/
def mintDelivery (deliveryId : Id) (resend : Bool) : Prog shop (Option Mail) := do
  let found : Option DeliveryToSend ← .query (.deliveryById deliveryId) .ret
  match found with
  | none => .ret none
  | some x => do
    let order ← Prog.orThrow x.order (.failure "Field order is required to return data")
    if x.delivery.status == .revoked then .ret none else
    if x.delivery.status == .sent && !resend then .ret none else
    if order.paymentStatus != .paid then .ret none else
    match order.customerEmail with
    | none => do
      let time ← now
      updateOne (.noteDelivery x.orderId deliveryId "Order has no customer email" time)
      .ret none
    | some recipient => do
      let time ← now
      let links ← Prog.collect (mintLink (linkExpiry time)) x.grants
      .ret (some { tenantId := order.tenantId, recipient, customerName := order.customerName, links })

def prepareDelivery (deliveryId : Id) (resend : Bool) : Prog shop (Option Mail) := do
  let mail ← mintDelivery deliveryId resend
  commit
  .ret mail

def markSent (deliveryId : Id) : Prog shop Unit := do
  let found : Option DeliveryToSend ← .query (.deliveryById deliveryId) .ret
  match found with
  | none => commit
  | some x => do
    let time ← now
    let _ ← updateMany (.markSent x.orderId deliveryId time)
    commit

def markFailed (deliveryId : Id) (error : String) : Prog shop Unit := do
  let found : Option DeliveryToSend ← .query (.deliveryById deliveryId) .ret
  match found with
  | none => commit
  | some x => do
    let time ← now
    let message := String.ofList (error.toList.take 300)
    let _ ← updateMany (.markFailed x.orderId deliveryId message time)
    commit

/-- `DigitalDeliveryProcessor.process` on a send job: the outcome is written on
the delivery itself. -/
def processDelivery (deliveryId : Id) (resend : Bool) : Prog shop Unit := do
  let prepared ← prepareDelivery deliveryId resend
  match prepared with
  | none => .ret ()
  | some mail => do
    let answer : Except String Bool ← .call (.deliverEmail mail) .ret
    match answer with
    | .ok true => markSent deliveryId
    | .ok false => do
      let error := "Email was not sent (no SMTP configured or no recipient)"
      markFailed deliveryId error
      .throw (.failure error)
    | .error error => do
      markFailed deliveryId error
      .throw (.failure error)

/-- Paid but never emailed: back on the queue. -/
def requeueUnsent : Prog shop Unit := do
  let time ← now
  let stale : List Id ← .query (.staleDeliveries maxEmailAttempts (time - sweepMinAge)) .ret
  commit
  Prog.each (fun deliveryId => enqueueSend (.sendDelivery deliveryId)) stale

/-- The merchant's "resend": a fresh set of links, even if the previous email
arrived. Answers the job to queue after the commit. -/
def resend (tenantId orderId : Id) : Prog shop (List Job) := do
  let found : Option (DigitalDelivery × PaymentStatus) ←
    .query (.deliveryOf tenantId orderId) .ret
  let (delivery, paymentStatus) ←
    Prog.orThrow found (.notFound "This order has no digital delivery")
  Prog.throwIf (delivery.status == .revoked) (.conflict ("Download links were disabled (" ++
    delivery.revokedReason.getD "revoked" ++ "); they cannot be resent"))
  Prog.throwIf (paymentStatus != .paid) (.conflict "The order is not paid")
  .ret [.resendDelivery delivery.id]

/-! ## Redeeming a link -/

/-- What a dead link looks like to the person clicking it. -/
inductive GrantRejection where
  | revoked | expired | exhausted
  deriving DecidableEq

def GrantRejection.name : GrantRejection → String
  | .revoked => "revoked"
  | .expired => "expired"
  | .exhausted => "exhausted"

def grantRejection (grant : DownloadGrant) (now : Time) : Option GrantRejection :=
  if grant.revokedAt.isSome then some .revoked
  else if grant.expiresAt ≤ now then some .expired
  else if grant.maxDownloads ≤ grant.downloadCount then some .exhausted
  else none

def goneLink (reason : GrantRejection) : Err :=
  .gone ("This download link is no longer valid (" ++ reason.name ++ ")")

/-- Why a link whose grant was found is dead, if it is. -/
def deadLink (grant : DownloadGrant) (status : DeliveryStatus) (paymentStatus : PaymentStatus)
    (now : Time) : Option GrantRejection :=
  (grantRejection grant now).orElse fun _ =>
    if status == .revoked || paymentStatus != .paid then some .revoked else none

/-- Validates a link, counts the download and answers the short-lived URL of the
file. The count is a single conditional update. -/
def redeem (token : Id) : Prog shop String := do
  let found : Option GrantToRedeem ← .query (.grantByToken (hashDownloadToken token)) .ret
  match found with
  | none => do
    commit
    .throw (.notFound "Download link not found")
  | some x => do
    let asset ← Prog.orThrow x.asset (.failure "Field asset is required to return data")
    let (status, paymentStatus) ←
      Prog.orThrow x.delivery (.failure "Field delivery is required to return data")
    let time ← now
    match deadLink x.grant status paymentStatus time with
    | some reason => do
      commit
      .throw (goneLink reason)
    | none => do
      let clicked ← now
      let taken ← updateMany (.takeDownload x.id x.grant.maxDownloads clicked)
      commit
      Prog.throwIf (!taken) (goneLink .exhausted)
      let url : Option String ← .call (.signedDownloadUrl asset.storageKey asset.fileName) .ret
      Prog.orThrow url (.failure "The storage is not available")

end WhatStore
