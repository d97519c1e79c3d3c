import WhatStore.Protocol.Stock

/-!
# Downloads and files keep to the protocol
-/

namespace WhatStore

open ReadCommitted ReadCommitted.Prog

variable {α : Type} {r : Request} {h : List Ev} {Q : α → List Ev → Prop}

/-! ## The delivery processor -/

theorem lawful_enqueueSend (job : Job) :
    (enqueueSend job).Along (Lawful r) h fun _ _ => True :=
  (lawful_permissive r).invoke fun _ => along_throwIf.2 ⟨fun _ => trivial, fun _ => trivial⟩

theorem lawful_mintLink {deliveryId : Id} (hr : r.delivers deliveryId) (expiresAt : Time)
    (grant : Id × DownloadGrant × Option DigitalAsset) :
    (mintLink expiresAt grant).Along (Lawful r) h fun _ _ => True := by
  refine (lawful_permissive r).demand fun asset _ => (lawful_permissive r).invoke fun token => ?_
  exact lawful_updateOne ⟨⟨deliveryId, hr⟩, token, rfl, rfl⟩ trivial

theorem lawful_mintDelivery {deliveryId : Id} (hr : r.delivers deliveryId) (resend : Bool) :
    (mintDelivery deliveryId resend).Along (Lawful r) h fun _ _ => True := by
  refine (lawful_permissive r).ask fun s => ?_
  split
  · exact trivial
  refine (lawful_permissive r).demand fun order _ => ?_
  split
  · exact trivial
  split
  · exact trivial
  split
  · exact trivial
  split
  · exact (lawful_permissive r).invoke fun time => lawful_updateOne hr trivial
  · refine (lawful_permissive r).invoke fun time => Permissive.skip ?_ fun _ _ _ => trivial
    refine (along_collect (I := fun _ _ _ => True) [] trivial fun grant _ _ h' _ => ?_).mono
      fun _ _ _ => trivial
    exact lawful_mintLink hr _ grant

theorem lawful_markSent {deliveryId : Id} (hr : r.delivers deliveryId) :
    (markSent deliveryId).Along (Lawful r) h fun _ _ => True := by
  refine (lawful_permissive r).ask fun s => ?_
  split
  · exact ⟨trivial, trivial⟩
  · refine (lawful_permissive r).invoke fun time => (lawful_permissive r).write hr fun _ => ?_
    exact ⟨trivial, trivial⟩

theorem lawful_markFailed {deliveryId : Id} (hr : r.delivers deliveryId) (error : String) :
    (markFailed deliveryId error).Along (Lawful r) h fun _ _ => True := by
  refine (lawful_permissive r).ask fun s => ?_
  split
  · exact ⟨trivial, trivial⟩
  · refine (lawful_permissive r).invoke fun time => (lawful_permissive r).write hr fun _ => ?_
    exact ⟨trivial, trivial⟩

theorem processDelivery_follows (deliveryId : Id) (resend : Bool) :
    (processDelivery deliveryId resend).Follows (Lawful (.processDelivery deliveryId resend)) := by
  have hr : (Request.processDelivery deliveryId resend).delivers deliveryId := ⟨resend, rfl⟩
  refine Permissive.skip (Permissive.skip (lawful_mintDelivery hr resend) fun mail h' _ =>
    Permissive.finish trivial trivial) fun mail _ _ => ?_
  split
  · exact trivial
  refine (lawful_permissive _).invoke fun answer => ?_
  split
  · exact (lawful_markSent hr).mono fun _ _ _ => trivial
  · exact Permissive.skip (lawful_markFailed hr _) fun _ _ _ => trivial
  · exact Permissive.skip (lawful_markFailed hr _) fun _ _ _ => trivial

theorem requeueUnsent_follows : requeueUnsent.Follows (Lawful r) := by
  refine (lawful_permissive r).invoke fun time => (lawful_permissive r).ask fun s => ?_
  refine Permissive.finish trivial ((lawful_each fun _ _ _ _ => ?_).mono fun _ _ _ => trivial)
  exact lawful_enqueueSend _

theorem lawful_resend (t id : Id) : (resend t id).Along (Lawful r) h fun _ _ => True := by
  refine (lawful_permissive r).ask fun s => (lawful_permissive r).demand fun x _ => ?_
  exact (lawful_permissive r).check fun _ => (lawful_permissive r).check fun _ => trivial

/-! ## Redeeming a link -/

theorem mem_grantsWhere {s : Database} {p : DownloadGrant → Bool} {id : Id} {g : DownloadGrant} :
    (id, g) ∈ grantsWhere s p ↔ s.row (.grant id) = some g ∧ p g = true := by
  rw [grantsWhere, List.mem_filterMap]
  constructor
  · rintro ⟨k, -, hk⟩
    cases k with
    | grant id =>
        obtain ⟨j, hj, heq⟩ := Option.map_eq_some_iff.1 hk
        cases heq
        exact Option.filter_eq_some_iff.1 hj
    | _ => cases hk
  · rintro ⟨hrow, hp⟩
    refine ⟨.grant id, s.mem_keys_of_row hrow, ?_⟩
    simp [hrow, hp]

theorem mem_deliveriesWhere {s : Database} {p : Id → DigitalDelivery → Bool} {orderId : Id}
    {d : DigitalDelivery} :
    (orderId, d) ∈ deliveriesWhere s p ↔ s.row (.delivery orderId) = some d ∧ p orderId d = true := by
  rw [deliveriesWhere, List.mem_filterMap]
  constructor
  · rintro ⟨k, -, hk⟩
    cases k with
    | delivery id =>
        obtain ⟨j, hj, heq⟩ := Option.map_eq_some_iff.1 hk
        cases heq
        exact Option.filter_eq_some_iff.1 hj
    | _ => cases hk
  · rintro ⟨hrow, hp⟩
    refine ⟨.delivery orderId, s.mem_keys_of_row hrow, ?_⟩
    simp [hrow, hp]

theorem eval_grantByToken {s : Database} {tokenHash : TokenHash} {x : GrantToRedeem}
    (hx : Query.eval (.grantByToken tokenHash) s = some x) :
    s.row (.grant x.id) = some x.grant ∧ x.grant.tokenHash = tokenHash := by
  obtain ⟨g, hg, rfl⟩ := Option.map_eq_some_iff.1 hx
  obtain ⟨hrow, hhash⟩ := mem_grantsWhere.1 (List.mem_of_head? hg)
  exact ⟨hrow, by simpa using hhash⟩

theorem eval_grantByToken_delivery {s : Database} {token : TokenHash} {x : GrantToRedeem}
    {status : DeliveryStatus} {pay : PaymentStatus}
    (hx : Query.eval (.grantByToken token) s = some x) (hd : x.delivery = some (status, pay)) :
    ∃ orderId d, s.row (.delivery orderId) = some d ∧ d.id = x.grant.deliveryId ∧
      d.status = status := by
  obtain ⟨g, -, rfl⟩ := Option.map_eq_some_iff.1 hx
  obtain ⟨y, hy, hpay⟩ := Option.bind_eq_some_iff.1 hd
  obtain ⟨p, -, heq⟩ := Option.map_eq_some_iff.1 hpay
  cases heq
  obtain ⟨hrow, hid⟩ := mem_deliveriesWhere.1 (List.mem_of_head? hy)
  exact ⟨y.1, y.2, hrow, by simpa using hid, rfl⟩

theorem redeem_follows (token : Id) :
    (redeem token >>= fun _ => .ret ()).Follows (Lawful (.redeem token)) := by
  have hP := lawful_permissive (.redeem token)
  refine Permissive.skip (f := fun _ => .ret ()) ?_ fun _ _ _ => trivial
  refine hP.ask fun s => ?_
  split
  · exact ⟨trivial, trivial⟩
  next x hx =>
  refine hP.demand fun asset _ => hP.demand fun state _ => hP.invoke fun time => ?_
  split
  · exact ⟨trivial, trivial⟩
  refine hP.invoke fun clicked => hP.write ⟨⟨token, rfl⟩, x.grant, ?_, rfl⟩ fun taken => ?_
  · have hsaw : Saw (S := shop) (.grant x.id) (some x.grant)
        [.query (.grantByToken (hashDownloadToken token))
          (Query.eval (.grantByToken (hashDownloadToken token)) s)] :=
      saw_query (h := []) (fun s' hs' => (eval_grantByToken (hs'.trans hx)).1) (by simp [locks])
    exact (hsaw.cons _).cons _
  · refine Permissive.finish trivial (hP.check fun _ => hP.invoke fun url => ?_)
    exact along_orThrow.2 ⟨fun _ => trivial, fun _ _ => trivial⟩

/-! ## Deleting files and products -/

theorem lawful_removeGrants (hr : r.dropsFiles) (assetId : Id) :
    (removeGrants assetId).Along (Lawful r) h fun _ _ => True := by
  refine (lawful_permissive r).ask fun s => lawful_each fun id _ h' _ => ?_
  exact (lawful_permissive r).write hr fun _ => trivial

theorem removeAsset_follows (t p id : Id) :
    (removeAsset t p id).Follows (Lawful (.removeAsset t p id)) := by
  have hP := lawful_permissive (.removeAsset t p id)
  have hr : (Request.removeAsset t p id).dropsFiles := .inl ⟨t, p, id, rfl⟩
  refine hP.ask fun s => hP.demand fun asset _ => hP.ask fun s => hP.check fun _ => ?_
  refine lawful_updateOne hr (Permissive.skip (lawful_removeGrants hr id) fun _ _ _ => ?_)
  exact hP.invoke fun _ => trivial

theorem lawful_filesForProductDeletion (t p : Id) :
    (filesForProductDeletion t p).Along (Lawful r) h fun _ _ => True := by
  refine (lawful_permissive r).ask fun s => ?_
  split
  · exact trivial
  · exact (lawful_permissive r).ask fun s => (lawful_permissive r).check fun _ => trivial

theorem lawful_deleteProductRow (t p : Id) :
    (deleteProductRow t p).Along (Lawful (.removeProduct t p)) h fun _ _ => True := by
  have hP := lawful_permissive (.removeProduct t p)
  refine lawful_updateOne ⟨t, rfl⟩ (hP.ask fun s => ?_)
  refine Permissive.skip (lawful_each fun a _ h' _ => ?_) fun _ _ _ => hP.ask fun s => ?_
  · refine hP.write (.inr ⟨t, p, rfl⟩) fun _ => ?_
    exact lawful_removeGrants (.inr ⟨t, p, rfl⟩) a.1
  refine Permissive.skip (lawful_each fun v _ h' _ => ?_) fun _ _ _ => hP.ask fun s => ?_
  · exact lawful_removeVariant (.inr ⟨t, p, rfl⟩) v
  · exact lawful_each fun i _ h' _ => hP.write ⟨t, rfl⟩ fun _ => trivial

theorem lawful_removeStoredFiles (files : List Id) :
    (removeStoredFiles files).Along (Lawful r) h fun _ _ => True :=
  lawful_each fun _ _ _ _ _ => ⟨trivial, trivial⟩

theorem removeProduct_follows (t p : Id) :
    (do let storedFiles ← removeProduct t p
        commit
        removeStoredFiles storedFiles).Follows (Lawful (.removeProduct t p)) := by
  have hP := lawful_permissive (.removeProduct t p)
  refine Permissive.skip (p := removeProduct t p) ?_ fun files h' _ => Permissive.finish trivial ?_
  · refine hP.ask fun s => hP.demand fun x _ => ?_
    refine Permissive.skip (lawful_filesForProductDeletion t p) fun files _ _ => ?_
    exact Permissive.skip (lawful_deleteProductRow t p) fun _ _ _ => trivial
  · exact (lawful_removeStoredFiles files).mono fun _ _ _ => trivial

end WhatStore
