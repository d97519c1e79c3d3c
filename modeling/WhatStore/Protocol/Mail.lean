import WhatStore.Protocol.Corrections

/-!
# What a mailed delivery has gone through

A run of the delivery processor mints tokens in one transaction, mails them, and
marks the delivery sent in another one, which holds nothing else and is
committed only after the mail with every token the run has minted was sent.
-/

namespace WhatStore

open ReadCommitted ReadCommitted.Prog

variable {h h' : List Ev}

def Minted (tokenHash : TokenHash) (h : List Ev) : Prop :=
  ∃ id expiresAt, .update (.mintGrant id tokenHash expiresAt) true ∈ h

def Mailed (token : Id) (h : List Ev) : Prop :=
  ∃ mail : Mail, .call (.deliverEmail mail) (.ok true) ∈ h ∧ token ∈ mail.links.map Prod.snd

def AllMailed (h : List Ev) : Prop :=
  ∀ tokenHash, Minted tokenHash h → Mailed tokenHash.ofToken h

/-- A transaction that marks a delivery sent holds nothing else, and its links
were mailed. -/
def SendsMailed (h : List Ev) (tx : List Update) : Prop :=
  ∀ orderId id time, .markSent orderId id time ∈ tx →
    tx = [.markSent orderId id time] ∧ AllMailed h

def SendLaw (h : List Ev) : Ev → Prop
  | .committed tx => SendsMailed h tx
  | .returned tx => SendsMailed h tx
  | _ => True

def Sending : Protocol shop Request
  | .processDelivery _ _ => SendLaw
  | _ => fun _ _ => True

theorem sendLaw_permissive : Permissive (S := shop) SendLaw where
  query _ _ _ := trivial
  call _ _ _ := trivial
  threw _ _ := trivial
  miss _ _ := trivial

/-! ## Minting tokens -/

/-- The tokens minted so far are among `links`, and nothing is marked sent. -/
structure Linked (links : List (String × Id)) (h : List Ev) : Prop where
  minted : ∀ tokenHash, Minted tokenHash h → tokenHash.ofToken ∈ links.map Prod.snd
  unsent : ∀ orderId id time, .markSent orderId id time ∉ openTx (S := shop) h

theorem linked_nil (links : List (String × Id)) : Linked links [] :=
  ⟨fun _ ⟨_, _, hmem⟩ => (nomatch hmem), fun _ _ _ hmem => (nomatch hmem)⟩

theorem Linked.cons {links : List (String × Id)} {e : Ev} (hl : Linked links h)
    (hmint : ∀ id tokenHash expiresAt, e ≠ .update (.mintGrant id tokenHash expiresAt) true)
    (htx : ∀ orderId id time, .markSent orderId id time ∈ openTx (S := shop) (e :: h) →
      .markSent orderId id time ∈ openTx (S := shop) h) : Linked links (e :: h) where
  minted tokenHash := by
    rintro ⟨id, expiresAt, hmem⟩
    rcases List.mem_cons.1 hmem with heq | hmem
    · exact absurd heq.symm (hmint _ _ _)
    · exact hl.minted tokenHash ⟨id, expiresAt, hmem⟩
  unsent orderId id time hmem := hl.unsent orderId id time (htx orderId id time hmem)

theorem Linked.mint {links : List (String × Id)} (hl : Linked links h) (id : Id)
    (label : String) (token : Id) (expiresAt : Time) :
    Linked (links ++ [(label, token)])
      (.update (.mintGrant id (hashDownloadToken token) expiresAt) true :: h) where
  minted tokenHash := by
    rintro ⟨id', expiresAt', hmem⟩
    rw [List.map_append, List.mem_append]
    rcases List.mem_cons.1 hmem with heq | hmem
    · cases heq
      exact .inr List.mem_cons_self
    · exact .inl (hl.minted tokenHash ⟨id', expiresAt', hmem⟩)
  unsent orderId id time hmem := by
    rcases List.mem_cons.1 hmem with heq | hmem
    · cases heq
    · exact hl.unsent orderId id time hmem

theorem Linked.query {links : List (String × Id)} (hl : Linked links h) (q : Query)
    (x : q.Result) : Linked links (.query q x :: h) :=
  hl.cons (by simp) fun _ _ _ hmem => hmem

theorem Linked.call {links : List (String × Id)} (hl : Linked links h) (c : Call) (a : c.Answer) :
    Linked links (.call c a :: h) :=
  hl.cons (by simp) fun _ _ _ hmem => hmem

theorem mintLink_linked {links : List (String × Id)} (hl : Linked links h) (expiresAt : Time)
    (grant : Id × DownloadGrant × Option DigitalAsset) :
    (mintLink expiresAt grant).Along SendLaw h fun link h' => Linked (links ++ [link]) h' := by
  refine sendLaw_permissive.demand fun asset _ => sendLaw_permissive.invoke fun token => ?_
  refine along_seq.2 (sendLaw_permissive.write trivial fun hit => ?_)
  cases hit with
  | false => exact trivial
  | true => exact (hl.call _ _).mint _ _ _ _

/-- The links of a mail; none when there is nothing to mail. -/
def linksOf (mail : Option Mail) : List (String × Id) := (mail.map Mail.links).getD []

theorem mintDelivery_linked (deliveryId : Id) (resend : Bool) :
    (mintDelivery deliveryId resend).Along SendLaw [] fun mail h => Linked (linksOf mail) h := by
  refine sendLaw_permissive.ask fun s => ?_
  have hread : Linked [] [.query (.deliveryById deliveryId)
      (shop.eval (.deliveryById deliveryId) s)] := (linked_nil []).query _ _
  split
  · exact hread
  refine sendLaw_permissive.demand fun order _ => ?_
  split
  · exact hread
  split
  · exact hread
  split
  · exact hread
  split
  · refine sendLaw_permissive.invoke fun time => ?_
    refine along_seq.2 (sendLaw_permissive.write trivial fun hit => ?_)
    cases hit with
    | false => exact trivial
    | true =>
        refine (hread.call .now time).cons (by simp) fun _ _ _ hmem => ?_
        exact (List.mem_cons.1 hmem).resolve_left nofun
  · refine sendLaw_permissive.invoke fun time => along_seq.2 ?_
    exact along_collect (I := fun _ links h => Linked links h) [] (hread.call .now time)
      fun grant _ links h hl => mintLink_linked hl _ grant

/-! ## The processor -/

theorem AllMailed.cons {e : Ev} (hall : AllMailed h)
    (hmint : ∀ id tokenHash expiresAt, e ≠ .update (.mintGrant id tokenHash expiresAt) true) :
    AllMailed (e :: h) := by
  rintro tokenHash ⟨id, expiresAt, hmem⟩
  rcases List.mem_cons.1 hmem with heq | hmem
  · exact absurd heq.symm (hmint _ _ _)
  · obtain ⟨mail, hsent, hlink⟩ := hall tokenHash ⟨id, expiresAt, hmem⟩
    exact ⟨mail, List.mem_cons_of_mem _ hsent, hlink⟩

theorem sendsMailed_of_unsent {tx : List Update}
    (htx : ∀ orderId id time, .markSent orderId id time ∉ tx) : SendsMailed h tx :=
  fun orderId id time hmem => absurd hmem (htx orderId id time)

theorem markSent_sends {deliveryId : Id} (htx : openTx (S := shop) h = []) (hall : AllMailed h) :
    (markSent deliveryId).Along SendLaw h fun _ h' => openTx (S := shop) h' = [] := by
  refine sendLaw_permissive.ask fun s => ?_
  split
  · refine Permissive.finish (sendsMailed_of_unsent ?_) rfl
    rw [openTx_query, htx]
    exact fun _ _ _ => List.not_mem_nil
  next x hx =>
  refine sendLaw_permissive.invoke fun time => sendLaw_permissive.write trivial fun hit => ?_
  refine Permissive.finish ?_ rfl
  cases hit with
  | false =>
      refine sendsMailed_of_unsent ?_
      rw [openTx_miss, openTx_call, openTx_query, htx]
      exact fun _ _ _ => List.not_mem_nil
  | true =>
      rw [openTx_hit, openTx_call, openTx_query, htx]
      intro orderId id time' hmem
      rw [List.mem_singleton.1 hmem]
      exact ⟨rfl, ((hall.cons (by simp)).cons (by simp)).cons (by simp)⟩

theorem markFailed_sends {deliveryId : Id} {error : String} (htx : openTx (S := shop) h = []) :
    (markFailed deliveryId error).Along SendLaw h fun _ h' => openTx (S := shop) h' = [] := by
  refine sendLaw_permissive.ask fun s => ?_
  split
  · refine Permissive.finish (sendsMailed_of_unsent ?_) rfl
    rw [openTx_query, htx]
    exact fun _ _ _ => List.not_mem_nil
  refine sendLaw_permissive.invoke fun time => sendLaw_permissive.write trivial fun hit => ?_
  refine Permissive.finish (sendsMailed_of_unsent ?_) rfl
  cases hit <;> simp [htx]

theorem processDelivery_sends (deliveryId : Id) (resend : Bool) :
    (processDelivery deliveryId resend).Follows SendLaw := by
  refine along_seq.2 (along_seq.2 ((mintDelivery_linked deliveryId resend).mono fun mail h hl => ?_))
  refine Permissive.finish (sendsMailed_of_unsent hl.unsent) ?_
  have hend : ∀ h' : List Ev, openTx (S := shop) h' = [] →
      SendLaw h' (.returned (openTx (S := shop) h')) := fun h' htx => by
    rw [htx]
    exact sendsMailed_of_unsent fun _ _ _ => List.not_mem_nil
  cases mail with
  | none => exact hend _ rfl
  | some mail =>
      refine sendLaw_permissive.invoke fun answer => ?_
      split
      · refine (markSent_sends rfl ?_).mono fun _ h' htx => hend h' htx
        rintro tokenHash ⟨id, expiresAt, hmem⟩
        simp only [List.mem_cons, reduceCtorEq, false_or] at hmem
        exact ⟨mail, List.mem_cons_self, hl.minted tokenHash ⟨id, expiresAt, hmem⟩⟩
      · exact along_seq.2 ((markFailed_sends rfl).mono fun _ _ _ => trivial)
      · exact along_seq.2 ((markFailed_sends rfl).mono fun _ _ _ => trivial)

theorem handler_sends (r : Request) : (handler r).Follows (Sending r) := by
  cases r with
  | processDelivery deliveryId resend => exact processDelivery_sends deliveryId resend
  | _ => exact follows_anything _

end WhatStore
