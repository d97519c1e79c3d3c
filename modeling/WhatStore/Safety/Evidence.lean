import WhatStore.Safety.OrderRule

/-!
# Confirmed evidence

The proof of a Zelle payment is the only record that the money moved. A customer
submits it, and may replace it until the order is paid; the merchant confirms the
payment or rejects the proof. Submissions look at the payment status in an
earlier read, and rejections not at all. The proof of a confirmed payment stays
as it is in every run in which no submission and no rejection writes a paid
order, and in which the file one of them deletes is not the proof of another
order that is paid.
-/

namespace WhatStore

open ReadCommitted ReadCommitted.Prog

/-- What an order has to show for its payment: the file and the reference. -/
def Order.evidence (o : Order) : Option String × Option String :=
  (o.paymentProofUrl, o.paymentReference)

def Request.proofOrder : Request → Option Id
  | .submitPaymentProof _ id _ _ _ => some id
  | .confirmZellePayment _ id => some id
  | .rejectZellePayment _ id => some id
  | _ => none

def Request.handlesProof (r : Request) : Bool := r.proofOrder.isSome

/-- `deleteUploadedFile` leaves everything alone that is not an upload. -/
def uploaded (url : String) : Bool := "/uploads/".toList.isPrefixOf url.toList

/-! ## When a file is deleted -/

/-- The update takes the file `url` off the order `id`. -/
def Update.dropsProof (id : Id) (url : String) : Update → Prop
  | .rejectManual id' => id' = id
  | .submitProof id' new _ => id' = id ∧ url ≠ new
  | _ => False

/-- The protocol of files: a file is deleted after it was taken off the order. -/
def Cleans (r : Request) (h : List Ev) : Ev → Prop
  | .call (.deleteUploadedFile url) _ => ∃ u id, r.proofOrder = some id ∧ u.dropsProof id url ∧
      Wrote (S := shop) u h
  | _ => True

def KeepsFiles : Ev → Prop
  | .call (.deleteUploadedFile _) _ => False
  | _ => True

theorem cleans_of_keepsFiles {r : Request} {h : List Ev} {e : Ev} (he : KeepsFiles e) :
    Cleans r h e := by
  unfold Cleans
  split
  · exact he.elim
  · trivial

variable {r : Request} {h : List Ev}

theorem keepsFiles_updateOne (u : Update) : (updateOne u).Only (S := shop) KeepsFiles :=
  only_bind (only_update fun _ => trivial) fun _ => only_throwIf fun _ => trivial

theorem keepsFiles_insertOne (u : Update) : (insertOne u).Only (S := shop) KeepsFiles :=
  only_bind (only_update fun _ => trivial) fun _ => only_throwIf fun _ => trivial

theorem keepsFiles_createGrant (t deliveryId : Id) (expiresAt : Time) (assetId : Id) :
    (createGrant t deliveryId expiresAt assetId).Only (S := shop) KeepsFiles :=
  only_bind (only_call fun _ => trivial) fun _ =>
    only_bind (only_call fun _ => trivial) fun _ => keepsFiles_insertOne _

theorem keepsFiles_createDeliveryForPaidOrder (t id : Id) :
    (createDeliveryForPaidOrder t id).Only (S := shop) KeepsFiles := by
  refine only_bind (only_query fun _ => trivial) fun products => ?_
  split
  · exact only_ret
  refine only_bind (only_query fun _ => trivial) fun assets => ?_
  split
  · exact only_ret
  refine only_bind (only_call fun _ => trivial) fun _ => ?_
  refine only_bind (only_call fun _ => trivial) fun _ => ?_
  refine only_bind (only_update fun _ => trivial) fun created => ?_
  split
  · exact only_ret
  refine only_bind (only_query fun _ => trivial) fun _ => ?_
  refine only_bind (only_orThrow fun _ => trivial) fun _ => ?_
  refine only_bind (only_call fun _ => trivial) fun _ => ?_
  exact only_bind (only_each fun _ => keepsFiles_createGrant _ _ _ _) fun _ => only_ret

theorem keepsFiles_confirmManualPayment (t id : Id) :
    (confirmManualPayment t id).Only (S := shop) KeepsFiles := by
  have hthrow : ∀ e, KeepsFiles (.threw e) := fun _ => trivial
  refine only_bind (only_query fun _ => trivial) fun _ => only_bind (only_orThrow hthrow) fun o => ?_
  refine only_bind (only_throwIf hthrow) fun _ => only_bind (only_throwIf hthrow) fun _ => ?_
  split
  · exact only_ret
  · refine only_bind (only_throwIf hthrow) fun _ => only_bind (keepsFiles_updateOne _) fun _ => ?_
    exact only_bind (keepsFiles_createDeliveryForPaidOrder t id) fun _ => only_ret

theorem keepsFiles_thenHooks {p : Prog shop (List Job)} (hp : p.Only (S := shop) KeepsFiles) :
    (thenHooks p).Only (S := shop) KeepsFiles :=
  only_bind hp fun _ => only_bind (fun _ => ⟨trivial, trivial⟩) fun _ =>
    only_each fun _ => only_call fun _ => trivial

theorem along_cleansAfter {u : Update} {f : Unit → Prog shop Unit} {Q : Unit → List Ev → Prop}
    (hk : (f ()).Along (Cleans r) (.update u true :: h) Q) :
    (updateOne u >>= f).Along (Cleans r) h Q := by
  refine along_seq.2 fun hit => ⟨trivial, ?_⟩
  cases hit with
  | false => exact trivial
  | true => exact hk

theorem submitPaymentProof_cleans (t id : Id) (url : String) (safe : Bool)
    (reference : Option String) : (submitPaymentProof t id url safe reference).Follows
      (Cleans (.submitPaymentProof t id url safe reference)) := by
  refine along_seq.2 (along_throwIf.2 ⟨fun _ => trivial, fun _ => ?_⟩)
  refine along_ask (fun _ => trivial) fun s => ?_
  refine along_seq.2 (along_orThrow.2 ⟨fun _ => trivial, fun before _ => ?_⟩)
  refine along_seq.2 (along_throwIf.2 ⟨fun _ => trivial, fun _ => ?_⟩)
  refine along_seq.2 (along_throwIf.2 ⟨fun _ => trivial, fun _ => ?_⟩)
  refine along_cleansAfter ?_
  split
  · next old =>
      split
      · next hne =>
          refine along_invoke (fun _ => ?_) fun _ => along_invoke (fun _ => trivial) fun _ => trivial
          exact ⟨.submitProof id url reference, id, rfl, ⟨rfl, by simpa using hne⟩, wrote_self _ _⟩
      · exact along_invoke (fun _ => trivial) fun _ => trivial
  · exact along_invoke (fun _ => trivial) fun _ => trivial

theorem rejectManualPayment_cleans (t id : Id) :
    (rejectManualPayment t id).Follows (Cleans (.rejectZellePayment t id)) := by
  refine along_ask (fun _ => trivial) fun s => ?_
  refine along_seq.2 (along_orThrow.2 ⟨fun _ => trivial, fun order _ => ?_⟩)
  refine along_seq.2 (along_throwIf.2 ⟨fun _ => trivial, fun _ => ?_⟩)
  refine along_cleansAfter ?_
  split
  · exact trivial
  · exact fun _ => ⟨⟨.rejectManual id, id, rfl, rfl, wrote_self _ _⟩, trivial⟩

theorem confirmZellePayment_cleans (t id : Id) :
    (thenHooks (confirmManualPayment t id)).Follows (Cleans (.confirmZellePayment t id)) :=
  ((keepsFiles_thenHooks (keepsFiles_confirmManualPayment t id) []).weaken fun _ _ =>
    cleans_of_keepsFiles).mono fun _ _ _ => trivial

theorem handler_cleans (r : Request) (hr : r.handlesProof = true) :
    (handler r).Follows (Cleans r) := by
  cases r with
  | submitPaymentProof t id url safe reference =>
      exact submitPaymentProof_cleans t id url safe reference
  | confirmZellePayment t id => exact confirmZellePayment_cleans t id
  | rejectZellePayment t id => exact rejectManualPayment_cleans t id
  | _ => cases hr

def Proofs : Protocol shop Request := fun r h e => Among (Request.handlesProof ·) r h e ∧ Cleans r h e

theorem handler_proofs (r : Request) (hr : r.handlesProof = true) :
    (handler r).Follows (Proofs r) :=
  (handler_among r hr).and (handler_cleans r hr)

/-! ## The rule of paid orders -/

/-- The rule that paid orders stay paid and keep what they have to show for it. -/
def evidenceRule : OrderRule where
  ok _ _ := True
  rel _ o o' := o.paymentStatus = .paid → o'.paymentStatus = .paid ∧ o'.evidence = o.evidence
  refl _ _ hpaid := ⟨hpaid, rfl⟩
  trans _ o₁ o₂ o₃ h₁₂ h₂₃ hpaid := by
    obtain ⟨hpaid₂, hsame₂⟩ := h₁₂ hpaid
    obtain ⟨hpaid₃, hsame₃⟩ := h₂₃ hpaid₂
    exact ⟨hpaid₃, hsame₃.trans hsame₂⟩

/-- The order that `w` shows to process `i` is paid. -/
def paidIn (w : StoreWorld) (i : ℕ) (id : Id) : Bool :=
  ((w.view i).row (.order id)).any fun o : Order => o.paymentStatus == .paid

/-- No submission and no rejection writes a paid order, and no upload is deleted
that is the proof of another order that is paid. -/
def sparesEvidence (w : StoreWorld) (i : ℕ) (r : Request) : Event shop → Bool
  | .update (.submitProof id _ _) true => !paidIn w i id
  | .update (.rejectManual id) true => !paidIn w i id
  | .call (.deleteUploadedFile url) _ => !uploaded url ||
      (ordersWhere (w.view i) fun o => o.paymentStatus == .paid &&
        o.paymentProofUrl == some url).all fun x => r.proofOrder == some x.1
  | _ => true

theorem paidIn_eq {w : StoreWorld} {i : ℕ} {id : Id} {o : Order}
    (ho : (w.view i).row (.order id) = some o) : paidIn w i id = (o.paymentStatus == .paid) := by
  rw [paidIn, ho, Option.any_some]

theorem evidenceRule_kept :
    evidenceRule.Kept (Request.handlesProof ·) (sparesEvidence · · · ·) where
  insert _ _ _ _ _ := trivial
  write w i r u id o o' hr hwrite ho hlaw hallow _ := by
    refine ⟨trivial, fun hpaid => ?_⟩
    cases hwrite with
    | confirmMessage =>
        obtain ⟨⟨t, dto, rfl⟩, -⟩ := hlaw
        cases hr
    | claimStatus =>
        obtain ⟨⟨t, c, rfl⟩, -⟩ := hlaw
        cases hr
    | restatus =>
        obtain ⟨⟨t, c, rfl⟩, -⟩ := hlaw
        cases hr
    | editOrder =>
        obtain ⟨t, dto, rfl, -⟩ := hlaw
        cases hr
    | settle _ _ _ _ hunpaid => exact absurd hpaid hunpaid
    | failPayPal _ _ hpending =>
        rw [hpending] at hpaid
        cases hpaid
    | sweepCancel _ _ _ hpending =>
        rw [hpending] at hpaid
        cases hpaid
    | markLost =>
        obtain ⟨e, rfl⟩ := hlaw
        cases hr
    | confirmManual => exact ⟨rfl, rfl⟩
    | rejectManual => simp [sparesEvidence, paidIn_eq ho, hpaid] at hallow
    | submitProof => simp [sparesEvidence, paidIn_eq ho, hpaid] at hallow
    | bindCheckout _ g => cases g <;> exact ⟨hpaid, rfl⟩
    | hideOrder => exact ⟨hpaid, rfl⟩

/-! ## Runs -/

abbrev ProofTrace : StoreWorld → StoreWorld → Prop :=
  World.Trace Proofs (sparesEvidence · · · ·)

theorem evidence_discipline :
    evidenceRule.discipline.Kept Proofs (sparesEvidence · · · ·) :=
  fun w i r u htidy hw hlaw hallow hguard =>
    evidenceRule_kept.discipline w i r u htidy hw hlaw.1 hallow hguard

theorem evidence_good (db : Database) : evidenceRule.discipline.Good db :=
  OrderRule.Holds.good (ρ := evidenceRule) fun _ _ _ => trivial

def DeletedIn (log : List (Entry shop Request)) (url : String) : Prop :=
  ∃ entry ∈ log, entry.event = .call (.deleteUploadedFile url) ()

variable {db : Database} {w w' : StoreWorld} {i : ℕ} {e : Ev}

/-- A step in which the order is paid does not delete its proof: of the rows the
process sees, its own has already lost the file, and the others are not paid. -/
theorem keeps_file (htidy : w.Tidy) (hw : evidenceRule.discipline.Inv w)
    (hm : w.Move Proofs (sparesEvidence · · · ·) i r e w') {id : Id} {o : Order} {url : String}
    (ho : w.db.row (.order id) = some o) (hpaid : o.paymentStatus = .paid)
    (hurl : o.paymentProofUrl = some url) (hupload : uploaded url = true) :
    e ≠ .call (.deleteUploadedFile url) () := by
  rintro rfl
  obtain ⟨o', ho', hrel⟩ := hw.view_rel i (.order id) o ho
  obtain ⟨hpaid', hsame⟩ := hrel hpaid
  have hurl' : o'.paymentProofUrl = some url := (congrArg Prod.fst hsame).trans hurl
  -- the condition on the run: the order is the one the request is about
  have hown : r.proofOrder = some id := by
    have hallow := hm.allowed
    rw [sparesEvidence, hupload, Bool.not_true, Bool.false_or] at hallow
    exact eq_of_beq (List.all_eq_true.1 hallow (id, o')
      (mem_ordersWhere.2 ⟨ho', by simp [hpaid', hurl']⟩))
  obtain ⟨u, id', hid', hdrops, hwrote⟩ := hm.lawful.2
  cases hown.symm.trans hid'
  obtain ⟨v, hv⟩ := hwrote.row w.db
  rw [← htidy.tx_eq i] at hv
  have hrow : (w.view i).row (.order id) = some o' := ho'
  cases u with
  | rejectManual =>
      subst hdrops
      obtain ⟨old, -, rfl⟩ := Option.map_eq_some_iff.1 (hv.symm.trans hrow)
      cases hurl'
  | submitProof =>
      obtain ⟨rfl, hne⟩ := hdrops
      obtain ⟨old, -, rfl⟩ := Option.map_eq_some_iff.1 (hv.symm.trans hrow)
      exact hne (Option.some.inj hurl').symm
  | _ => exact hdrops

/-- The order is paid in both worlds, keeps the proof and the reference that it
had in the first, and its upload was not deleted in between. -/
def EvidenceKept (id : Id) (w w' : StoreWorld) : Prop :=
  ∃ o o', w.db.row (.order id) = some o ∧ w'.db.row (.order id) = some o' ∧
    o.paymentStatus = .paid ∧ o'.paymentStatus = .paid ∧ o'.evidence = o.evidence ∧
    ∀ url, o.paymentProofUrl = some url → uploaded url = true →
      ∀ later, w'.log = later ++ w.log → ¬ DeletedIn later url

theorem paid_of_confirmed (h : ProofTrace (World.initial db) w) {id : Id}
    (hconfirmed : .confirmManual id ∈ committed w.log) :
    ∃ o, w.db.row (.order id) = some o ∧ o.paymentStatus = .paid := by
  obtain ⟨v, hguard, hrel⟩ := evidence_discipline.stands (evidence_good db) h _ hconfirmed
  obtain ⟨o, rfl⟩ := Option.isSome_iff_exists.1 hguard
  obtain ⟨o', ho', hsame⟩ := hrel _ rfl
  exact ⟨o', ho', (hsame rfl).1⟩

theorem evidence_trace (h : ProofTrace (World.initial db) w) (hlater : ProofTrace w w') {id : Id}
    {o : Order} (ho : w.db.row (.order id) = some o) (hpaid : o.paymentStatus = .paid) :
    EvidenceKept id w w' := by
  have htidy : w.Tidy := World.Trace.tidy (World.initial_tidy db) h
  have hinv : evidenceRule.discipline.Inv w :=
    evidence_discipline.inv (World.initial_tidy db) (Discipline.inv_initial (evidence_good db)) h
  obtain ⟨o', ho', hrel⟩ := evidence_discipline.rel htidy hinv hlater (.order id) o ho
  obtain ⟨hpaid', hsame⟩ := hrel hpaid
  refine ⟨o, o', ho, ho', hpaid, hpaid', hsame, fun url hurl hupload => ?_⟩
  -- by induction on the steps between the two
  clear ho' hrel hpaid' hsame
  induction hlater with
  | refl =>
      intro later hlog
      rw [List.self_eq_append_left.1 hlog]
      exact fun ⟨_, hmem, _⟩ => nomatch hmem
  | @tail v v' htr hm ih =>
      obtain ⟨j, r, e, hm⟩ := hm
      obtain ⟨earlier, hearlier⟩ := World.Trace.log_suffix htr
      intro later hlog
      rw [hm.act.log_eq, ← hearlier, ← List.cons_append] at hlog
      rw [← List.append_cancel_right hlog]
      rintro ⟨entry, hmem, hdelete⟩
      rcases List.mem_cons.1 hmem with rfl | hmem
      · obtain ⟨o₁, ho₁, hrel₁⟩ := evidence_discipline.rel htidy hinv htr (.order id) o ho
        obtain ⟨hpaid₁, hsame₁⟩ := hrel₁ hpaid
        exact keeps_file (World.Trace.tidy htidy htr) (evidence_discipline.inv htidy hinv htr) hm ho₁ hpaid₁
          ((congrArg Prod.fst hsame₁).trans hurl) hupload hdelete
      · exact ih earlier hearlier.symm ⟨entry, hmem, hdelete⟩

/-- **Confirmed evidence stays.** In every run of submissions, confirmations and
rejections of proofs in which no submission and no rejection writes a paid order,
and no upload is deleted that is the proof of another paid order, an order whose
payment was confirmed stays paid, keeps its proof and its reference, and its
upload is not deleted. -/
theorem evidence_stays {s t : StoreSystem}
    (hrun : Runs (Request.handlesProof ·) (sparesEvidence · · · ·) (System.initial db) s)
    (hlater : Runs (Request.handlesProof ·) (sparesEvidence · · · ·) s t) {id : Id}
    (hconfirmed : .confirmManual id ∈ committed s.world.log) :
    EvidenceKept id s.world t.world := by
  have htrace : ProofTrace (World.initial db) s.world := trace_of_runs handler_proofs hrun
  have hs := (Traced.trace handler_proofs (System.initial_traced db) hrun).2
  obtain ⟨o, ho, hpaid⟩ := paid_of_confirmed htrace hconfirmed
  exact evidence_trace htrace (Traced.trace handler_proofs hs hlater).1 ho hpaid

/-- An order that was cancelled is not confirmed. -/
example : (StoreSystem.play Request.handlesProof sparesEvidence (System.initial
    (storeWith Tenant.plain { Order.fresh .zelle 1000 with status := .cancelled }))
    (arrive 0 (.confirmZellePayment 0 0) 2)).map (StoreSystem.status · 0) =
      some (some .cancelled) := by
  decide +kernel

/-- A Zelle order with an uploaded screenshot that nobody has looked at yet. -/
def proofOrder : Order :=
  { Order.fresh .zelle 1000 with paymentProofUrl := some "/uploads/0/proof.webp" }

/-- Whether the payment of an order was confirmed, and the proof it has. -/
def StoreSystem.proof (s : StoreSystem) (id : Id) : Bool × Option (Option String) :=
  ((committed s.world.log).any fun u => match u with
      | .confirmManual id' => id' == id
      | _ => false,
    (s.world.db.row (.order id)).map fun o : Order => o.paymentProofUrl)

theorem confirmed_of_proof {s : StoreSystem} {id : Id} {v : Option (Option String)}
    (h : s.proof id = (true, v)) : .confirmManual id ∈ committed s.world.log := by
  obtain ⟨u, hu, hmatch⟩ := List.any_eq_true.1 (congrArg Prod.fst h)
  split at hmatch
  · rwa [eq_of_beq hmatch] at hu
  · cases hmatch

/-- The merchant confirms a payment; a new submission is refused. -/
theorem evidence_stays_refused : ∃ s t : StoreSystem,
    s.proof 0 = (true, some (some "/uploads/0/proof.webp")) ∧ EvidenceKept 0 s.world t.world := by
  obtain ⟨s, t, hs, ht, hproof, -⟩ := System.exists_runs_of_play handler Request.handlesProof
    sparesEvidence (System.initial (storeWith Tenant.plain proofOrder))
    (arrive 0 (.confirmZellePayment 0 0) 5)
    (arrive 1 (.submitPaymentProof 0 0 "/uploads/0/other.webp" true none) 2)
    (StoreSystem.proof · 0) (StoreSystem.proof · 0)
    (by decide +kernel : _ = some ((true, some (some "/uploads/0/proof.webp")),
      (true, some (some "/uploads/0/proof.webp"))))
  exact ⟨s, t, hproof, evidence_stays hs ht (confirmed_of_proof hproof)⟩

/-- A confirmed payment is rejected: its proof is cleared. -/
theorem evidence_lost : ¬ ∀ (db : Database) (s t : StoreSystem) (id : Id),
    Runs (Request.handlesProof ·) (anyOrder · · · ·) (System.initial db) s →
    Runs (Request.handlesProof ·) (anyOrder · · · ·) s t →
    .confirmManual id ∈ committed s.world.log → EvidenceKept id s.world t.world := by
  intro hall
  obtain ⟨s, t, hs, ht, hproof, hlost⟩ := System.exists_runs_of_play handler Request.handlesProof
    anyOrder (System.initial (storeWith Tenant.plain proofOrder))
    (arrive 0 (.confirmZellePayment 0 0) 5) (arrive 1 (.rejectZellePayment 0 0) 4)
    (StoreSystem.proof · 0) (StoreSystem.proof · 0)
    (by decide +kernel : _ = some ((true, some (some "/uploads/0/proof.webp")),
      (true, some none)))
  obtain ⟨o, o', ho, ho', -, -, hsame, -⟩ := hall _ s t 0 hs ht (confirmed_of_proof hproof)
  have hbefore := congrArg Prod.snd hproof
  have hafter := congrArg Prod.snd hlost
  rw [StoreSystem.proof, ho, Option.map_some, Option.some.injEq] at hbefore
  rw [StoreSystem.proof, ho', Option.map_some, Option.some.injEq] at hafter
  have hurl : o'.paymentProofUrl = o.paymentProofUrl := congrArg Prod.fst hsame
  rw [hbefore, hafter] at hurl
  cases hurl

end WhatStore
