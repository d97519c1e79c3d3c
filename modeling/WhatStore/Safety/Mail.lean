import WhatStore.Safety.Redemption
import WhatStore.Protocol.Mail

/-!
# Sent deliveries

The tokens of a delivery that is marked sent should be in the mailbox of the
buyer. A run of the delivery processor mints new tokens before it mails them,
and on a delivery that is sent already it leaves the status alone: from then on
the delivery is sent and its tokens are not, and when the mail fails they stay
so. The sweep looks for pending deliveries only.

Apart from such a resend, a sent delivery was mailed, in every run in which two
runs of the processor on one delivery do not cross.
-/

namespace WhatStore

open ReadCommitted

def MailedIn (log : List (Entry shop Request)) (token : Id) : Prop :=
  ∃ entry ∈ log, ∃ mail : Mail, entry.event = .call (.deliverEmail mail) (.ok true) ∧
    token ∈ mail.links.map Prod.snd

/-- The tokens of every sent delivery were mailed, since the start or before it. -/
def SentMailed (mailed : Id → Prop) (w : StoreWorld) : Prop :=
  ∀ orderId d, w.db.row (.delivery orderId) = some d → d.status = .sent →
    ∀ id g, w.db.row (.grant id) = some g → g.deliveryId = d.id →
      mailed g.tokenHash.ofToken ∨ MailedIn w.log g.tokenHash.ofToken

/-- A new token is not for a delivery that is sent. -/
def mintsUnsent (s : Database) : Update → Bool
  | .mintGrant id _ _ => (s.row (.grant id)).all fun g : DownloadGrant =>
      (deliveriesWhere s fun _ d => d.id == g.deliveryId).all fun x => x.2.status != .sent
  | _ => true

/-- A process that marks a delivery sent has itself minted the tokens its grants
carry, or finds it sent already. -/
def sendsOwn (w : StoreWorld) (i : ℕ) : Update → Bool
  | .markSent orderId id _ =>
      ((w.db.row (.delivery orderId)).any fun d : DigitalDelivery => d.status == .sent) ||
        (grantsWhere (w.view i) fun g => g.deliveryId == id).all fun x =>
          (w.own i).any fun
            | .update (.mintGrant id' tokenHash _) true => id' == x.1 && tokenHash == x.2.tokenHash
            | _ => false
  | _ => true

def sparesSent (w : StoreWorld) (i : ℕ) (_ : Request) : Event shop → Bool
  | .committed tx => tx.all fun u => mintsUnsent (w.view i) u && sendsOwn w i u
  | .returned tx => tx.all fun u => mintsUnsent (w.view i) u && sendsOwn w i u
  | _ => true

/-- The runs in which no file is deleted, no random name comes twice, and every
commit spares sent deliveries. -/
def mailSteps (db : Database) (w : StoreWorld) (i : ℕ) (r : Request) (e : Ev) : Bool :=
  freshNames db w i r e && sparesSent w i r e

def KeepingMail : Protocol shop Request := fun r h e =>
  Among (Request.keepsFiles ·) r h e ∧ Sending r h e

theorem handler_keepingMail (r : Request) (hr : r.keepsFiles = true) :
    (handler r).Follows (KeepingMail r) :=
  (handler_among r hr).and (handler_sends r)

abbrev MailTrace (db : Database) : StoreWorld → StoreWorld → Prop :=
  World.Trace KeepingMail fun w i r e => mailSteps db w i r e = true

abbrev MailMove (db : Database) (w : StoreWorld) (i : ℕ) (r : Request) (e : Ev)
    (w' : StoreWorld) : Prop :=
  w.Move KeepingMail (fun w i r e => mailSteps db w i r e = true) i r e w'

variable {db : Database} {s : StoreSystem} {w w' : StoreWorld} {i : ℕ} {r : Request} {e : Ev}

theorem keepsLinks_mail (hdb : DistinctNames db) :
    KeepsLinks KeepingMail (fun w i r e => mailSteps db w i r e = true) db where
  lawful _ _ _ h := h.1
  fresh _ _ _ _ h := (Bool.and_eq_true_iff.1 h).1
  distinct := hdb

/-- The token of a grant whose delivery a committing transaction marks sent was
mailed, or the delivery was sent before. -/
theorem markSent_mailed (h : MailTrace db (World.initial db) w) (hm : MailMove db w i r e w')
    (hend : e = .committed (w.tx i) ∨ e = .returned (w.tx i)) {orderId deliveryId : Id} {time : Time}
    (hmark : .markSent orderId deliveryId time ∈ w.tx i)
    (hown : sendsOwn w i (.markSent orderId deliveryId time) = true) {id : Id} {g : DownloadGrant}
    (hg : (w.view i).row (.grant id) = some g) (hdelivery : g.deliveryId = deliveryId) :
    (∃ d₀, w.db.row (.delivery orderId) = some d₀ ∧ d₀.status = .sent) ∨
      MailedIn w.log g.tokenHash.ofToken := by
  rcases Bool.or_eq_true_iff.1 hown with hsent | hminted
  · obtain ⟨d₀, hd₀, hstatus⟩ := (Option.any_eq_true _ _).1 hsent
    exact .inl ⟨d₀, hd₀, eq_of_beq hstatus⟩
  · -- its own mints were all mailed before it marked the delivery
    have hmem : (id, g) ∈ grantsWhere (w.view i) fun g => g.deliveryId == deliveryId :=
      mem_grantsWhere.2 ⟨hg, beq_iff_eq.2 hdelivery⟩
    obtain ⟨e', he', hmatch⟩ := List.any_eq_true.1 (List.all_eq_true.1 hminted _ hmem)
    have hmint : Minted g.tokenHash (w.own i) := by
      split at hmatch
      · next id' tokenHash expiresAt =>
          have htoken := eq_of_beq (Bool.and_eq_true_iff.1 hmatch).2
          exact ⟨id', expiresAt, htoken ▸ he'⟩
      · cases hmatch
    obtain ⟨-, earlier, -, -, hlaw⟩ := h.lawful_tx hm hmark
    obtain ⟨resend, rfl⟩ : r.delivers deliveryId := hlaw.1.2
    have hsends : SendsMailed (w.own i) (w.tx i) := by
      rcases hend with rfl | rfl <;> exact hm.lawful.2
    obtain ⟨mail, hcall, hlink⟩ := (hsends _ _ _ hmark).2 _ hmint
    obtain ⟨r', hentry⟩ := World.mem_own.1 hcall
    exact .inr ⟨_, hentry, mail, rfl, hlink⟩

theorem sentMailed_commit (hdb : DistinctNames db) {mailed : Id → Prop}
    (h : MailTrace db (World.initial db) w) (hw : SentMailed mailed w)
    (hm : MailMove db w i r e (w.commit i r e)) (hend : e = .committed (w.tx i) ∨ e = .returned (w.tx i)) :
    SentMailed mailed (w.commit i r e) := by
  intro orderId d hd hsent id g hg hdelivery
  rw [World.commit_db] at hd hg
  have L := keepsLinks_mail hdb
  have hallow : ∀ u ∈ w.tx i, mintsUnsent (w.view i) u = true ∧ sendsOwn w i u = true := by
    have hspares := (Bool.and_eq_true_iff.1 hm.allowed).2
    intro u hu
    rcases hend with rfl | rfl <;>
      exact Bool.and_eq_true_iff.1 (List.all_eq_true.1 hspares u hu)
  have hold : ∀ token, MailedIn w.log token → MailedIn (w.commit i r e).log token := by
    rintro token ⟨entry, hmem, hmail⟩
    exact ⟨entry, List.mem_cons_of_mem _ hmem, hmail⟩
  have hrowlog : ∀ {k : Key} {u}, u ∈ rowLog (S := shop) k (w.tx i) → u ∈ w.tx i :=
    fun hu => List.mem_of_mem_filter hu
  -- the delivery was sent before, or this transaction marks it sent
  have hbefore : (∃ d₀, w.db.row (.delivery orderId) = some d₀ ∧ d₀.status = .sent ∧ d₀.id = d.id) ∨
      MailedIn w.log g.tokenHash.ofToken := by
    rcases (L.change h i (.delivery orderId)).2.2 d hd |>.2 hsent with ⟨time, hmark⟩ | hbefore
    · have hmark := hrowlog hmark
      rcases markSent_mailed h hm hend hmark (hallow _ hmark).2 hg hdelivery with
        ⟨d₀, hd₀, hsent₀⟩ | hmailed
      · obtain ⟨d', hd', hsame⟩ := (L.inv h).view_rel i (.delivery orderId) d₀ hd₀
        cases hd.symm.trans hd'
        exact .inl ⟨d₀, hd₀, hsent₀, hsame.id.symm⟩
      · exact .inr hmailed
    · exact .inl hbefore
  rcases hbefore with ⟨d₀, hd₀, hsent₀, hid₀⟩ | hmailed
  · rcases (L.change h i (.grant id)).2 g hg with ⟨g', hinsert, hsame⟩ | ⟨g₀, hg₀, hsame, htoken⟩
    · have hnone := L.insertGrant_new h hd (hrowlog hinsert) (hsame.deliveryId.symm.trans hdelivery)
      rw [hnone] at hd₀
      cases hd₀
    · -- no new token for a delivery that is sent
      have hkept := htoken fun tokenHash expiresAt hmint => by
        have hunsent := (hallow _ (hrowlog hmint)).1
        rw [mintsUnsent, hg, Option.all_some] at hunsent
        have hstatus := List.all_eq_true.1 hunsent (orderId, d)
          (mem_deliveriesWhere.2 ⟨hd, beq_iff_eq.2 hdelivery.symm⟩)
        simp [hsent] at hstatus
      have hid := hsame.deliveryId.symm.trans (hdelivery.trans hid₀.symm)
      rcases hw orderId d₀ hd₀ hsent₀ id g₀ hg₀ hid with hm | hm
      · exact .inl (hkept ▸ hm)
      · exact .inr (hold _ (hkept ▸ hm))
  · exact .inr (hold _ hmailed)

theorem sentMailed_trace (hdb : DistinctNames db) {mailed : Id → Prop}
    (hstart : SentMailed mailed (World.initial db)) (h : MailTrace db (World.initial db) w) :
    SentMailed mailed w := by
  induction h with
  | refl => exact hstart
  | @tail v v' htr hm ih =>
      obtain ⟨i, r, e, hm⟩ := hm
      -- only a commit changes what is committed
      have hsame : v'.db = v.db → SentMailed mailed v' := by
        intro heq orderId d hd hsent id g hg hdelivery
        rw [heq] at hd hg
        refine (ih orderId d hd hsent id g hg hdelivery).imp_right ?_
        rintro ⟨entry, hmem, hmail⟩
        rw [MailedIn, hm.act.log_eq]
        exact ⟨entry, List.mem_cons_of_mem _ hmem, hmail⟩
      cases hact : hm.act with
      | commit => exact sentMailed_commit hdb htr ih hm (.inl rfl)
      | done => exact sentMailed_commit hdb htr ih hm (.inr rfl)
      | _ => exact hsame rfl

/-- **Sent deliveries were mailed**, in every state of every run in which no
commit brings new tokens to a delivery that is sent, or marks a delivery sent
whose tokens another process has minted. -/
theorem sent_mailed (hdb : DistinctNames db) {mailed : Id → Prop}
    (hstart : SentMailed mailed (World.initial db))
    (hrun : Runs (Request.keepsFiles ·) (mailSteps db · · · ·) (System.initial db) s) :
    SentMailed mailed s.world :=
  sentMailed_trace hdb hstart (trace_of_runs handler_keepingMail hrun)

/-- An order without a delivery is mailed nothing. -/
example : (StoreSystem.play Request.keepsFiles anyOrder
    (System.initial (storeWith Tenant.plain (.fresh .stripe 1000)))
    (arrive 0 (.processDelivery 50 false) 3)).map (StoreSystem.token ·) = some none := by
  decide +kernel

def pendingStore : Database := deliveredStore.set (.delivery 0) (some (newDelivery 50 0 0))

theorem sentMailed_of_check {mailed : Id → Bool}
    (h : ((deliveriesWhere db fun _ d => d.status == .sent).all fun x =>
      (grantsWhere db fun g => g.deliveryId == x.2.id).all fun y =>
        mailed y.2.tokenHash.ofToken) = true) :
    SentMailed (mailed · = true) (World.initial db) := by
  intro orderId d hd hsent id g hg hdelivery
  have hgrants := List.all_eq_true.1 h (orderId, d)
    (mem_deliveriesWhere.2 ⟨hd, beq_iff_eq.2 hsent⟩)
  exact .inl (List.all_eq_true.1 hgrants (id, g) (mem_grantsWhere.2 ⟨hg, beq_iff_eq.2 hdelivery⟩))

/-- The links of a new delivery are mailed. -/
theorem sent_mailed_first : ∃ s : StoreSystem, s.deliveryStatus 0 = some (50, .sent) ∧
    s.token = some (70, 0) ∧ SentMailed (fun _ => False) s.world := by
  obtain ⟨s, hs, hend⟩ := System.exists_run_of_play handler Request.keepsFiles
    (mailSteps pendingStore) (System.initial pendingStore)
    (arriveWith { fresh := 70 } 0 (.processDelivery 50 false) 11)
    (fun s => (StoreSystem.deliveryStatus s 0, StoreSystem.token s))
    (by decide +kernel : _ = some (some (50, DeliveryStatus.sent), some (70, 0)))
  obtain ⟨hstatus, htoken⟩ := Prod.mk.inj hend
  have hstart : SentMailed ((fun _ => false : Id → Bool) · = true) (World.initial pendingStore) :=
    sentMailed_of_check (by decide +kernel)
  have hmailed := sent_mailed (distinctNames_of_check (by decide +kernel)) hstart hs
  exact ⟨s, hstatus, htoken, by simpa using hmailed⟩

def Request.sendsFiles : Request → Bool
  | .confirmZellePayment _ _ => true
  | .capturePayPalOrder _ _ => true
  | .stripeWebhook _ => true
  | .mercadoPagoWebhook _ => true
  | .payPalWebhook _ => true
  | .processDelivery _ _ => true
  | .requeueUnsent => true
  | .resend _ _ => true
  | _ => false

def StoreSystem.hasMailed (s : StoreSystem) : Bool :=
  s.world.log.any fun entry => match entry.event with
    | .call (.deliverEmail _) (.ok true) => true
    | _ => false

/-- The merchant has the links of a sent delivery mailed again, and the mail
fails. The delivery is still sent, and no mail has its tokens. -/
theorem sent_unmailed : ¬ ∀ (db : Database) (mailed : Id → Prop) (s : StoreSystem),
    DistinctNames db → SentMailed mailed (World.initial db) →
    Runs (Request.sendsFiles ·) (freshNames db · · · ·) (System.initial db) s →
    SentMailed mailed s.world := by
  intro hall
  obtain ⟨s, hs, hend⟩ := System.exists_run_of_play handler Request.sendsFiles
    (freshNames deliveredStore) (System.initial deliveredStore)
    (arrive 0 (.resend 0 0) 4 ++
      arriveWith { fresh := 70, mail := .error "SMTP" } 1 (.processDelivery 50 true) 11)
    (fun s => (StoreSystem.deliveryStatus s 0, (s.world.db.row (.grant 0)).map fun g : DownloadGrant =>
      (g.deliveryId, g.tokenHash.ofToken), StoreSystem.hasMailed s))
    (by decide +kernel : _ = some (some (50, DeliveryStatus.sent), some (50, 70), false))
  obtain ⟨hstatus, hrest⟩ := Prod.mk.inj hend
  obtain ⟨hgrant, hnone⟩ := Prod.mk.inj hrest
  obtain ⟨d, hd, hdelivery⟩ := Option.map_eq_some_iff.1 hstatus
  obtain ⟨g, hg, htoken⟩ := Option.map_eq_some_iff.1 hgrant
  obtain ⟨hid, hsent⟩ := Prod.mk.inj hdelivery
  obtain ⟨hgid, hhash⟩ := Prod.mk.inj htoken
  have hstart : SentMailed ((· == 60 : Id → Bool) · = true) (World.initial deliveredStore) :=
    sentMailed_of_check (by decide +kernel)
  rcases hall deliveredStore _ s deliveredStore_distinct hstart hs 0 d hd hsent 0 g hg
    (hgid.trans hid.symm) with hmailed | ⟨entry, hmem, mail, hcall, -⟩
  · rw [hhash] at hmailed
    cases hmailed
  · have hany : StoreSystem.hasMailed s = true := by
      refine List.any_eq_true.2 ⟨entry, hmem, ?_⟩
      rw [hcall]
    rw [hnone] at hany
    cases hany

end WhatStore
