import WhatStore.Safety.Links
import WhatStore.Protocol.Redemption

/-!
# Redeeming links

A revoked delivery stays revoked and none of its links can be redeemed. A grant
is downloaded at most as often as its quota says, and as often again after each
new token, and neither an expired nor a superseded token is redeemed.
-/

namespace WhatStore

open ReadCommitted

def KeepingFiles : Protocol shop Request := fun r h e =>
  Among (Request.keepsFiles ·) r h e ∧ Redeeming r h e

/-- The runs in which no file is deleted and no random name comes twice. -/
abbrev LinkRuns (db : Database) : StoreSystem → StoreSystem → Prop :=
  Runs (Request.keepsFiles ·) (freshNames db · · · ·)

theorem handler_keepingFiles (r : Request) (hr : r.keepsFiles = true) :
    (handler r).Follows (KeepingFiles r) :=
  (handler_among r hr).and (handler_redeems r)

abbrev LinkTrace (db : Database) : StoreWorld → StoreWorld → Prop :=
  World.Trace KeepingFiles fun w i r e => freshNames db w i r e = true

variable {db : Database} {s t : StoreSystem} {w w' : StoreWorld}

theorem linkTrace_of_runs (hs : LinkRuns db (System.initial db) s) :
    LinkTrace db (World.initial db) s.world ∧ Traced KeepingFiles s :=
  Traced.trace handler_keepingFiles (System.initial_traced db) hs

theorem keepsLinks (hdb : DistinctNames db) :
    KeepsLinks KeepingFiles (fun w i r e => freshNames db w i r e = true) db where
  lawful _ _ _ h := h.1
  fresh _ _ _ _ h := h
  distinct := hdb

theorem owns_of_eval (hdb : DistinctNames db) (h : LinkTrace db (World.initial db) w) {token : Id}
    {x : GrantToRedeem} (hx : Query.eval (.grantByToken (hashDownloadToken token)) w.db = some x) :
    w.db.row (.grant x.id) = some x.grant ∧
      linkNames.Owns db w.log (.grant x.id) (token, some x.grant.expiresAt) := by
  obtain ⟨hrow, hhash⟩ := eval_grantByToken hx
  refine ⟨hrow, ((keepsLinks hdb).named h).rows.db (.grant x.id) x.grant _ hrow ?_⟩
  rw [show token = x.grant.tokenHash.ofToken by rw [hhash, ofToken_hashDownloadToken]]
  rfl

/-- A call that returns has looked its token up after it began: it found the
grant of the token, and found it alive. -/
theorem redeemed_grant (hdb : DistinctNames db) (h : LinkTrace db (World.initial db) w)
    (h' : LinkTrace db w w') {i : ℕ} (hidle : w.own i = []) {token : Id} {tx : List Update}
    (hret : (⟨i, .redeem token, .returned tx⟩ : Entry shop Request) ∈ w'.log) {g : Id}
    {expiresAt : Option Time} (howns : linkNames.Owns db w'.log (.grant g) (token, expiresAt)) :
    ∃ v x status paymentStatus time, LinkTrace db w v ∧ LinkTrace db v w' ∧
      Query.eval (.grantByToken (hashDownloadToken token)) v.db = some x ∧ x.id = g ∧
        some x.grant.expiresAt = expiresAt ∧ x.delivery = some (status, paymentStatus) ∧
          .call .now time ∈ w'.own i ∧ deadLink x.grant status paymentStatus time = none := by
  obtain ⟨v, x, status, pay, time, hv, hvw, hx, hdelivery, htime, halive⟩ :=
    redeemed_found (fun _ _ _ h => h.2) (World.Trace.tidy (World.initial_tidy db) h) h' hidle hret
  have hfound := (owns_of_eval hdb (h.trans hv) hx).2.mono hvw.log_suffix
  obtain ⟨hkey, hmark⟩ := ((keepsLinks hdb).named (h.trans h')).unique _ _ _ _ hfound howns rfl
  cases hkey
  exact ⟨v, x, status, pay, time, hv, hvw, hx, rfl, congrArg Prod.snd hmark, hdelivery, htime, halive⟩

/-! ## Revocation -/

theorem revoked_kept (hdb : DistinctNames db) (h : LinkTrace db (World.initial db) w)
    (h' : LinkTrace db w w') {orderId : Id} {d : DigitalDelivery}
    (hd : w.db.row (.delivery orderId) = some d) (hrevoked : d.status = .revoked) :
    ∃ d', w'.db.row (.delivery orderId) = some d' ∧ d'.id = d.id ∧ d'.status = .revoked := by
  obtain ⟨d', hd', hsame⟩ := (keepsLinks hdb).rel h h' (.delivery orderId) d hd
  exact ⟨d', hd', hsame.id, hsame.revoked hrevoked⟩

/-- A revocation in the history of a delivery shows in its row. -/
def RevokedIn : (k : Key) → List Update → Option (Row k) → Prop
  | .delivery orderId, us, v => ∀ time reason, Update.revokeDelivery orderId time reason ∈ us →
      ∃ d, v = some d ∧ d.status = .revoked
  | _, _, _ => True

theorem revokedIn_cons {orderId : Id} {u : Update} {us : List Update} {v v' : Option DigitalDelivery}
    (hI : RevokedIn (.delivery orderId) us v) (hmove : LinkMove (.delivery orderId) v v')
    (hu : ∀ time reason, Update.revokeDelivery orderId time reason ≠ u) :
    RevokedIn (.delivery orderId) (u :: us) v' := by
  intro time reason hmem
  rcases List.mem_cons.1 hmem with heq | hmem
  · exact absurd heq (hu time reason)
  · obtain ⟨d, hd, hrevoked⟩ := hI time reason hmem
    obtain ⟨d', hd', hsame⟩ := hmove d hd
    exact ⟨d', hd', hsame.revoked hrevoked⟩

theorem revoked_of_committed (hdb : DistinctNames db) (h : LinkTrace db (World.initial db) w)
    {orderId : Id} {time : Time} {reason : String} (hu : Update.revokeDelivery orderId time reason ∈ committed w.log) :
    ∃ d, w.db.row (.delivery orderId) = some d ∧ d.status = .revoked := by
  have hrows := h.rows (I := RevokedIn) (fun k => by cases k <;> simp [RevokedIn]) ?_
    (.delivery orderId)
  · exact hrows time reason (List.mem_filter.2 ⟨hu, by simp⟩)
  intro w i r u w' hw hm hguard us hI
  have hmove := ((keepsLinks hdb).respects hw hm hguard).rel
  cases u with
  | revokeDelivery id now why =>
      obtain ⟨d, hd⟩ := Option.isSome_iff_exists.1 hguard
      exact fun _ _ _ => ⟨_, congrArg (Option.map _) hd, rfl⟩
  | insertDelivery => exact revokedIn_cons hI hmove (by simp)
  | noteDelivery => exact revokedIn_cons hI hmove (by simp)
  | markSent => exact revokedIn_cons hI hmove (by simp)
  | markFailed => exact revokedIn_cons hI hmove (by simp)
  | take row n => cases row <;> trivial
  | give row n => cases row <;> trivial
  | _ => trivial

/-- **Revocation is final.** Once the revocation of a delivery is committed, it
stays revoked, and no call that starts later redeems a token that was ever given
to one of its grants. -/
theorem revocation_final (hdb : DistinctNames db) (hs : LinkRuns db (System.initial db) s)
    (ht : LinkRuns db s t) {orderId : Id}
    (hrevoked : (∃ time reason, Update.revokeDelivery orderId time reason ∈ committed s.world.log) ∨
      ∃ d, s.world.db.row (.delivery orderId) = some d ∧ d.status = .revoked) :
    ∃ d, s.world.db.row (.delivery orderId) = some d ∧ d.status = .revoked ∧
      (∃ d', t.world.db.row (.delivery orderId) = some d' ∧ d'.id = d.id ∧ d'.status = .revoked) ∧
      ∀ id g token expiresAt, t.world.db.row (.grant id) = some g → g.deliveryId = d.id →
        linkNames.Owns db t.world.log (.grant id) (token, expiresAt) →
        ∀ i tx, s.proc i = .idle → ⟨i, .redeem token, .returned tx⟩ ∉ t.world.log := by
  obtain ⟨hws, hts⟩ := linkTrace_of_runs hs
  obtain ⟨hst, -⟩ := Traced.trace handler_keepingFiles hts ht
  obtain ⟨d, hd, hstatus⟩ : ∃ d, s.world.db.row (.delivery orderId) = some d ∧
      d.status = .revoked := by
    rcases hrevoked with ⟨time, reason, hu⟩ | hd
    · exact revoked_of_committed hdb hws hu
    · exact hd
  refine ⟨d, hd, hstatus, revoked_kept hdb hws hst hd hstatus, ?_⟩
  intro id g token expiresAt hg hdelivery howns i tx hidle hret
  obtain ⟨v, x, status, pay, time, hsv, hvt, hx, rfl, -, hxd, -, halive⟩ :=
    redeemed_grant hdb hws hst (hts.idle i hidle) hret howns
  have hwv := hws.trans hsv
  -- the grant found is the one of the delivery that was revoked
  obtain ⟨g', hg', hsame⟩ := (keepsLinks hdb).rel hwv hvt (.grant x.id) _ (owns_of_eval hdb hwv hx).1
  cases hg.symm.trans hg'
  obtain ⟨o, d₁, hd₁, hid₁, hstatus₁⟩ := eval_grantByToken_delivery hx hxd
  obtain ⟨d₂, hd₂, hid₂, hstatus₂⟩ := revoked_kept hdb hws hsv hd hstatus
  have hnamed := (keepsLinks hdb).named hwv
  have heq : d₁.id = d₂.id := by rw [hid₁, hid₂, ← hdelivery, hsame.deliveryId]
  obtain ⟨hkey, -⟩ := hnamed.unique (.delivery o) (.delivery orderId) (d₁.id, none) (d₂.id, none)
    (hnamed.rows.db _ d₁ _ hd₁ rfl) (hnamed.rows.db _ d₂ _ hd₂ rfl) heq
  cases hkey
  cases hd₁.symm.trans hd₂
  rw [deadLink, ← hstatus₁, hstatus₂] at halive
  cases hreject : grantRejection x.grant time <;> rw [hreject] at halive <;> cases halive

/-- The delivered order is cancelled, and the link that was mailed is tried. -/
theorem revocation_final_cancelled : ∃ s t : StoreSystem,
    s.deliveryStatus 0 = some (50, .revoked) ∧ t.outcome 1 = some false ∧
      (∃ d, t.world.db.row (.delivery 0) = some d ∧ d.id = 50 ∧ d.status = .revoked) ∧
      ∀ tx, ⟨1, .redeem 60, .returned tx⟩ ∉ t.world.log := by
  obtain ⟨s, t, hs, ht, hrevoked, hend⟩ := System.exists_runs_of_play handler Request.keepsFiles
    (freshNames deliveredStore) (System.initial deliveredStore)
    (arrive 0 (.updateStatus 0 0 .cancelled true) 11) (arrive 1 (.redeem 60) 4)
    (fun s => (StoreSystem.deliveryStatus s 0, StoreSystem.isIdle s 1))
    (fun t => (StoreSystem.outcome t 1, (t.world.db.row (.grant 0)).map DownloadGrant.deliveryId))
    (by decide +kernel : _ = some ((some (50, DeliveryStatus.revoked), true), (some false, some 50)))
  obtain ⟨hstatus, hidle⟩ := Prod.mk.inj hrevoked
  obtain ⟨hout, hgrant⟩ := Prod.mk.inj hend
  obtain ⟨d, hd, hdelivery⟩ := Option.map_eq_some_iff.1 hstatus
  obtain ⟨hid, hrow⟩ := Prod.mk.inj hdelivery
  obtain ⟨d', hd', -, ⟨d'', hd'', hid'', hrow''⟩, hdead⟩ :=
    revocation_final deliveredStore_distinct hs ht (.inr ⟨d, hd, hrow⟩)
  cases hd.symm.trans hd'
  obtain ⟨g, hg, hdel⟩ := Option.map_eq_some_iff.1 hgrant
  refine ⟨s, t, hstatus, hout, ⟨d'', hd'', hid''.trans hid, hrow''⟩, ?_⟩
  intro tx
  exact hdead 0 g 60 (some 1000) hg (hdel.trans hid.symm) (.inl ⟨sentGrant, rfl, rfl⟩) 1 tx
    (idle_of_isIdle hidle)

/-! ## Quotas -/

/-- The update takes a download from the grant `id`. -/
def Update.takesFrom (id : Id) : Update → Bool
  | .takeDownload id' _ _ => id' == id
  | _ => false

/-- The update gives the grant `id` a new token. -/
def Update.mintsFor (id : Id) : Update → Bool
  | .mintGrant id' _ _ => id' == id
  | _ => false

/-- How many downloads were taken from the grant `id`. -/
def downloads (id : Id) (us : List Update) : Nat := us.countP (Update.takesFrom id)

def MintFree (id : Id) (us : List Update) : Prop := ∀ u ∈ us, u.mintsFor id = false

/-- The row of a grant and its history: the count says how many downloads were
taken since the latest token, and no token was used more often than the quota. -/
structure Quota (id : Id) (us : List Update) (g : DownloadGrant) : Prop where
  within : g.downloadCount ≤ g.maxDownloads
  latest : ∀ run earlier, us = run ++ earlier → MintFree id run → downloads id run ≤ g.downloadCount
  each : ∀ later run earlier, us = later ++ (run ++ earlier) → MintFree id run →
    downloads id run ≤ g.maxDownloads

theorem Quota.nil {id : Id} {g : DownloadGrant} (hg : g.downloadCount ≤ g.maxDownloads) :
    Quota id [] g where
  within := hg
  latest run earlier hsplit _ := by
    rw [(List.append_eq_nil_iff.1 hsplit.symm).1]
    exact Nat.zero_le _
  each later run earlier hsplit _ := by
    have hrest := (List.append_eq_nil_iff.1 hsplit.symm).2
    rw [(List.append_eq_nil_iff.1 hrest).1]
    exact Nat.zero_le _

theorem downloads_cons (id : Id) (u : Update) (us : List Update) :
    downloads id (u :: us) = downloads id us + downloads id [u] := by
  rw [downloads, downloads, downloads, List.countP_cons, List.countP_singleton]

theorem Quota.cons {id : Id} {u : Update} {us : List Update} {g g' : DownloadGrant}
    (hq : Quota id us g) (hmax : g'.maxDownloads = g.maxDownloads)
    (hwithin : g'.downloadCount ≤ g'.maxDownloads)
    (hcount : u.mintsFor id = false → g.downloadCount + downloads id [u] ≤ g'.downloadCount) :
    Quota id (u :: us) g' := by
  have hlatest : ∀ run earlier, u :: us = run ++ earlier → MintFree id run →
      downloads id run ≤ g'.downloadCount := by
    intro run earlier hsplit hfree
    cases run with
    | nil => exact Nat.zero_le _
    | cons u' run =>
        rw [List.cons_append, List.cons.injEq] at hsplit
        obtain ⟨rfl, hus⟩ := hsplit
        have hrun := hq.latest run earlier hus fun v hv => hfree v (List.mem_cons_of_mem _ hv)
        have hu := hcount (hfree u List.mem_cons_self)
        rw [downloads_cons]
        omega
  refine ⟨hwithin, hlatest, ?_⟩
  intro later run earlier hsplit hfree
  cases later with
  | nil => exact (hlatest run earlier hsplit hfree).trans hwithin
  | cons u' later =>
      rw [List.cons_append, List.cons.injEq] at hsplit
      rw [hmax]
      exact hq.each later run earlier hsplit.2 hfree

/-- The quota of a grant that is there; one that is not has no history. -/
def QuotaRow : (k : Key) → List Update → Option (Row k) → Prop
  | .grant id, us, v => (v = none → us = []) ∧ ∀ g, v = some g → Quota id us g
  | _, _, _ => True

theorem quotaRow_map {id : Id} {u : Update} {us : List Update} {v : Option DownloadGrant}
    {f : DownloadGrant → DownloadGrant} (hI : QuotaRow (.grant id) us v) (hv : v.isSome = true)
    (hf : ∀ g, v = some g → Quota id us g → Quota id (u :: us) (f g)) :
    QuotaRow (.grant id) (u :: us) (v.map f) := by
  obtain ⟨g, rfl⟩ := Option.isSome_iff_exists.1 hv
  refine ⟨nofun, ?_⟩
  rintro _ ⟨⟩
  exact hf g rfl (hI.2 g rfl)

theorem quotaRow_write (hdb : DistinctNames db) (h : LinkTrace db (World.initial db) w) {i : ℕ}
    {r : Request} {u : Update}
    (hm : w.Move KeepingFiles (fun w i r e => freshNames db w i r e = true) i r (.update u true) w')
    (hguard : u.guard ((w.view i).row u.key) = true) (us : List Update)
    (hI : QuotaRow u.key us ((w.view i).row u.key)) :
    QuotaRow u.key (u :: us) (u.change ((w.view i).row u.key)) := by
  obtain ⟨⟨hr, hlaw⟩, -⟩ := hm.lawful
  have hmove := ((keepsLinks hdb).respects h hm hguard).rel
  cases u with
  | insertGrant id g =>
      have hus : us = [] := hI.1 (Option.isNone_iff_eq_none.1 hguard)
      subst hus
      refine ⟨nofun, ?_⟩
      rintro _ ⟨⟩
      exact (Quota.nil hlaw.2.1).cons rfl hlaw.2.1 fun _ => le_refl _
  | revokeGrant id now =>
      refine quotaRow_map hI (Option.isSome_of_any hguard) fun g _ hq => ?_
      exact hq.cons rfl hq.within fun _ => le_refl _
  | mintGrant id tokenHash expiresAt =>
      refine quotaRow_map hI hguard fun g _ hq => ?_
      exact hq.cons rfl (Nat.zero_le _) fun hmint => by simp [Update.mintsFor] at hmint
  | takeDownload id limit now =>
      -- the quota the call has read is still that of the grant
      obtain ⟨-, g₀, hsaw, rfl⟩ := hlaw
      refine quotaRow_map hI (Option.isSome_of_any hguard) fun g hg hq => ?_
      obtain ⟨g', hg', hsame⟩ := (((keepsLinks hdb).inv h).knows i (.grant id) _ hsaw).2 g₀ rfl
      cases hg.symm.trans hg'
      obtain ⟨_, hrow, htake⟩ := (Option.any_eq_true _ _).1 hguard
      cases hg.symm.trans hrow
      simp only [Bool.and_eq_true, decide_eq_true_eq] at htake
      refine hq.cons rfl ?_ fun _ => ?_
      · rw [← hsame.maxDownloads] at htake
        exact htake.2
      · simp [downloads, Update.takesFrom]
  | deleteGrant id => exact absurd hlaw (Request.not_dropsFiles hr)
  | take row n => cases row <;> trivial
  | give row n => cases row <;> trivial
  | _ => trivial

theorem downloads_rowLog (id : Id) (us : List Update) :
    downloads id (rowLog (S := shop) (.grant id) us) = downloads id us := by
  rw [downloads, downloads, rowLog, List.countP_filter]
  refine List.countP_congr fun u _ => ?_
  cases u with
  | takeDownload id' limit now => simp [Update.takesFrom, shop]
  | take row n => cases row <;> simp [Update.takesFrom]
  | give row n => cases row <;> simp [Update.takesFrom]
  | _ => simp [Update.takesFrom]

/-- The quota of a committed grant, with everything committed so far. -/
theorem quota_committed (hdb : DistinctNames db) (hquota : ∀ id g, db.row (.grant id) = some g →
    g.downloadCount ≤ g.maxDownloads) (h : LinkTrace db (World.initial db) w) {id : Id}
    {g : DownloadGrant} (hg : w.db.row (.grant id) = some g) :
    g.downloadCount ≤ g.maxDownloads ∧ ∀ later run earlier,
      committed w.log = later ++ (run ++ earlier) → MintFree id run →
        downloads id run ≤ g.maxDownloads := by
  have hrows := h.rows (I := QuotaRow) ?_
    (fun _ _ _ _ _ hw hm => quotaRow_write hdb hw hm) (.grant id)
  · have hq := hrows.2 g hg
    refine ⟨hq.within, fun later run earlier hsplit hfree => ?_⟩
    rw [← downloads_rowLog]
    refine hq.each (rowLog (S := shop) (.grant id) later) _ (rowLog (S := shop) (.grant id) earlier) ?_
      fun u hu => hfree u (List.mem_of_mem_filter hu)
    rw [hsplit, rowLog_append, rowLog_append]
  · intro k
    cases k with
    | grant id => exact ⟨fun _ => rfl, fun g hg => Quota.nil (hquota id g hg)⟩
    | _ => trivial

/-! ## Dead tokens -/

/-- A call whose clock is always past the expiry of its token does not redeem it. -/
theorem expired_not_redeemed (hdb : DistinctNames db) (h : LinkTrace db (World.initial db) w) {id token : Id}
    {expiresAt : Time} (howns : linkNames.Owns db w.log (.grant id) (token, some expiresAt)) {i : ℕ}
    (hlate : ∀ time, .call .now time ∈ w.own i → expiresAt ≤ time) {tx : List Update} :
    (⟨i, .redeem token, .returned tx⟩ : Entry shop Request) ∉ w.log := by
  intro hret
  obtain ⟨v, x, status, pay, time, -, -, -, -, hexp, -, htime, halive⟩ :=
    redeemed_grant hdb .refl h rfl hret howns
  cases hexp
  have hdead : ∃ reason, grantRejection x.grant time = some reason := by
    rw [grantRejection]
    split
    · exact ⟨_, rfl⟩
    · rw [if_pos (hlate time htime)]
      exact ⟨_, rfl⟩
  obtain ⟨reason, hreason⟩ := hdead
  rw [deadLink, hreason] at halive
  cases halive

/-- A call that starts after its token was superseded does not redeem it. -/
theorem superseded_not_redeemed (hdb : DistinctNames db) {v : StoreWorld}
    (hv : LinkTrace db (World.initial db) v) (hvw : LinkTrace db v w) (hw : LinkTrace db w w')
    {id : Id} {g g' : DownloadGrant} (hg : v.db.row (.grant id) = some g)
    (hg' : w.db.row (.grant id) = some g') (hnew : g'.tokenHash ≠ g.tokenHash) {i : ℕ}
    (hidle : w.own i = []) {token : Id} (htoken : hashDownloadToken token = g.tokenHash)
    {tx : List Update} : (⟨i, .redeem token, .returned tx⟩ : Entry shop Request) ∉ w'.log := by
  intro hret
  have hnames := (keepsLinks hdb).names
  have hvw' : LinkTrace db (World.initial db) w := hv.trans hvw
  obtain ⟨u, x, status, pay, time, hu, -, hx, -⟩ :=
    redeemed_found (fun _ _ _ h => h.2) (World.Trace.tidy (World.initial_tidy db) hvw') hw hidle hret
  obtain ⟨hrow, hhash⟩ := eval_grantByToken hx
  have htoken' : g.tokenHash.ofToken = token := by rw [← htoken, ofToken_hashDownloadToken]
  have hbears : linkNames.Bears v.db (.grant id) (token, some g.expiresAt) :=
    ⟨g, hg, by rw [← htoken']; rfl⟩
  have howns := (hnames.named hv).rows.db (.grant id) g _ hg rfl
  rw [htoken'] at howns
  have hgone : ¬ ∃ m, linkNames.Bears w.db (.grant id) m ∧ m.1 = token := by
    rintro ⟨m, ⟨y, hy, hm⟩, hname⟩
    cases hg'.symm.trans hy
    cases hm
    exact hnew (by rw [← htoken, ← hname]; rfl)
  have hfaded := hnames.faded hvw' (howns.mono hvw.log_suffix)
    (hnames.superseded hv hvw hbears hgone) hu
  refine hfaded.db (.grant x.id) x.grant _ hrow rfl ?_
  exact (congrArg TokenHash.ofToken hhash).trans (ofToken_hashDownloadToken token)

/-- **Download quota.** In every committed state no grant was downloaded more
often than its quota, and between two new tokens no more downloads are committed
than the quota. No call redeems a token that has expired by its clock, and none
that starts after a newer token was committed redeems the older one. -/
theorem download_quota (hdb : DistinctNames db) (hquota : ∀ id g, db.row (.grant id) = some g →
    g.downloadCount ≤ g.maxDownloads) (hs : LinkRuns db (System.initial db) s) :
    (∀ id g, s.world.db.row (.grant id) = some g → g.downloadCount ≤ g.maxDownloads ∧
      ∀ later run earlier, committed s.world.log = later ++ (run ++ earlier) →
        MintFree id run → downloads id run ≤ g.maxDownloads) ∧
    (∀ id token expiresAt, linkNames.Owns db s.world.log (.grant id) (token, some expiresAt) →
      ∀ i, (∀ time, .call .now time ∈ s.world.own i → expiresAt ≤ time) →
        ∀ tx, ⟨i, .redeem token, .returned tx⟩ ∉ s.world.log) ∧
    ∀ t u, LinkRuns db s t → LinkRuns db t u → ∀ id g g', s.world.db.row (.grant id) = some g →
      t.world.db.row (.grant id) = some g' → g'.tokenHash ≠ g.tokenHash →
        ∀ i token, t.proc i = .idle → hashDownloadToken token = g.tokenHash →
          ∀ tx, ⟨i, .redeem token, .returned tx⟩ ∉ u.world.log := by
  obtain ⟨hws, hts⟩ := linkTrace_of_runs hs
  refine ⟨fun id g hg => quota_committed hdb hquota hws hg, ?_, ?_⟩
  · intro id token expiresAt howns i hlate tx
    exact expired_not_redeemed hdb hws howns hlate
  · intro t u ht hu id g g' hg hg' hnew i token hidle htoken tx
    obtain ⟨hst, htt⟩ := Traced.trace handler_keepingFiles hts ht
    obtain ⟨htu, -⟩ := Traced.trace handler_keepingFiles htt hu
    exact superseded_not_redeemed hdb hws hst htu hg hg' hnew (htt.idle i hidle) htoken

/-- The token of the grant 0 and how often it was used, in the committed state. -/
def StoreSystem.token (s : StoreSystem) : Option (Id × Nat) :=
  (s.world.db.row (.grant 0)).map fun g : DownloadGrant => (g.tokenHash.ofToken, g.downloadCount)

/-- A file is downloaded once, its links are mailed again, and the first link is
tried. -/
theorem download_quota_resent : ∃ t u : StoreSystem, t.token = some (70, 0) ∧
    t.outcome 0 = some true ∧ u.outcome 2 = some false ∧
      (∀ id g, t.world.db.row (.grant id) = some g → g.downloadCount ≤ g.maxDownloads) ∧
        ∀ tx, ⟨2, .redeem 60, .returned tx⟩ ∉ u.world.log := by
  obtain ⟨t, u, ht, hu, hsent, hend⟩ := System.exists_runs_of_play handler Request.keepsFiles
    (freshNames deliveredStore) (System.initial deliveredStore)
    (arrive 0 (.redeem 60) 7 ++ arriveWith { fresh := 70 } 1 (.processDelivery 50 true) 11)
    (arrive 2 (.redeem 60) 3)
    (fun s => (StoreSystem.token s, StoreSystem.outcome s 0, StoreSystem.isIdle s 2))
    (fun t => StoreSystem.outcome t 2)
    (by decide +kernel : _ = some ((some (70, 0), some true, true), some false))
  obtain ⟨htoken, hrest⟩ := Prod.mk.inj hsent
  obtain ⟨hout, hidle⟩ := Prod.mk.inj hrest
  have hrows : ∀ k, QuotaRow k [] (deliveredStore.row k) := by
    refine Store.forall_set (Store.forall_set (Store.forall_set (Store.forall_set
      (Store.forall_set (fun k => ?_) trivial) trivial) trivial) ?_) trivial
    · cases k <;> simp [QuotaRow, Store.empty]
    · exact ⟨by simp, fun g hg => Option.some.inj hg ▸ Quota.nil (Nat.zero_le _)⟩
  have hquota : ∀ id g, deliveredStore.row (.grant id) = some g →
      g.downloadCount ≤ g.maxDownloads := fun id g hg => ((hrows (.grant id)).2 g hg).within
  obtain ⟨g, hg, hnew⟩ := Option.map_eq_some_iff.1 htoken
  obtain ⟨hhash, -⟩ := Prod.mk.inj hnew
  have hfirst := download_quota deliveredStore_distinct hquota .refl
  have hlater := download_quota deliveredStore_distinct hquota ht
  refine ⟨t, u, htoken, hout, hend, fun id g hg => (hlater.1 id g hg).1, fun tx => ?_⟩
  refine hfirst.2.2 t u ht hu 0 sentGrant g rfl hg ?_ 2 60 (idle_of_isIdle hidle) rfl tx
  intro heq
  rw [heq] at hhash
  cases hhash

end WhatStore
