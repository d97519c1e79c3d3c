import WhatStore.ReadCommitted.Names
import WhatStore.Protocol.Corrections
import WhatStore.ReadCommitted.Schedule

/-!
# Download links

What every write of the services keeps of a delivery and its grants: a delivery
has one id and once revoked stays so, a grant stays with its delivery, file and
quota. The ids of deliveries and the tokens of grants are names that are drawn
once.

Files and products that are removed take their grants along, so the runs here
are those of all other requests.
-/

namespace WhatStore

open ReadCommitted ReadCommitted.Prog

def Request.keepsFiles : Request → Bool
  | .removeAsset _ _ _ => false
  | .removeProduct _ _ => false
  | _ => true

theorem Request.not_dropsFiles {r : Request} (hr : r.keepsFiles = true) : ¬ r.dropsFiles := by
  rintro (⟨t, p, id, rfl⟩ | ⟨t, id, rfl⟩) <;> cases hr

/-! ## Ids and tokens -/

/-- The id of a delivery, and the token of a grant with its expiry. -/
def linkNames : Naming shop (Id × Option Time) Id where
  mark
    | .delivery _, d => some (d.id, none)
    | .grant _, g => some (g.tokenHash.ofToken, some g.expiresAt)
    | _, _ => none
  gives
    | .insertDelivery _ d => some (d.id, none)
    | .insertGrant _ g => some (g.tokenHash.ofToken, some g.expiresAt)
    | .mintGrant _ tokenHash expiresAt => some (tokenHash.ofToken, some expiresAt)
    | _ => none
  name := Prod.fst
  draws
    | .uuid, a => some a
    | _, _ => none
  change u v x m hguard hchange hmark := by
    cases u with
    | insertDelivery orderId d =>
        cases hchange
        exact .inl hmark
    | insertGrant id g =>
        cases hchange
        exact .inl hmark
    | mintGrant id tokenHash expiresAt =>
        obtain ⟨g, -, rfl⟩ := Option.map_eq_some_iff.1 hchange
        exact .inl hmark
    | revokeDelivery orderId now reason =>
        obtain ⟨d, hd, rfl⟩ := Option.map_eq_some_iff.1 hchange
        exact .inr ⟨d, hd, hmark⟩
    | noteDelivery orderId id error now =>
        obtain ⟨d, hd, rfl⟩ := Option.map_eq_some_iff.1 hchange
        exact .inr ⟨d, hd, hmark⟩
    | markSent orderId id now =>
        obtain ⟨d, hd, rfl⟩ := Option.map_eq_some_iff.1 hchange
        exact .inr ⟨d, hd, hmark⟩
    | markFailed orderId id error now =>
        obtain ⟨d, hd, rfl⟩ := Option.map_eq_some_iff.1 hchange
        exact .inr ⟨d, hd, hmark⟩
    | revokeGrant id now =>
        obtain ⟨g, hg, rfl⟩ := Option.map_eq_some_iff.1 hchange
        exact .inr ⟨g, hg, hmark⟩
    | takeDownload id limit now =>
        obtain ⟨g, hg, rfl⟩ := Option.map_eq_some_iff.1 hchange
        exact .inr ⟨g, hg, hmark⟩
    | deleteGrant id => cases hchange
    | take row n => cases row <;> cases hmark
    | give row n => cases row <;> cases hmark
    | _ => cases hmark

/-- The names a database has in use are those of one row each: ids of deliveries
are their primary key, and token hashes have a unique index. -/
def DistinctNames (db : Database) : Prop := ∀ k k' m m', linkNames.Bears db k m →
  linkNames.Bears db k' m' → m.1 = m'.1 → k = k'

/-- A random name that is drawn was not drawn before and is not in use at the
start. -/
def freshNames (db : Database) (w : StoreWorld) : ℕ → Request → Ev → Bool
  | _, _, .call .uuid name =>
      (w.log.all fun entry => linkNames.drawn entry.event != some name) &&
        db.keys.all fun k => (db.row k).all fun x =>
          (linkNames.mark k x).all fun m => m.1 != name
  | _, _, _ => true

theorem fresh_of_freshNames {db : Database} {w : StoreWorld} {i : ℕ} {r : Request} {e : Ev}
    (h : freshNames db w i r e = true) : linkNames.Fresh db w.log e := by
  intro name hdrawn
  cases e with
  | call c a =>
      cases c with
      | uuid =>
          cases hdrawn
          obtain ⟨hlog, hstart⟩ := Bool.and_eq_true_iff.1 h
          constructor
          · rintro ⟨entry, hmem, hn⟩
            have := List.all_eq_true.1 hlog entry hmem
            simp [hn] at this
          · rintro k m ⟨x, hx, hm⟩
            have := List.all_eq_true.1 hstart k (db.mem_keys_of_row hx)
            rw [hx, Option.all_some, hm, Option.all_some] at this
            exact bne_iff_ne.1 this
      | _ => cases hdrawn
  | _ => cases hdrawn

/-- Every id and token that is written was drawn right before. -/
theorem drew_of_gives {r : Request} {h : List Ev} {u : Update} {m : Id × Option Time}
    (hu : Justified r h u) (hgives : linkNames.gives u = some m) : Drew m.1 h := by
  cases u with
  | insertDelivery orderId d =>
      cases hgives
      exact hu.1
  | insertGrant id g =>
      cases hgives
      obtain ⟨token, hdrew, hhash⟩ := hu.1
      rw [hhash]
      exact hdrew
  | mintGrant id tokenHash expiresAt =>
      cases hgives
      obtain ⟨token, hdrew, hhash⟩ := hu.2
      rw [hhash]
      exact hdrew
  | _ => cases hgives

theorem linkNames_kept {P : Protocol shop Request} {allow : StepCondition} {db : Database}
    (hP : ∀ r h u, P r h (.update u true) → Justified r h u)
    (hallow : ∀ w i r e, allow w i r e → freshNames db w i r e = true) (hdb : DistinctNames db) :
    linkNames.Kept P allow db where
  draws r h u m hlaw hgives := by
    have hdrew := drew_of_gives (hP r h u hlaw) hgives
    exact ⟨.call .uuid m.1, hdrew, rfl⟩
  fresh w i r e h := fresh_of_freshNames (hallow w i r e h)
  unique k k' m m' hm hm' heq := by
    cases hdb k k' m m' hm hm' heq
    obtain ⟨x, hx, hmark⟩ := hm
    obtain ⟨x', hx', hmark'⟩ := hm'
    cases hx.symm.trans hx'
    exact ⟨rfl, Option.some.inj (hmark.symm.trans hmark')⟩

/-! ## Deliveries and grants -/

/-- A delivery stays, with its id, and stays revoked once it is. -/
structure SameDelivery (d d' : DigitalDelivery) : Prop where
  id : d'.id = d.id
  revoked : d.status = .revoked → d'.status = .revoked

/-- A grant stays, with its delivery, file and quota. -/
structure SameGrant (g g' : DownloadGrant) : Prop where
  deliveryId : g'.deliveryId = g.deliveryId
  assetId : g'.assetId = g.assetId
  maxDownloads : g'.maxDownloads = g.maxDownloads

theorem SameDelivery.refl (d : DigitalDelivery) : SameDelivery d d := ⟨rfl, fun h => h⟩

theorem SameGrant.refl (g : DownloadGrant) : SameGrant g g := ⟨rfl, rfl, rfl⟩

theorem SameDelivery.trans {d d' d'' : DigitalDelivery} (h : SameDelivery d d')
    (h' : SameDelivery d' d'') : SameDelivery d d'' :=
  ⟨h'.id.trans h.id, fun hd => h'.revoked (h.revoked hd)⟩

theorem SameGrant.trans {g g' g'' : DownloadGrant} (h : SameGrant g g') (h' : SameGrant g' g'') :
    SameGrant g g'' :=
  ⟨h'.deliveryId.trans h.deliveryId, h'.assetId.trans h.assetId,
    h'.maxDownloads.trans h.maxDownloads⟩

def LinkMove : (k : Key) → Option (Row k) → Option (Row k) → Prop
  | .delivery _, v, v' => ∀ d, v = some d → ∃ d', v' = some d' ∧ SameDelivery d d'
  | .grant _, v, v' => ∀ g, v = some g → ∃ g', v' = some g' ∧ SameGrant g g'
  | _, _, _ => True

theorem LinkMove.refl (k : Key) (v : Option (Row k)) : LinkMove k v v := by
  cases k with
  | delivery id => exact fun d hd => ⟨d, hd, .refl d⟩
  | grant id => exact fun g hg => ⟨g, hg, .refl g⟩
  | _ => trivial

theorem LinkMove.trans (k : Key) (u v w : Option (Row k)) (h : LinkMove k u v)
    (h' : LinkMove k v w) : LinkMove k u w := by
  cases k with
  | delivery id =>
      intro d hd
      obtain ⟨d', hd', hsame⟩ := h d hd
      obtain ⟨d'', hd'', hsame'⟩ := h' d' hd'
      exact ⟨d'', hd'', hsame.trans hsame'⟩
  | grant id =>
      intro g hg
      obtain ⟨g', hg', hsame⟩ := h g hg
      obtain ⟨g'', hg'', hsame'⟩ := h' g' hg'
      exact ⟨g'', hg'', hsame.trans hsame'⟩
  | _ => trivial

def linkDiscipline : Discipline shop :=
  .ofRows (fun _ _ => True) LinkMove LinkMove.refl LinkMove.trans

theorem linkMove_delivery {id : Id} {v : Option DigitalDelivery}
    {f : DigitalDelivery → DigitalDelivery} (hf : ∀ d, v = some d → SameDelivery d (f d)) :
    LinkMove (.delivery id) v (v.map f) := by
  rintro d rfl
  exact ⟨f d, rfl, hf d rfl⟩

theorem linkMove_grant {id : Id} {v : Option DownloadGrant} {f : DownloadGrant → DownloadGrant}
    (hf : ∀ g, v = some g → SameGrant g (f g)) : LinkMove (.grant id) v (v.map f) := by
  rintro g rfl
  exact ⟨f g, rfl, hf g rfl⟩

theorem linkDiscipline_kept {P : Protocol shop Request} {allow : StepCondition}
    (hP : ∀ r h u, P r h (.update u true) → r.keepsFiles = true ∧ Justified r h u) :
    linkDiscipline.Kept P allow := by
  rintro w i r u - - hlaw - hguard
  obtain ⟨hr, hu⟩ := hP r _ u hlaw
  refine Discipline.respects_ofRows trivial ?_
  cases u with
  | insertDelivery orderId d =>
      intro d' hd'
      rw [show shop.guard (.insertDelivery orderId d) _ = Option.isNone _ from rfl, hd'] at hguard
      cases hguard
  | insertGrant id g =>
      intro g' hg'
      rw [show shop.guard (.insertGrant id g) _ = Option.isNone _ from rfl, hg'] at hguard
      cases hguard
  | revokeDelivery orderId now reason => exact linkMove_delivery fun d _ => ⟨rfl, fun _ => rfl⟩
  | noteDelivery orderId id error now => exact linkMove_delivery fun d _ => ⟨rfl, fun h => h⟩
  | markSent orderId id now =>
      refine linkMove_delivery fun d hd => ⟨rfl, fun hrevoked => ?_⟩
      obtain ⟨d', hd', hmatch⟩ := (Option.any_eq_true _ _).1 hguard
      cases hd.symm.trans hd'
      simp [hrevoked] at hmatch
  | markFailed orderId id error now => exact linkMove_delivery fun d _ => ⟨rfl, fun h => h⟩
  | revokeGrant id now => exact linkMove_grant fun g _ => ⟨rfl, rfl, rfl⟩
  | mintGrant id tokenHash expiresAt => exact linkMove_grant fun g _ => ⟨rfl, rfl, rfl⟩
  | takeDownload id limit now => exact linkMove_grant fun g _ => ⟨rfl, rfl, rfl⟩
  | deleteGrant id => exact absurd hu (Request.not_dropsFiles hr)
  | take row n => cases row <;> trivial
  | give row n => cases row <;> trivial
  | _ => trivial

/-! ## What a transaction makes of deliveries and grants -/

/-- How a row of an open transaction comes from the committed row. A delivery is
sent only when it was or is marked so; a grant is one the transaction inserts or
one that was there, with its token unless it gets a new one. -/
def LinkChange : (k : Key) → List Update → Option (Row k) → Option (Row k) → Prop
  | .delivery orderId, us, v₀, v => (v = none → v₀ = none) ∧
      (∀ d, .insertDelivery orderId d ∈ us → v₀ = none) ∧
      ∀ d, v = some d → (v₀ = none → ∃ d', .insertDelivery orderId d' ∈ us) ∧
        (d.status = .sent → (∃ time, .markSent orderId d.id time ∈ us) ∨
          ∃ d₀, v₀ = some d₀ ∧ d₀.status = .sent ∧ d₀.id = d.id)
  | .grant id, us, v₀, v => (∀ g', .insertGrant id g' ∈ us → ∃ g, v = some g ∧ SameGrant g' g) ∧
      ∀ g, v = some g → (∃ g', .insertGrant id g' ∈ us ∧ SameGrant g' g) ∨
        ∃ g₀, v₀ = some g₀ ∧ SameGrant g₀ g ∧
          ((∀ tokenHash expiresAt, .mintGrant id tokenHash expiresAt ∉ us) →
            g₀.tokenHash = g.tokenHash)
  | _, _, _, _ => True

theorem LinkChange.refl (k : Key) (v : Option (Row k)) : LinkChange k [] v v := by
  cases k with
  | delivery orderId =>
      refine ⟨fun hnone => hnone, fun d hmem => ?_, fun d hd => ⟨fun hnone => ?_, fun hsent => ?_⟩⟩
      · cases hmem
      · cases hnone.symm.trans hd
      · exact .inr ⟨d, hd, hsent, rfl⟩
  | grant id =>
      refine ⟨fun g hmem => ?_, fun g hg => .inr ⟨g, hg, .refl g, fun _ => rfl⟩⟩
      cases hmem
  | _ => trivial

theorem linkChange_delivery {orderId : Id} {u : Update} {us : List Update}
    {v₀ v : Option DigitalDelivery} {f : DigitalDelivery → DigitalDelivery}
    (hI : LinkChange (.delivery orderId) us v₀ v) (hu : ∀ d, .insertDelivery orderId d ≠ u)
    (hf : ∀ d, v = some d → (f d).status = .sent → (∃ time, .markSent orderId (f d).id time = u) ∨
      d.status = .sent ∧ d.id = (f d).id) :
    LinkChange (.delivery orderId) (u :: us) v₀ (v.map f) := by
  refine ⟨fun hnone => hI.1 (Option.map_eq_none_iff.1 hnone), fun d hmem => ?_, ?_⟩
  · exact hI.2.1 d ((List.mem_cons.1 hmem).resolve_left (hu d))
  · rintro _ hd
    obtain ⟨d, rfl, rfl⟩ := Option.map_eq_some_iff.1 hd
    refine ⟨fun hnone => ?_, fun hsent => ?_⟩
    · obtain ⟨d', hmem⟩ := (hI.2.2 d rfl).1 hnone
      exact ⟨d', List.mem_cons_of_mem _ hmem⟩
    · rcases hf d rfl hsent with ⟨time, rfl⟩ | ⟨hd, hid⟩
      · exact .inl ⟨time, List.mem_cons_self⟩
      · rcases (hI.2.2 d rfl).2 hd with ⟨time, hmem⟩ | ⟨d₀, hd₀, hsent₀, hid₀⟩
        · exact .inl ⟨time, List.mem_cons_of_mem _ (hid ▸ hmem)⟩
        · exact .inr ⟨d₀, hd₀, hsent₀, hid₀.trans hid⟩

theorem linkChange_grant {id : Id} {u : Update} {us : List Update} {v₀ v : Option DownloadGrant}
    {f : DownloadGrant → DownloadGrant} (hI : LinkChange (.grant id) us v₀ v)
    (hu : ∀ g, .insertGrant id g ≠ u) (hf : ∀ g, SameGrant g (f g))
    (htoken : (∀ tokenHash expiresAt, .mintGrant id tokenHash expiresAt ≠ u) →
      ∀ g, g.tokenHash = (f g).tokenHash) :
    LinkChange (.grant id) (u :: us) v₀ (v.map f) := by
  refine ⟨fun g' hmem => ?_, ?_⟩
  · obtain ⟨g, rfl, hsame⟩ := hI.1 g' ((List.mem_cons.1 hmem).resolve_left (hu g'))
    exact ⟨f g, rfl, hsame.trans (hf g)⟩
  · rintro _ hg
    obtain ⟨g, rfl, rfl⟩ := Option.map_eq_some_iff.1 hg
    rcases hI.2 g rfl with ⟨g', hmem, hsame⟩ | ⟨g₀, hg₀, hsame, htok⟩
    · exact .inl ⟨g', List.mem_cons_of_mem _ hmem, hsame.trans (hf g)⟩
    · refine .inr ⟨g₀, hg₀, hsame.trans (hf g), fun hmint => ?_⟩
      have hrest := htok fun tokenHash expiresAt hmem =>
        hmint tokenHash expiresAt (List.mem_cons_of_mem _ hmem)
      refine hrest.trans (htoken (fun tokenHash expiresAt heq => ?_) g)
      exact hmint tokenHash expiresAt (heq ▸ List.mem_cons_self)

theorem linkChange_write {r : Request} {h : List Ev} {u : Update} (hu : Justified r h u)
    (hr : r.keepsFiles = true) {us : List Update} {v₀ v : Option (Row u.key)}
    (hguard : u.guard v = true) (hI : LinkChange u.key us v₀ v) :
    LinkChange u.key (u :: us) v₀ (u.change v) := by
  cases u with
  | insertDelivery orderId d =>
      have hnone : v₀ = none := hI.1 (Option.isNone_iff_eq_none.1 hguard)
      refine ⟨nofun, fun _ _ => hnone, ?_⟩
      rintro _ ⟨⟩
      refine ⟨fun _ => ⟨d, List.mem_cons_self⟩, fun hsent => ?_⟩
      rw [hu.2] at hsent
      cases hsent
  | revokeDelivery orderId now reason =>
      exact linkChange_delivery hI (by simp) fun d _ hsent => nomatch hsent
  | noteDelivery orderId id error now =>
      exact linkChange_delivery hI (by simp) fun d _ hsent => .inr ⟨hsent, rfl⟩
  | markSent orderId id now =>
      refine linkChange_delivery hI (by simp) fun d hd _ => .inl ⟨now, ?_⟩
      subst hd
      have hmatch := (Bool.and_eq_true_iff.1 hguard).1
      rw [show d.id = id from eq_of_beq hmatch]
  | markFailed orderId id error now =>
      exact linkChange_delivery hI (by simp) fun d _ hsent => .inr ⟨hsent, rfl⟩
  | insertGrant id g =>
      have hnone : v = none := Option.isNone_iff_eq_none.1 hguard
      refine ⟨fun g' hmem => ?_, ?_⟩
      · rcases List.mem_cons.1 hmem with heq | hmem
        · cases heq
          exact ⟨g, rfl, .refl g⟩
        · obtain ⟨g₁, hg₁, -⟩ := hI.1 g' hmem
          cases hnone.symm.trans hg₁
      · rintro _ ⟨⟩
        exact .inl ⟨g, List.mem_cons_self, .refl g⟩
  | revokeGrant id now =>
      exact linkChange_grant hI (by simp) (fun _ => ⟨rfl, rfl, rfl⟩) fun _ _ => rfl
  | mintGrant id tokenHash expiresAt =>
      exact linkChange_grant hI (by simp) (fun _ => ⟨rfl, rfl, rfl⟩)
        fun hmint => absurd rfl (hmint tokenHash expiresAt)
  | takeDownload id limit now =>
      exact linkChange_grant hI (by simp) (fun _ => ⟨rfl, rfl, rfl⟩) fun _ _ => rfl
  | deleteGrant id => exact absurd hu (Request.not_dropsFiles hr)
  | take row n => cases row <;> trivial
  | give row n => cases row <;> trivial
  | _ => trivial

/-! ## Runs that keep files -/

/-- A protocol of requests that delete no file, in runs from `db` in which no
random name comes twice. -/
structure KeepsLinks (P : Protocol shop Request) (allow : StepCondition) (db : Database) : Prop where
  lawful : ∀ r h u, P r h (.update u true) → r.keepsFiles = true ∧ Justified r h u
  fresh : ∀ w i r e, allow w i r e → freshNames db w i r e = true
  distinct : DistinctNames db

namespace KeepsLinks

variable {P : Protocol shop Request} {allow : StepCondition} {db : Database}
  {w w' : StoreWorld} {i : ℕ} {r : Request} {e : Ev}

theorem tidy (_ : KeepsLinks P allow db) (h : World.Trace P allow (World.initial db) w) : w.Tidy :=
  World.Trace.tidy (World.initial_tidy db) h

theorem kept (L : KeepsLinks P allow db) : linkDiscipline.Kept P allow :=
  linkDiscipline_kept L.lawful

theorem inv (L : KeepsLinks P allow db) (h : World.Trace P allow (World.initial db) w) :
    linkDiscipline.Inv w :=
  L.kept.inv (World.initial_tidy db) (Discipline.inv_initial fun _ => trivial) h

theorem rel (L : KeepsLinks P allow db) (h : World.Trace P allow (World.initial db) w)
    (h' : World.Trace P allow w w') (k : Key) : LinkMove k (w.db.row k) (w'.db.row k) :=
  L.kept.rel (L.tidy h) (L.inv h) h' k

theorem respects (L : KeepsLinks P allow db) (h : World.Trace P allow (World.initial db) w)
    {u : Update} (hm : w.Move P allow i r (.update u true) w')
    (hguard : u.guard ((w.view i).row u.key) = true) : linkDiscipline.Respects u (w.view i) :=
  L.kept w i r u (L.tidy h) (L.inv h) hm.lawful hm.allowed hguard

theorem names (L : KeepsLinks P allow db) : linkNames.Kept P allow db :=
  linkNames_kept (fun r h u hu => (L.lawful r h u hu).2) L.fresh L.distinct

theorem named (L : KeepsLinks P allow db) (h : World.Trace P allow (World.initial db) w) :
    linkNames.Named db w :=
  L.names.named h

theorem change (L : KeepsLinks P allow db) (h : World.Trace P allow (World.initial db) w) (i : ℕ)
    (k : Key) : LinkChange k (rowLog (S := shop) k (w.tx i)) (w.db.row k) ((w.view i).row k) := by
  refine h.views (K := LinkChange) LinkChange.refl ?_ i k
  intro w i r u w' _ hm hguard us v hI
  obtain ⟨hr, hu⟩ := L.lawful _ _ _ hm.lawful
  exact linkChange_write hu hr hguard hI

/-- A transaction that adds a grant to a delivery has inserted that delivery. -/
theorem inserts_delivery (L : KeepsLinks P allow db) (h : World.Trace P allow (World.initial db) w)
    (i : ℕ) {id : Id} {g : DownloadGrant} (hg : .insertGrant id g ∈ w.tx i) :
    ∃ orderId tenantId time, .insertDelivery orderId (newDelivery g.deliveryId tenantId time) ∈
      w.tx i := by
  induction h generalizing i with
  | refl => cases hg
  | @tail v v' htr hm ih =>
      obtain ⟨j, r, e, hm⟩ := hm
      by_cases hi : i = j
      · subst hi
        cases hm.act with
        | query q => exact ih i hg
        | miss u hguard => exact ih i hg
        | call c a => exact ih i hg
        | hit u hguard hfree =>
            rw [World.push_tx_self] at hg ⊢
            rcases List.mem_cons.1 hg with rfl | hg
            · obtain ⟨-, -, d, ⟨orderId, id', tenantId, time, hwrote, hsees⟩, hid⟩ :=
                (L.lawful _ _ _ hm.lawful).2
              have htidy := L.tidy htr
              obtain ⟨v₁, hrow⟩ := hwrote.row v.db
              rw [← htidy.tx_eq i] at hrow
              have hd : some (newDelivery id' tenantId time) = some d :=
                hrow.symm.trans ((L.inv htr).sees i _ _ hsees).2
              cases hd
              obtain ⟨later, earlier, htx, -⟩ := hwrote
              refine ⟨orderId, tenantId, time, List.mem_cons_of_mem _ ?_⟩
              rw [htidy.tx_eq i, htx, hid]
              exact List.mem_append_right _ List.mem_cons_self
            · obtain ⟨orderId, tenantId, time, hmem⟩ := ih i hg
              exact ⟨orderId, tenantId, time, List.mem_cons_of_mem _ hmem⟩
        | commit => simp at hg
        | done => simp at hg
        | rollback => simp at hg
        | throw err => simp at hg
      · rw [hm.act.tx_of_ne hi] at hg ⊢
        exact ih i hg

theorem insertGrant_new (L : KeepsLinks P allow db) (h : World.Trace P allow (World.initial db) w)
    {orderId : Id} {d : DigitalDelivery} (hd : (w.view i).row (.delivery orderId) = some d)
    {id : Id} {g : DownloadGrant} (hinsert : .insertGrant id g ∈ w.tx i)
    (hdelivery : g.deliveryId = d.id) : w.db.row (.delivery orderId) = none := by
  obtain ⟨orderId', tenantId, time, hmem⟩ := L.inserts_delivery h i hinsert
  have hnamed := L.named h
  have hgave : linkNames.Owns db w.log (.delivery orderId') (d.id, none) := by
    have hopen := hmem
    rw [(L.tidy h).tx_eq i] at hopen
    obtain ⟨later, earlier, hown, -⟩ := exists_of_mem_openTx hopen
    have hevent : .update (.insertDelivery orderId' (newDelivery g.deliveryId tenantId time)) true ∈
        w.own i := hown ▸ List.mem_append_right later List.mem_cons_self
    obtain ⟨r', hentry⟩ := World.mem_own.1 hevent
    exact .inr ⟨_, hentry, _, rfl, rfl, by rw [← hdelivery]; rfl⟩
  obtain ⟨hkey, -⟩ := hnamed.unique _ _ _ _ hgave
    (hnamed.rows.view i (.delivery orderId) d _ hd rfl) rfl
  cases hkey
  exact (L.change h i (.delivery orderId)).2.1 _ (List.mem_filter.2 ⟨hmem, by simp⟩)

end KeepsLinks

/-! ## A store with a delivery -/

def nameOf (db : Database) (k : Key) : Option Id :=
  (db.row k).bind fun x => (linkNames.mark k x).map Prod.fst

def distinctNames (db : Database) : Bool :=
  db.keys.all fun k => db.keys.all fun k' =>
    decide (k = k') || (nameOf db k).isNone || nameOf db k != nameOf db k'

theorem distinctNames_of_check {db : Database} (h : distinctNames db = true) : DistinctNames db := by
  rintro k k' m m' ⟨x, hx, hm⟩ ⟨x', hx', hm'⟩ heq
  have hname : nameOf db k = some m.1 := by simp [nameOf, hx, hm]
  have hname' : nameOf db k' = some m.1 := by simp [nameOf, hx', hm', heq]
  have hk := List.all_eq_true.1 (List.all_eq_true.1 h k (db.mem_keys_of_row hx)) k'
    (db.mem_keys_of_row hx')
  simpa [hname, hname'] using hk

def deliveredOrder : Order :=
  { Order.fresh .zelle 1000 with
    customerEmail := some "ana@example.com", status := .confirmed, paymentStatus := .paid }

def sentDelivery : DigitalDelivery :=
  { newDelivery 50 0 0 with status := .sent, emailAttempts := 1, sentAt := some 0 }

/-- A link to the file 0 with the token 60, which works until the time 1000. -/
def sentGrant : DownloadGrant where
  tenantId := 0
  deliveryId := 50
  assetId := 0
  tokenHash := hashDownloadToken 60
  expiresAt := 1000
  maxDownloads := maxDownloads
  downloadCount := 0
  revokedAt := none

def bookFile : DigitalAsset where
  tenantId := 0
  productId := 0
  label := "Book"
  fileName := "book.pdf"
  storageKey := 0

def deliveredStore : Database :=
  (((storeWith Tenant.plain deliveredOrder).set (.delivery 0) (some sentDelivery)).set (.grant 0)
    (some sentGrant)).set (.asset 0) (some bookFile)

theorem deliveredStore_distinct : DistinctNames deliveredStore :=
  distinctNames_of_check (by decide +kernel)

/-- The delivery of an order in the committed state: its id and status. -/
def StoreSystem.deliveryStatus (s : StoreSystem) (orderId : Id) : Option (Id × DeliveryStatus) :=
  (s.world.db.row (.delivery orderId)).map fun d : DigitalDelivery => (d.id, d.status)

/-- Whether process `i` has not started. -/
def StoreSystem.isIdle (s : StoreSystem) (i : ℕ) : Bool :=
  match s.proc i with
  | .idle => true
  | _ => false

theorem idle_of_isIdle {s : StoreSystem} {i : ℕ} (h : s.isIdle i = true) : s.proc i = .idle := by
  unfold StoreSystem.isIdle at h
  split at h
  · assumption
  · cases h

/-- How a process ended: `true` when it returned, `false` when it threw. -/
def StoreSystem.outcome (s : StoreSystem) (i : ℕ) : Option Bool :=
  match (s.world.own i).head? with
  | some (.returned _) => some true
  | some (.threw _) => some false
  | _ => none

end WhatStore
