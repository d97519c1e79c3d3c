import WhatStore.Platform.Tenants
import WhatStore.ReadCommitted.Histories
import WhatStore.ReadCommitted.Schedule
import Mathlib.Data.List.Chain

/-!
# The life of a tenant

A store serves customers while `isActive` says so, which should be exactly while
its status is `ACTIVE` and it is not deleted, and its status history should be a
chain. Every write keeps the first on the tenant its request has read, and the
change it records starts from the status that was read. Both hold in every run in
which no tenant is deleted or changes its status between the read and the write.
-/

namespace WhatStore.Platform

open ReadCommitted

/-- The flag the storefront looks at says what the other two columns say. -/
def Tenant.Derived (t : Tenant) : Prop :=
  t.isActive = true ↔ t.status = .active ∧ t.deletedAt = none

/-- The change of the tenant's status an update records. -/
def Update.recorded (id : Id) : Update → Option StatusChange
  | .insertStatusChange _ row => if row.tenantId = id then some row else none
  | _ => none

/-- The changes of the tenant's status that a run has recorded, newest first. -/
def recorded (id : Id) (log : List (Entry platform Request)) : List StatusChange :=
  (committed log).filterMap (Update.recorded id)

/-- The history is a chain: each change starts from the status the one recorded
before it led to. -/
def Chained (changes : List StatusChange) : Prop :=
  changes.IsChain fun later earlier => later.fromStatus = earlier.toStatus

def LedTo (db : Database) (id : Id) (changes : List StatusChange) : Prop :=
  ∀ c ∈ changes.head?, ∃ t : Tenant, db.row (.tenant id) = some t ∧ t.status = c.toStatus

def Query.tenantRead : (q : Query) → q.Result → Option (Option Tenant)
  | .tenant _, found => some found
  | _, _ => none

def tenantRead : Ev → Option (Option Tenant)
  | .query q found => q.tenantRead found
  | _ => none

def readStatus (h : List Ev) : Option TenantStatus :=
  (h.findSome? tenantRead).bind fun found => found.map Tenant.status

/-- A change of status finds the tenant not deleted and with the status it had when
the request read it. -/
def statusStands (w : World platform Request) (i : ℕ) (_ : Request) : Ev → Bool
  | .update (.setStatus id _) true =>
      ((w.view i).row (.tenant id)).any fun t : Tenant =>
        t.deletedAt.isNone && readStatus (w.own i) == some t.status
  | _ => true

theorem stands_of_set {w : World platform Request} {i : ℕ} {r : Request} {id : Id}
    {toStatus : TenantStatus} {t : Tenant}
    (h : statusStands w i r (.update (.setStatus id toStatus) true) = true)
    (ht : (w.view i).row (.tenant id) = some t) :
    t.deletedAt = none ∧ readStatus (w.own i) = some t.status := by
  rw [statusStands, ht] at h
  simpa using h

/-! ## What the requests do -/

def Update.quiet : Update → Bool
  | .setStatus _ _ => false
  | .insertStatusChange _ _ => false
  | _ => true

def Update.Derives : Update → Prop
  | .insertTenant _ row => row.Derived
  | _ => True

/-- Tenants are read before anything is written, and a transaction changes one
status and records the change from the status that was read, or does neither. -/
def Law (_ : Request) (h : List Ev) : Ev → Prop
  | .query q found => (q.tenantRead found).isSome = true → openTx h = []
  | .update (.setStatus _ _) _ => openTx h = []
  | .update (.insertStatusChange _ row) _ =>
      openTx h = [.setStatus row.tenantId row.toStatus] ∧ readStatus h = some row.fromStatus
  | .update u _ => u.Derives ∧ ∀ u ∈ openTx h, Update.quiet u = true
  | .committed _ => ∀ id status, openTx h ≠ [.setStatus id status]
  | .returned _ => ∀ id status, openTx h ≠ [.setStatus id status]
  | _ => True

def Plain : Ev → Prop
  | .query q found => q.tenantRead found = none
  | .update u _ => u.Derives ∧ u.quiet = true
  | _ => True

section Plain

variable {r : Request} {h : List Ev} {α : Type}

theorem quiet_cons {e : Ev} (hopen : ∀ u ∈ openTx h, Update.quiet u = true) (he : Plain e) :
    ∀ u ∈ openTx (e :: h), Update.quiet u = true := by
  cases e with
  | update u hit =>
      cases hit with
      | false => exact hopen
      | true =>
          intro u' hu'
          rcases List.mem_cons.1 hu' with rfl | hu'
          · exact he.2
          · exact hopen u' hu'
  | query q x => exact hopen
  | call c a => exact hopen
  | committed tx => simp
  | rolledBack => simp
  | returned tx => simp
  | threw err => simp

theorem law_of_plain {e : Ev} (hopen : ∀ u ∈ openTx h, Update.quiet u = true) (he : Plain e) :
    Law r h e := by
  have hend : ∀ id status, openTx h ≠ [.setStatus id status] := by
    intro id status heq
    have hquiet := hopen (.setStatus id status) (by simp [heq])
    cases hquiet
  cases e with
  | query q x =>
      intro hread
      rw [show q.tenantRead x = none from he] at hread
      cases hread
  | update u hit => cases u <;> first | exact ⟨he.1, hopen⟩ | cases he.2
  | call c a => trivial
  | committed tx => exact hend
  | rolledBack => trivial
  | returned tx => exact hend
  | threw err => trivial

theorem plain_along {p : Prog platform α} (hp : p.Only Plain)
    (hopen : ∀ u ∈ openTx h, Update.quiet u = true) :
    p.Along (Law r) h fun _ h' => ∀ u ∈ openTx h', Update.quiet u = true :=
  hp.along_keeping hopen fun _ _ _ hopen he => ⟨law_of_plain hopen he, quiet_cons hopen he⟩

theorem plain_follows {p : Prog platform Unit} (hp : p.Only Plain) : p.Follows (Law r) :=
  (plain_along hp (by simp)).mono fun _ _ hopen => law_of_plain (e := .returned _) hopen trivial

end Plain

open Prog

theorem plain_insertOne {u : Update} (hderives : u.Derives) (hquiet : u.quiet = true) :
    (insertOne u).Only Plain :=
  only_bind (only_update fun _ => ⟨hderives, hquiet⟩) fun _ => only_throwIf fun _ => trivial

theorem plain_uuid : (uuid).Only Plain := only_call fun _ => trivial

theorem create_follows {r : Request} (dto : PlatformTenantsService.CreateTenantAdminDto) :
    (PlatformTenantsService.create dto).Follows (Law r) := by
  have hthrow : ∀ e : Err, Plain (.threw e) := fun _ => trivial
  apply plain_follows
  refine only_bind (only_query fun _ => rfl) fun _ => only_bind (only_throwIf hthrow) fun _ => ?_
  refine only_bind (only_query fun _ => rfl) fun _ => only_bind (only_throwIf hthrow) fun _ => ?_
  refine only_bind ?_ fun planId => only_bind plain_uuid fun ownerId => ?_
  · cases dto.planId with
    | some planId => exact only_ret
    | none => exact only_bind (only_query fun _ => rfl) fun _ => only_orThrow hthrow
  refine only_bind (plain_insertOne trivial rfl) fun _ => only_bind plain_uuid fun id => ?_
  refine only_bind (plain_insertOne ?_ rfl) fun _ => only_bind plain_uuid fun memberId => ?_
  · simp [Update.Derives, Tenant.Derived]
  refine only_bind (plain_insertOne trivial rfl) fun _ => ?_
  refine only_bind (only_query fun _ => rfl) fun _ => ?_
  refine only_bind (only_throwIf hthrow) fun _ => only_bind plain_uuid fun subscriptionId => ?_
  exact only_bind (plain_insertOne trivial rfl) fun _ => fun _ => ⟨trivial, trivial⟩

theorem findActiveOrThrow_along {r : Request} {id : Id} {h : List Ev} {α : Type}
    {f : Tenant → Prog platform α} {Q : α → List Ev → Prop} (hopen : openTx h = [])
    (hk : ∀ t h', openTx h' = [] → readStatus h' = some t.status → (f t).Along (Law r) h' Q) :
    (PlatformTenantsService.findActiveOrThrow id >>= f).Along (Law r) h Q := by
  refine along_seq.2 (along_ask (fun _ _ => hopen) fun s => along_orThrow.2 ⟨fun _ => trivial, ?_⟩)
  intro t ht
  refine hk t _ hopen ?_
  have hfound : s.row (.tenant id) = some t := (Option.filter_eq_some_iff.1 ht).1
  change (s.row (.tenant id)).map Tenant.status = some t.status
  rw [hfound, Option.map_some]

theorem softDelete_follows {r : Request} (id : Id) :
    (PlatformTenantsService.softDelete id).Follows (Law r) := by
  refine findActiveOrThrow_along rfl fun t h' hopen _ => ?_
  refine (plain_along ?_ (by simp [hopen])).mono fun _ _ hopen =>
    law_of_plain (e := .returned _) hopen trivial
  refine only_bind (only_call fun _ => trivial) fun deletedAt => only_bind ?_ fun _ => ?_
  · exact only_bind (only_update fun _ => ⟨trivial, rfl⟩) fun _ => only_throwIf fun _ => trivial
  · exact fun _ => ⟨trivial, trivial⟩

theorem changeStatus_follows {r : Request} (id : Id) (toStatus : TenantStatus) (reason : String)
    (actorId : Id) (ctx : PlatformTenantsService.RequestContext) :
    (PlatformTenantsService.changeStatus id toStatus reason actorId ctx).Follows (Law r) := by
  refine findActiveOrThrow_along rfl fun t h' hopen hread => ?_
  refine along_seq.2 (along_throwIf.2 ⟨fun _ => trivial, fun _ => ?_⟩)
  refine along_seq.2 (along_seq.2 fun hit => ⟨hopen, ?_⟩)
  cases hit with
  | false => trivial
  | true =>
      refine along_ask (fun _ hread => by cases hread) fun s => ?_
      refine along_seq.2 (along_throwIf.2 ⟨fun _ => trivial, fun _ => ?_⟩)
      refine along_invoke (fun _ => trivial) fun changeId => ?_
      have htx : openTx (.call .uuid changeId :: .query (.user actorId) (Query.eval (.user actorId) s) ::
          .update (.setStatus id toStatus) true :: h' : List Ev) = [.setStatus id toStatus] := by
        simp [hopen]
      refine along_seq.2 (along_seq.2 fun hit => ⟨⟨htx, hread⟩, ?_⟩)
      cases hit with
      | false => trivial
      | true => exact ⟨fun _ _ heq => by simp at heq, fun _ _ heq => by simp at heq⟩

theorem handler_follows (r : Request) : (handler r).Follows (Law r) := by
  cases r with
  | create dto => exact create_follows dto
  | suspend id reason actorId ctx => exact changeStatus_follows id _ reason actorId ctx
  | activate id reason actorId ctx => exact changeStatus_follows id _ reason actorId ctx
  | softDelete id => exact softDelete_follows id

/-! ## The columns of a tenant -/

def DerivedRow : (k : Key) → Option (Row k) → Prop
  | .tenant _, v => ∀ t : Tenant, v = some t → t.Derived
  | _, _ => True

/-- The status of a row through a transaction that changes no status. -/
def StatusKept : (k : Key) → List Update → Option (Row k) → Option (Row k) → Prop
  | .tenant _, us, v, v' => (∀ u ∈ us, Update.quiet u = true) →
      ∀ t : Tenant, v = some t → ∃ t' : Tenant, v' = some t' ∧ t'.status = t.status
  | _, _, _, _ => True

abbrev PlatformWorld := World platform Request

abbrev PlatformSystem := System platform Request

variable {allow : PlatformWorld → ℕ → Request → Ev → Prop} {db : Database} {w w' : PlatformWorld}

theorem derived_rows (hstart : ∀ k, DerivedRow k (db.row k))
    (hallow : ∀ w i r e, allow w i r e → statusStands w i r e = true)
    (h : World.Trace Law allow (World.initial db) w) (k : Key) : DerivedRow k (w.db.row k) := by
  refine World.Trace.rows (I := fun k _ v => DerivedRow k v) hstart ?_ h k
  intro w i r u w' _ hm hguard _ hI
  cases u with
  | insertTenant id row =>
      intro t ht
      cases ht
      exact hm.lawful.1
  | setStatus id toStatus =>
      intro t' ht'
      obtain ⟨t, ht, rfl⟩ := Option.map_eq_some_iff.1 ht'
      have hstands := stands_of_set (hallow _ _ _ _ hm.allowed) ht
      simp [Tenant.Derived, hstands.1]
  | markDeleted id deletedAt =>
      intro t' ht'
      obtain ⟨t, ht, rfl⟩ := Option.map_eq_some_iff.1 ht'
      simp [Tenant.Derived]
  | _ => trivial

theorem status_kept (h : World.Trace Law allow (World.initial db) w) (i : ℕ) (k : Key) :
    StatusKept k (rowLog k (w.tx i)) (w.db.row k) ((w.view i).row k) := by
  refine h.views (K := StatusKept) ?_ ?_ i k
  · intro k v
    cases k <;> first | trivial | exact fun _ t ht => ⟨t, ht, rfl⟩
  intro w i r u w' _ _ hguard us v hK
  cases u with
  | insertTenant id row =>
      intro hquiet t ht
      obtain ⟨t', ht', -⟩ := hK (fun u hu => hquiet u (List.mem_cons_of_mem _ hu)) t ht
      rw [ht'] at hguard
      cases hguard
  | setStatus id toStatus =>
      intro hquiet
      cases hquiet _ List.mem_cons_self
  | markDeleted id deletedAt =>
      intro hquiet t ht
      obtain ⟨t', ht', hstatus⟩ := hK (fun u hu => hquiet u (List.mem_cons_of_mem _ hu)) t ht
      exact ⟨_, congrArg (Option.map _) ht', hstatus⟩
  | _ => trivial

/-! ## The history of statuses -/

/-- What an open transaction has done about statuses: nothing, a change that it has
yet to record, or a change with its record. -/
inductive Shape (w : PlatformWorld) (i : ℕ) : Prop where
  | quiet (hquiet : ∀ u ∈ w.tx i, Update.quiet u = true)
  | changing (id : Id) (toStatus : TenantStatus) (t : Tenant)
      (htx : w.tx i = [.setStatus id toStatus]) (hrow : w.db.row (.tenant id) = some t)
      (hread : readStatus (w.own i) = some t.status)
  | changed (changeId : Id) (row : StatusChange) (t : Tenant)
      (htx : w.tx i = [.insertStatusChange changeId row, .setStatus row.tenantId row.toStatus])
      (hrow : w.db.row (.tenant row.tenantId) = some t) (hfrom : row.fromStatus = t.status)

theorem Shape.other {i j : ℕ} {r : Request} {e : Ev} (htidy : w.Tidy) (hw : Shape w j)
    (hact : w.Act i r e w') (hj : j ≠ i) : Shape w' j := by
  have htx' := hact.tx_of_ne hj
  cases hw with
  | quiet hquiet => exact .quiet (htx' ▸ hquiet)
  | changing id toStatus t htx hrow hread =>
      have hlock : Key.tenant id ∈ locks (w.tx j) := by simp [htx, locks, platform, Update.key]
      exact .changing id toStatus t (htx'.trans htx) ((htidy.db_row hact hj hlock).trans hrow)
        (hact.own_of_ne hj ▸ hread)
  | changed changeId row t htx hrow hfrom =>
      have hlock : Key.tenant row.tenantId ∈ locks (w.tx j) := by
        simp [htx, locks, platform, Update.key]
      exact .changed changeId row t (htx'.trans htx)
        ((htidy.db_row hact hj hlock).trans hrow) hfrom

theorem Shape.same {i : ℕ} {e : Ev} (hw : Shape w i) (htx' : w'.tx i = w.tx i)
    (hdb : w'.db = w.db) (hown : w'.own i = e :: w.own i) (hread' : tenantRead e = none) :
    Shape w' i := by
  have hsame : readStatus (w'.own i) = readStatus (w.own i) := by
    rw [hown, readStatus, List.findSome?_cons, hread', readStatus]
  cases hw with
  | quiet hquiet => exact .quiet (htx' ▸ hquiet)
  | changing id toStatus t htx hrow hread =>
      exact .changing id toStatus t (htx'.trans htx) (hdb ▸ hrow) (hsame.trans hread)
  | changed changeId row t htx hrow hfrom =>
      exact .changed changeId row t (htx'.trans htx) (hdb ▸ hrow) hfrom

theorem Shape.self {i : ℕ} {r : Request} {e : Ev}
    (hallow : ∀ w i r e, allow w i r e → statusStands w i r e = true) (htidy : w.Tidy)
    (hw : Shape w i) (hm : w.Move Law allow i r e w') : Shape w' i := by
  have hown := hm.act.own_self
  have hlaw := hm.lawful
  have hstands := hallow _ _ _ _ hm.allowed
  have hopen := htidy.tx_eq i
  have hempty : w'.tx i = [] → Shape w' i := fun htx => .quiet (by simp [htx])
  cases hm.act with
  | query q =>
      cases hq : q.tenantRead (q.eval (w.view i)) with
      | none => exact hw.same rfl rfl hown hq
      | some found => exact hempty (hopen.trans (hlaw (by simp [platform, hq])))
  | call c a => exact hw.same rfl rfl hown rfl
  | miss u hguard => exact hw.same rfl rfl hown rfl
  | commit => exact hempty (World.commit_tx_self w i r _)
  | rollback => exact hempty (World.abort_tx_self w i r _)
  | done => exact hempty (World.commit_tx_self w i r _)
  | throw err => exact hempty (World.abort_tx_self w i r _)
  | hit u hguard hfree =>
      have htx' := World.push_tx_self w i r u
      cases u with
      | setStatus id toStatus =>
          rw [show openTx (w.own i) = [] from hlaw] at hopen
          rw [hopen] at htx'
          obtain ⟨t, ht⟩ := Option.isSome_iff_exists.1 hguard
          have hread := (stands_of_set hstands ht).2
          rw [World.view_of_tx_nil hopen] at ht
          exact .changing id toStatus t htx' ht (hown ▸ hread)
      | insertStatusChange changeId row =>
          obtain ⟨htx, hread⟩ := hlaw
          rw [htx] at hopen
          rw [hopen] at htx'
          cases hw with
          | quiet hquiet => exact absurd (hquiet _ (hopen ▸ List.mem_singleton_self _)) (by simp [Update.quiet])
          | changing id toStatus t htx₀ hrow hread₀ =>
              rw [hopen] at htx₀
              cases htx₀
              exact .changed changeId row t htx' hrow (Option.some.inj (hread.symm.trans hread₀))
          | changed changeId' row' t htx₀ _ _ =>
              rw [hopen] at htx₀
              cases htx₀
      | _ =>
          apply Shape.quiet
          rw [htx', hopen]
          intro u hu
          rcases List.mem_cons.1 hu with rfl | hu
          · rfl
          · exact hlaw.2 u hu

/-- The changes recorded before the run and in it are a chain that led to the status
the tenant has. -/
structure Recording (earlier : Id → List StatusChange) (w : PlatformWorld) : Prop where
  shape : ∀ i, Shape w i
  chained : ∀ id, Chained (recorded id w.log ++ earlier id)
  led : ∀ id, LedTo w.db id (recorded id w.log ++ earlier id)

theorem LedTo.kept {db' : Database} {id : Id} {changes : List StatusChange}
    (hled : LedTo db id changes) (hkept : ∀ t : Tenant, db.row (.tenant id) = some t →
      ∃ t' : Tenant, db'.row (.tenant id) = some t' ∧ t'.status = t.status) :
    LedTo db' id changes := by
  intro c hc
  obtain ⟨t, ht, hstatus⟩ := hled c hc
  obtain ⟨t', ht', hsame⟩ := hkept t ht
  exact ⟨t', ht', hsame.trans hstatus⟩

theorem recorded_quiet {us : List Update} (h : ∀ u ∈ us, Update.quiet u = true) (id : Id) :
    us.filterMap (Update.recorded id) = [] := by
  refine List.filterMap_eq_nil_iff.2 fun u hu => ?_
  have hquiet := h u hu
  cases u <;> first | rfl | cases hquiet

/-- A transaction that is complete hands the chain on when it commits. -/
theorem Recording.commit {earlier : Id → List StatusChange} {i : ℕ}
    (hviews : ∀ k, StatusKept k (rowLog k (w.tx i)) (w.db.row k) ((w.view i).row k))
    (hw : Recording earlier w) (hend : ∀ id status, w.tx i ≠ [.setStatus id status]) (id : Id) :
    Chained ((w.tx i ++ committed w.log).filterMap (Update.recorded id) ++ earlier id) ∧
      LedTo (w.view i) id
        ((w.tx i ++ committed w.log).filterMap (Update.recorded id) ++ earlier id) := by
  have hchained := hw.chained id
  have hled := hw.led id
  rw [recorded] at hchained hled
  rw [List.filterMap_append]
  cases hw.shape i with
  | quiet hquiet =>
      rw [recorded_quiet hquiet, List.nil_append]
      refine ⟨hchained, hled.kept (hviews (.tenant id) fun u hu => ?_)⟩
      exact hquiet u (List.mem_of_mem_filter hu)
  | changing id' toStatus t htx _ _ => exact absurd htx (hend id' toStatus)
  | changed changeId row t htx hrow hfrom =>
      have hview : (w.view i).row (.tenant row.tenantId) =
          some { t with status := row.toStatus, isActive := row.toStatus == .active } := by
        rw [World.view, htx, replay_cons, applyUpdate_row_of_ne _ _ (by simp [platform, Update.key]),
          replay_cons, replay_nil]
        exact (applyUpdate_row_self _ _).trans (congrArg (Option.map _) hrow)
      by_cases hid : row.tenantId = id
      · subst hid
        have hnew : (w.tx i).filterMap (Update.recorded row.tenantId) = [row] := by
          simp [htx, Update.recorded]
        rw [hnew]
        constructor
        · -- the committed tenant has the status the record starts from
          refine List.isChain_cons.2 ⟨fun c hc => ?_, hchained⟩
          obtain ⟨t', ht', hstatus⟩ := hled c hc
          cases hrow.symm.trans ht'
          exact hfrom.trans hstatus
        · intro c hc
          cases hc
          exact ⟨_, hview, rfl⟩
      · have hnone : (w.tx i).filterMap (Update.recorded id) = [] := by
          simp [htx, Update.recorded, hid]
        rw [hnone]
        refine ⟨hchained, hled.kept fun t' ht' => ⟨t', ?_, rfl⟩⟩
        have hlock : Key.tenant id ∉ locks (w.tx i) := by
          simp [htx, locks, platform, Update.key, Ne.symm hid]
        exact (replay_row_of_notMem w.db hlock).trans ht'

theorem Recording.move {earlier : Id → List StatusChange} {i : ℕ} {r : Request} {e : Ev}
    (hallow : ∀ w i r e, allow w i r e → statusStands w i r e = true)
    (h : World.Trace Law allow (World.initial db) w) (hw : Recording earlier w)
    (hm : w.Move Law allow i r e w') : Recording earlier w' := by
  have htidy : w.Tidy := World.Trace.tidy (World.initial_tidy db) h
  have hlaw := hm.lawful
  have hend : (∀ id status, openTx (w.own i) ≠ [.setStatus id status]) → ∀ id,
      Chained ((w.tx i ++ committed w.log).filterMap (Update.recorded id) ++ earlier id) ∧
        LedTo (w.view i) id
          ((w.tx i ++ committed w.log).filterMap (Update.recorded id) ++ earlier id) :=
    fun hnot => hw.commit (fun k => status_kept h i k) (htidy.tx_eq i ▸ hnot)
  constructor
  · intro j
    by_cases hj : j = i
    · subst hj
      exact (hw.shape j).self hallow htidy hm
    · exact (hw.shape j).other htidy hm.act hj
  · intro id
    cases hm.act with
    | commit => exact (hend hlaw id).1
    | done => exact (hend hlaw id).1
    | _ => exact hw.chained id
  · intro id
    cases hm.act with
    | commit => exact (hend hlaw id).2
    | done => exact (hend hlaw id).2
    | _ => exact hw.led id

/-! ## Runs -/

/-- Tenants as the platform keeps them, with the changes recorded of each so far. -/
structure Sound (db : Database) (earlier : Id → List StatusChange) : Prop where
  derived : ∀ id (t : Tenant), db.row (.tenant id) = some t → t.Derived
  chained : ∀ id, Chained (earlier id)
  led : ∀ id, LedTo db id (earlier id)

/-- A tenant serves exactly while it is active and not deleted, and the changes of its
status are a chain. -/
def Kept (earlier : Id → List StatusChange) (s : PlatformSystem) (id : Id) : Prop :=
  (∀ t : Tenant, s.world.db.row (.tenant id) = some t → t.Derived) ∧
    Chained (recorded id s.world.log ++ earlier id)

theorem recording_of_trace {earlier : Id → List StatusChange}
    (hallow : ∀ w i r e, allow w i r e → statusStands w i r e = true) (hstart : Sound db earlier)
    (h : World.Trace Law allow (World.initial db) w) : Recording earlier w := by
  induction h with
  | refl => exact ⟨fun _ => .quiet (by simp [World.initial]), hstart.chained, hstart.led⟩
  | tail htr hm ih =>
      obtain ⟨i, r, e, hm⟩ := hm
      exact ih.move hallow htr hm

/-- In every run in which a change of status finds the tenant as its request has read
it, whatever requests it is made of, tenants serve exactly while they are active and
not deleted and the history of statuses is a chain. -/
theorem tenant_lifecycle {db : Database} {earlier : Id → List StatusChange} {s : PlatformSystem}
    (hstart : Sound db earlier)
    (hrun : System.Runs handler (fun _ => True) (statusStands · · · ·) (System.initial db) s)
    (id : Id) : Kept earlier s id := by
  have htrace := trace_of_runs (fun r _ => handler_follows r) hrun
  constructor
  · have hrows : ∀ k, DerivedRow k (db.row k) := by
      intro k
      cases k <;> first | trivial | exact hstart.derived _
    exact derived_rows hrows (fun _ _ _ _ h => h) htrace (.tenant id)
  · exact (recording_of_trace (fun _ _ _ _ h => h) hstart htrace).chained id

/-- A Super Admin and the tenant with its status and its changes so far. -/
def oneTenant (status : TenantStatus) : Database :=
  (Store.empty.set (.user 9) (some ⟨"root@what.store", "Root"⟩)).set (.tenant 0)
    (some ⟨"Mugs", "mugs", 9, status, status == .active, none⟩)

def drawing (id : Id) : (c : Call) → c.Answer
  | .now => 100
  | .uuid => id

def noContext : PlatformTenantsService.RequestContext := ⟨none, none⟩

theorem oneTenant_sound (status : TenantStatus) : Sound (oneTenant status) fun _ => [] where
  derived id t ht := by
    by_cases hid : id = 0
    · subst hid
      rw [oneTenant, Store.set_row_self] at ht
      cases ht
      simp [Tenant.Derived]
    · rw [oneTenant, Store.set_row_of_ne _ _ (by simp [hid]),
        Store.set_row_of_ne _ _ (by simp)] at ht
      cases ht
  chained _ := List.isChain_nil
  led _ _ hc := nomatch hc

/-- A store is suspended and activated again, and another time suspended. -/
theorem tenant_lifecycle_suspended : ∃ s : PlatformSystem,
    (recorded 0 s.world.log).map StatusChange.toStatus = [.suspended, .active, .suspended] ∧
      Kept (fun _ => []) s 0 := by
  obtain ⟨s, hrun, hchanges⟩ := System.exists_run_of_play handler (fun _ => true) statusStands
    (System.initial (oneTenant .active))
    [.start 0 (.suspend 0 "unpaid" 9 noContext), .steps 0 7 (drawing 20),
      .start 1 (.activate 0 "paid" 9 noContext), .steps 1 7 (drawing 21),
      .start 2 (.suspend 0 "unpaid" 9 noContext), .steps 2 7 (drawing 22)]
    (fun s => (recorded 0 s.world.log).map StatusChange.toStatus)
    (by decide +kernel : _ = some [.suspended, .active, .suspended])
  exact ⟨s, hchanges, tenant_lifecycle (oneTenant_sound .active)
    (hrun.mono (fun _ _ => trivial) fun _ _ _ _ h => h) 0⟩

/-- The activation of a suspended store has read it before it is deleted and writes it
afterwards: the deleted store serves again. Of two suspensions that have read the
active store each records that it found it active. -/
theorem tenant_lifecycle_crossed :
    (¬ ∀ (db : Database) (earlier : Id → List StatusChange) (s : PlatformSystem) (id : Id)
      (t : Tenant), Sound db earlier →
      System.Runs handler (fun _ => True) (fun _ _ _ _ => True) (System.initial db) s →
      s.world.db.row (.tenant id) = some t → t.Derived) ∧
    ¬ ∀ (db : Database) (earlier : Id → List StatusChange) (s : PlatformSystem) (id : Id),
      Sound db earlier →
      System.Runs handler (fun _ => True) (fun _ _ _ _ => True) (System.initial db) s →
      Chained (recorded id s.world.log ++ earlier id) := by
  constructor
  · intro hall
    obtain ⟨s, hrun, hrow⟩ := System.exists_run_of_play handler (fun _ => true)
      (fun _ _ _ _ => true) (System.initial (oneTenant .suspended))
      [.start 0 (.activate 0 "paid" 9 noContext), .steps 0 1 (drawing 20),
        .start 1 (.softDelete 0), .steps 1 5 (drawing 21), .steps 0 6 (drawing 20)]
      (fun s => (s.world.db.row (.tenant 0)).map fun t : Tenant => (t.isActive, t.deletedAt))
      (by decide +kernel : _ = some (some (true, some 100)))
    obtain ⟨t, ht, heq⟩ := Option.map_eq_some_iff.1 hrow
    obtain ⟨hactive, hdeleted⟩ := Prod.mk.inj heq
    have hderived := hall _ _ s 0 t (oneTenant_sound .suspended)
      (hrun.mono (fun _ _ => trivial) fun _ _ _ _ _ => trivial) ht
    rw [(hderived.1 hactive).2] at hdeleted
    cases hdeleted
  · intro hall
    obtain ⟨s, hrun, hfrom⟩ := System.exists_run_of_play handler (fun _ => true)
      (fun _ _ _ _ => true) (System.initial (oneTenant .active))
      [.start 0 (.suspend 0 "unpaid" 9 noContext), .steps 0 1 (drawing 20),
        .start 1 (.suspend 0 "fraud" 9 noContext), .steps 1 7 (drawing 21),
        .steps 0 6 (drawing 20)]
      (fun s => (recorded 0 s.world.log).map fun c => (c.fromStatus, c.toStatus))
      (by decide +kernel : _ = some [(.active, .suspended), (.active, .suspended)])
    have hchained := hall _ _ s 0 (oneTenant_sound .active)
      (hrun.mono (fun _ _ => trivial) fun _ _ _ _ _ => trivial)
    obtain ⟨c, rest, hlog, hc, hrest⟩ := List.map_eq_cons_iff.1 hfrom
    obtain ⟨c', rest', rfl, hc', -⟩ := List.map_eq_cons_iff.1 hrest
    rw [hlog] at hchained
    have hlink : c.fromStatus = c'.toStatus := (List.isChain_cons.1 hchained).1 c' rfl
    rw [(Prod.mk.inj hc).1, (Prod.mk.inj hc').2] at hlink
    cases hlink

end WhatStore.Platform
