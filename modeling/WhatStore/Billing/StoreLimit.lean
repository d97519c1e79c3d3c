import WhatStore.Billing.Subscriptions
import WhatStore.ReadCommitted.Sweeps
import WhatStore.ReadCommitted.Schedule

/-!
# The store limit

An owner may open as many stores as the best plan on their stores allows. The
request counts the stores and later inserts one, with no lock in between, so two
requests of one owner can both find room for the last store. The limit holds in
every run in which a store is inserted only while the count still stands.
-/

namespace WhatStore.Billing

open ReadCommitted ReadCommitted.Prog

abbrev Ev := Event billing

abbrev BillingWorld := World billing Request

abbrev BillingSystem := System billing Request

def ownedSubscriptions (ownerId : Id) (db : Database) : List Current :=
  Query.eval (.ownedSubscriptions ownerId) db

def ownedCount (ownerId : Id) (db : Database) : Nat := Query.eval (.ownedCount ownerId) db

/-- The best limit over the owner's subscriptions that are not lapsed. -/
def storeLimit (ownerId : Id) (time : Time) (db : Database) : Int :=
  bestMaxStores ((ownedSubscriptions ownerId db).filter fun c => !isLapsed c time)

def WithinLimit (ownerId : Id) (time : Time) (db : Database) : Prop :=
  storeLimit ownerId time db ≠ -1 → (ownedCount ownerId db : Int) ≤ storeLimit ownerId time db

instance {ownerId : Id} {time : Time} {db : Database} : Decidable (WithinLimit ownerId time db) :=
  inferInstanceAs (Decidable (_ → _))

/-! ## When the limit holds -/

def Query.countRead : (q : Query) → q.Result → Option Nat
  | .ownedCount _, owned => some owned
  | _, _ => none

def countRead : Ev → Option Nat
  | .query q x => q.countRead x
  | _ => none

def counted (h : List Ev) : Option Nat := h.findSome? countRead

def Update.opensStore (ownerId : Id) : Update → Bool
  | .insertTenant _ row => row.ownerId == ownerId
  | _ => false

/-- A store is inserted only while its owner has as many as the request counted, and
no other transaction that is open has inserted one. -/
def countStands (w : BillingWorld) (i : ℕ) : Ev → Bool
  | .update (.insertTenant _ row) true =>
      counted (w.own i) == some (ownedCount row.ownerId (w.view i)) &&
        !w.pending i (Update.opensStore row.ownerId)
  | _ => true

/-- The clock finds the subscriptions lapsed that are so at the instant. -/
def sameLapse (ownerId : Id) (time : Time) (w : BillingWorld) (i : ℕ) : Ev → Bool
  | .call .now t => (ownedSubscriptions ownerId (w.view i)).all fun c =>
      isLapsed c t == isLapsed c time
  | _ => true

/-- A new store starts on a free plan that allows a store. -/
def FreeAllows (db : Database) : Prop :=
  ∀ id (plan : Plan), db.row (.plan id) = some plan → plan.isActive = true → plan.price = 0 →
    1 ≤ plan.maxStores ∨ plan.maxStores = -1

def Held (db : Database) : Prop :=
  ∀ id (sub : Subscription), db.row (.subscription id) = some sub →
    (∃ t, db.row (.tenant sub.tenantId) = some t) ∧ ∃ p, db.row (.plan sub.planId) = some p

/-! ## The best limit -/

section Best

variable {l l' : List Current} {c : Current} {p : Plan}

theorem foldl_max_headD {limits : List Int} (hne : limits ≠ []) :
    limits.foldl max (limits.headD 0) = limits.max hne := by
  rw [List.foldl_max_eq_max hne]
  refine max_eq_right (List.le_max_of_mem ?_)
  obtain ⟨x, xs, rfl⟩ := List.exists_cons_of_ne_nil hne
  exact List.mem_cons_self

theorem best_unlimited (hc : c ∈ l) (hp : c.plan = some p) (hunlimited : p.maxStores = -1) :
    bestMaxStores l = -1 := by
  have hmem : (-1 : Int) ∈ l.filterMap fun c => c.plan.map Plan.maxStores :=
    List.mem_filterMap.2 ⟨c, hc, by simp [hp, hunlimited]⟩
  have hne : l.isEmpty = false := by simpa using List.ne_nil_of_mem hc
  simp [bestMaxStores, hne, hmem]

theorem le_best (hc : c ∈ l) (hp : c.plan = some p) (hbest : bestMaxStores l ≠ -1) :
    p.maxStores ≤ bestMaxStores l := by
  have hmem : p.maxStores ∈ l.filterMap fun c => c.plan.map Plan.maxStores :=
    List.mem_filterMap.2 ⟨c, hc, by simp [hp]⟩
  have hne : l.isEmpty = false := by simpa using List.ne_nil_of_mem hc
  unfold bestMaxStores at hbest ⊢
  simp only [hne, Bool.false_eq_true, if_false] at hbest ⊢
  split at hbest
  · exact absurd rfl hbest
  · next hlimited =>
      rw [if_neg hlimited, foldl_max_headD (List.ne_nil_of_mem hmem)]
      exact List.le_max_of_mem hmem

theorem best_mem (hne : l ≠ []) (hplans : ∀ c ∈ l, ∃ p, c.plan = some p) :
    ∃ c ∈ l, ∃ p, c.plan = some p ∧ p.maxStores = bestMaxStores l := by
  have hof : ∀ x ∈ l.filterMap (fun c => c.plan.map Plan.maxStores), ∃ c ∈ l, ∃ p : Plan,
      c.plan = some p ∧ p.maxStores = x := by
    intro x hx
    obtain ⟨c, hc, hcx⟩ := List.mem_filterMap.1 hx
    obtain ⟨p, hp, heq⟩ := Option.map_eq_some_iff.1 hcx
    exact ⟨c, hc, p, hp, heq⟩
  have hempty : l.isEmpty = false := by simpa using hne
  apply hof
  unfold bestMaxStores
  simp only [hempty, Bool.false_eq_true, if_false]
  split
  · next hmem => simpa using hmem
  · obtain ⟨c, hc⟩ := List.exists_mem_of_ne_nil l hne
    obtain ⟨p, hp⟩ := hplans c hc
    have hmem : p.maxStores ∈ l.filterMap fun c => c.plan.map Plan.maxStores :=
      List.mem_filterMap.2 ⟨c, hc, by simp [hp]⟩
    rw [foldl_max_headD (List.ne_nil_of_mem hmem)]
    exact List.max_mem _

/-- More subscriptions allow no fewer stores. -/
theorem best_mono (hsub : ∀ c ∈ l, c ∈ l') (hne : l ≠ [])
    (hplans : ∀ c ∈ l, ∃ p, c.plan = some p) (hbest : bestMaxStores l' ≠ -1) :
    bestMaxStores l ≤ bestMaxStores l' ∧ bestMaxStores l ≠ -1 := by
  obtain ⟨c, hc, p, hp, heq⟩ := best_mem hne hplans
  rw [← heq]
  exact ⟨le_best (hsub c hc) hp hbest, fun h => hbest (best_unlimited (hsub c hc) hp h)⟩

end Best

/-! ## The owner's stores -/

def storeMeasure (ownerId : Id) : (k : Key) → Option (Row k) → ℤ
  | .tenant _, v => if v.any fun t : Tenant => t.ownerId == ownerId then 1 else 0
  | _, _ => 0

theorem length_filterMap_eq_sum {α β : Type} {f : α → Option β} {g : α → ℤ}
    (hg : ∀ a, g a = if (f a).isSome then 1 else 0) (l : List α) :
    ((l.filterMap f).length : ℤ) = (l.map g).sum := by
  induction l with
  | nil => rfl
  | cons a l ih =>
      rw [List.map_cons, List.sum_cons, ← ih, hg, List.filterMap_cons]
      cases f a <;> simp [add_comm]

theorem ownedCount_total (ownerId : Id) (db : Database) :
    (ownedCount ownerId db : ℤ) = Store.total (storeMeasure ownerId) db := by
  refine length_filterMap_eq_sum (fun k => ?_) db.keys
  have hone : ∀ (id : Id) (v : Option Tenant), (if v.any fun t => t.ownerId == ownerId then 1 else 0) =
      if ((v.filter fun t => t.ownerId == ownerId).map fun _ => id).isSome then (1 : ℤ) else 0 := by
    intro id v
    cases v <;> simp [Option.filter]
  cases k with
  | tenant id => exact hone id (db.row (.tenant id))
  | _ => rfl

theorem storeMeasure_none (ownerId : Id) (k : Key) : storeMeasure ownerId k none = 0 := by
  cases k <;> rfl

theorem ownedCount_insertTenant {ownerId id : Id} {db : Database} {row : Tenant}
    (hnew : db.row (.tenant id) = none) (howner : row.ownerId = ownerId) :
    (ownedCount ownerId (db.set (.tenant id) (some row)) : ℤ) = ownedCount ownerId db + 1 := by
  rw [ownedCount_total, ownedCount_total, Store.total_set _ (storeMeasure_none ownerId), hnew]
  simp [storeMeasure, howner]

theorem ownedCount_insertSubscription {ownerId id : Id} {db : Database} {row : Subscription} :
    (ownedCount ownerId (db.set (.subscription id) (some row)) : ℤ) = ownedCount ownerId db := by
  rw [ownedCount_total, ownedCount_total, Store.total_set _ (storeMeasure_none ownerId)]
  simp [storeMeasure]

theorem mem_ownedSubscriptions {ownerId : Id} {db : Database} {c : Current} :
    c ∈ ownedSubscriptions ownerId db ↔ db.row (.subscription c.id) = some c.subscription ∧
      (ownedBy db ownerId c.subscription.tenantId = true ∧ c.subscription.isOpen = true) ∧
        c.plan = findPlan db c.subscription.planId := by
  have hsorted : c ∈ ownedSubscriptions ownerId db ↔ c ∈ subscriptionsWhere db fun sub =>
      ownedBy db ownerId sub.tenantId && sub.isOpen := List.mem_insertionSort _
  rw [hsorted, subscriptionsWhere, List.mem_filterMap]
  constructor
  · rintro ⟨k, -, hk⟩
    cases k with
    | subscription id =>
        obtain ⟨sub, hsub, rfl⟩ := Option.map_eq_some_iff.1 hk
        obtain ⟨hrow, hp⟩ := Option.filter_eq_some_iff.1 hsub
        exact ⟨hrow, by simpa using hp, rfl⟩
    | _ => cases hk
  · rintro ⟨hrow, hp, hplan⟩
    refine ⟨_, db.mem_keys_of_row hrow, Option.map_eq_some_iff.2 ⟨c.subscription, ?_, ?_⟩⟩
    · exact Option.filter_eq_some_iff.2 ⟨hrow, by simpa using hp⟩
    · rw [← hplan]

theorem ownedBy_iff {ownerId tenantId : Id} {db : Database} :
    ownedBy db ownerId tenantId = true ↔
      ∃ t : Tenant, db.row (.tenant tenantId) = some t ∧ t.ownerId = ownerId := by
  simp [ownedBy, Option.any_eq_true]

theorem one_le_ownedCount {ownerId : Id} {db : Database} {c : Current}
    (hc : c ∈ ownedSubscriptions ownerId db) : 1 ≤ ownedCount ownerId db := by
  obtain ⟨-, ⟨howned, -⟩, -⟩ := mem_ownedSubscriptions.1 hc
  obtain ⟨t, ht, howner⟩ := ownedBy_iff.1 howned
  refine List.length_pos_of_mem (a := c.subscription.tenantId)
    (List.mem_filterMap.2 ⟨_, db.mem_keys_of_row ht, Option.map_eq_some_iff.2 ⟨t, ?_, rfl⟩⟩)
  exact Option.filter_eq_some_iff.2 ⟨ht, by simpa using howner⟩

/-! ## What the request does -/

/-- The request has counted the stores, read the subscriptions and then the clock, and
found room for one more. -/
def FoundRoom (ownerId : Id) (h : List Ev) : Prop :=
  ∃ (owned : Nat) (subs : List Current) (time : Time) (later mid early : List Ev),
    counted h = some owned ∧ h = later ++ Event.call (S := billing) .now time ::
      (mid ++ Event.query (S := billing) (.ownedSubscriptions ownerId) subs :: early) ∧
    openTx (mid ++ Event.query (S := billing) (.ownedSubscriptions ownerId) subs :: early) = [] ∧
    openTx early = [] ∧
    (bestMaxStores (subs.filter fun c => !isLapsed c time) ≠ -1 →
      (owned : Int) < bestMaxStores (subs.filter fun c => !isLapsed c time))

/-- A request inserts a store of the owner when it has found room, and then at most a
subscription of that store on the free plan. -/
def OpensStore (ownerId : Id) (_ : Request) (h : List Ev) : Ev → Prop
  | .update (.insertTenant _ row) _ => openTx h = [] ∧ row.ownerId = ownerId ∧ FoundRoom ownerId h
  | .update (.insertSubscription _ sub) _ => .query .freePlan (some sub.planId) ∈ h ∧
      ∃ row, openTx h = [.insertTenant sub.tenantId row]
  | .update _ _ => False
  | .committed _ => False
  | .rolledBack => False
  | _ => True

theorem createAdditional_follows {r : Request} (ownerId : Id) (slug : String) :
    (createAdditional ownerId slug).Follows (OpensStore ownerId r) := by
  refine along_ask (fun _ => trivial) fun s => along_ask (fun _ => trivial) fun s' => ?_
  refine along_invoke (fun _ => trivial) fun time => along_seq.2 (along_throwIf.2 ⟨fun _ => trivial, ?_⟩)
  intro hroom
  refine along_ask (fun _ => trivial) fun s'' => along_seq.2 (along_throwIf.2 ⟨fun _ => trivial, ?_⟩)
  intro _
  refine along_ask (fun _ => trivial) fun db => along_invoke (fun _ => trivial) fun tenantId => ?_
  generalize billing.eval .freePlan db = freePlan
  refine along_seq.2 (along_seq.2 fun hit => ⟨⟨rfl, rfl, ?_⟩, ?_⟩)
  · refine ⟨_, _, time, [_, _, _], [], [_], rfl, rfl, rfl, rfl, fun hlimited => ?_⟩
    simp only [Bool.and_eq_false_iff, bne_eq_false_iff_eq, decide_eq_false_iff_not, not_le] at hroom
    exact hroom.resolve_left hlimited
  cases hit with
  | false => trivial
  | true =>
      cases freePlan with
      | none => trivial
      | some planId =>
          refine along_seq.2 (along_ask (fun _ => trivial) fun _ => ?_)
          refine along_ask (fun _ => trivial) fun _ => ?_
          refine along_seq.2 (along_throwIf.2 ⟨fun _ => trivial, fun _ => ?_⟩)
          refine along_invoke (fun _ => trivial) fun subscriptionId => ?_
          refine along_seq.2 (along_seq.2 fun hit => ⟨⟨?_, _, rfl⟩, ?_⟩)
          · simp [newSubscription]
          · cases hit <;> trivial

/-! ## What the inserts keep -/

section Inserts

variable {ownerId id : Id} {time : Time} {db : Database}

theorem plan_set (db : Database) (id p : Id) (v : Option Subscription) :
    (db.set (.subscription id) v).row (.plan p) = db.row (.plan p) :=
  Store.set_row_of_ne _ _ (by simp)

theorem live_plans (hheld : Held db) :
    ∀ c ∈ (ownedSubscriptions ownerId db).filter (fun c => !isLapsed c time),
      ∃ p, c.plan = some p := by
  intro c hc
  obtain ⟨hrow, -, hplan⟩ := mem_ownedSubscriptions.1 (List.mem_filter.1 hc).1
  obtain ⟨p, hp⟩ := (hheld c.id c.subscription hrow).2
  exact ⟨p, hplan.trans hp⟩

theorem held_insertTenant {row : Tenant} (hheld : Held db) :
    Held (db.set (.tenant id) (some row)) := by
  intro j sub hsub
  rw [Store.set_row_of_ne _ _ (by simp)] at hsub
  obtain ⟨⟨t, ht⟩, p, hp⟩ := hheld j sub hsub
  constructor
  · by_cases hid : sub.tenantId = id
    · subst hid
      exact ⟨row, Store.set_row_self _ _ _⟩
    · exact ⟨t, by rw [Store.set_row_of_ne _ _ (by simpa using hid), ht]⟩
  · exact ⟨p, by rw [Store.set_row_of_ne _ _ (by simp), hp]⟩

theorem owned_insertTenant {row : Tenant} (hheld : Held db) (hnew : db.row (.tenant id) = none)
    {c : Current} :
    c ∈ ownedSubscriptions ownerId (db.set (.tenant id) (some row)) ↔
      c ∈ ownedSubscriptions ownerId db := by
  rw [mem_ownedSubscriptions, mem_ownedSubscriptions, findPlan, findPlan,
    Store.set_row_of_ne _ _ (by simp), Store.set_row_of_ne _ _ (by simp)]
  refine and_congr_right fun hrow => ?_
  have hother : c.subscription.tenantId ≠ id := by
    rintro rfl
    obtain ⟨⟨t, ht⟩, -⟩ := hheld c.id c.subscription hrow
    rw [hnew] at ht
    cases ht
  rw [ownedBy, ownedBy, Store.set_row_of_ne _ _ (by simpa using hother)]

/-- The store for which a request has found room is within the limit. -/
theorem within_insertTenant {row : Tenant} (hheld : Held db) (hnew : db.row (.tenant id) = none)
    (howner : row.ownerId = ownerId) {subs : List Current}
    (hsubs : ∀ c ∈ subs, c ∈ ownedSubscriptions ownerId db)
    (hroom : bestMaxStores (subs.filter fun c => !isLapsed c time) ≠ -1 →
      (ownedCount ownerId db : Int) < bestMaxStores (subs.filter fun c => !isLapsed c time)) :
    WithinLimit ownerId time (db.set (.tenant id) (some row)) := by
  intro hlimited
  have hcount := ownedCount_insertTenant hnew howner
  have hlive : ∀ c ∈ subs.filter (fun c => !isLapsed c time), c ∈ (ownedSubscriptions ownerId
      (db.set (.tenant id) (some row))).filter fun c => !isLapsed c time := by
    intro c hc
    obtain ⟨hmem, hlapse⟩ := List.mem_filter.1 hc
    exact List.mem_filter.2 ⟨(owned_insertTenant hheld hnew).2 (hsubs c hmem), hlapse⟩
  by_cases hnone : subs.filter (fun c => !isLapsed c time) = []
  · -- nothing but the fallback allowed the store, so the owner had none
    rw [hnone] at hroom
    have hzero : (ownedCount ownerId db : Int) < 1 := hroom (by decide)
    have hempty : ownedSubscriptions ownerId (db.set (.tenant id) (some row)) = [] := by
      refine List.eq_nil_iff_forall_not_mem.2 fun c hc => ?_
      have := one_le_ownedCount ((owned_insertTenant hheld hnew).1 hc)
      omega
    rw [hcount, storeLimit, hempty]
    change (ownedCount ownerId db : Int) + 1 ≤ 1
    omega
  · have hplans : ∀ c ∈ subs.filter (fun c => !isLapsed c time), ∃ p, c.plan = some p :=
      fun c hc => live_plans (held_insertTenant hheld) c (hlive c hc)
    obtain ⟨hle, hbounded⟩ := best_mono hlive hnone hplans hlimited
    have := hroom hbounded
    rw [hcount, storeLimit]
    omega

theorem held_insertSubscription {sub : Subscription} (hheld : Held db)
    (htenant : ∃ t, db.row (.tenant sub.tenantId) = some t)
    (hplan : ∃ p, db.row (.plan sub.planId) = some p) :
    Held (db.set (.subscription id) (some sub)) := by
  intro j sub' hsub
  rw [tenant_set, plan_set]
  by_cases hj : j = id
  · subst hj
    rw [Store.set_row_self] at hsub
    cases hsub
    exact ⟨htenant, hplan⟩
  · rw [subscription_set _ _ hj] at hsub
    exact hheld j sub' hsub

/-- A subscription to a plan that allows a store keeps the owner within the limit. -/
theorem within_insertSubscription {sub : Subscription} {p : Plan} (hheld : Held db)
    (hnew : db.row (.subscription id) = none) (hplan : db.row (.plan sub.planId) = some p)
    (hallows : 1 ≤ p.maxStores ∨ p.maxStores = -1) (hwithin : WithinLimit ownerId time db) :
    WithinLimit ownerId time (db.set (.subscription id) (some sub)) := by
  intro hlimited
  rw [ownedCount_insertSubscription]
  have hmore : ∀ c ∈ ownedSubscriptions ownerId db,
      c ∈ ownedSubscriptions ownerId (db.set (.subscription id) (some sub)) := by
    intro c hc
    obtain ⟨hrow, hp, hfind⟩ := mem_ownedSubscriptions.1 hc
    have hid : c.id ≠ id := by
      rintro rfl
      rw [hnew] at hrow
      cases hrow
    rw [mem_ownedSubscriptions, subscription_set _ _ hid, ownedBy, findPlan, tenant_set, plan_set]
    exact ⟨hrow, hp, hfind⟩
  have hnewest : ∀ c ∈ ownedSubscriptions ownerId (db.set (.subscription id) (some sub)),
      c ∈ ownedSubscriptions ownerId db ∨ c.plan = some p := by
    intro c hc
    rw [mem_ownedSubscriptions, ownedBy, findPlan, tenant_set, plan_set] at hc
    obtain ⟨hrow, hp, hfind⟩ := hc
    by_cases hid : c.id = id
    · rw [hid, Store.set_row_self] at hrow
      cases hrow
      exact .inr (hfind.trans hplan)
    · rw [subscription_set _ _ hid] at hrow
      exact .inl (mem_ownedSubscriptions.2 ⟨hrow, hp, hfind⟩)
  by_cases hnone : (ownedSubscriptions ownerId db).filter (fun c => !isLapsed c time) = []
  · have hone : (ownedCount ownerId db : Int) ≤ 1 := by
      rw [WithinLimit, storeLimit, hnone] at hwithin
      exact hwithin (by decide)
    refine hone.trans ?_
    by_cases hnone' : (ownedSubscriptions ownerId (db.set (.subscription id) (some sub))).filter
        (fun c => !isLapsed c time) = []
    · rw [storeLimit, hnone']
      exact le_refl _
    · obtain ⟨c, hc⟩ := List.exists_mem_of_ne_nil _ hnone'
      have hp : c.plan = some p := by
        refine (hnewest c (List.mem_filter.1 hc).1).resolve_left fun hmem => ?_
        have hlive : c ∈ (ownedSubscriptions ownerId db).filter fun c => !isLapsed c time :=
          List.mem_filter.2 ⟨hmem, (List.mem_filter.1 hc).2⟩
        rw [hnone] at hlive
        cases hlive
      rcases hallows with hallows | hallows
      · exact hallows.trans (le_best hc hp hlimited)
      · exact absurd (best_unlimited hc hp hallows) hlimited
  · have hlive : ∀ c ∈ (ownedSubscriptions ownerId db).filter (fun c => !isLapsed c time),
        c ∈ (ownedSubscriptions ownerId (db.set (.subscription id) (some sub))).filter
          fun c => !isLapsed c time :=
      fun c hc => List.mem_filter.2
        ⟨hmore c (List.mem_filter.1 hc).1, (List.mem_filter.1 hc).2⟩
    obtain ⟨hle, hbounded⟩ := best_mono hlive hnone (live_plans hheld) hlimited
    exact (hwithin hbounded).trans hle

end Inserts

/-! ## Runs -/

def PlanStays (db : Database) : (k : Key) → Option (Row k) → Prop
  | .plan id, v => v = db.row (.plan id)
  | _, _ => True

def growing (db : Database) : Discipline billing :=
  .ofRows (PlanStays db) (fun _ v v' => ∀ x, v = some x → v' = some x) (fun _ _ _ h => h)
    fun _ _ _ _ h h' x hx => h' x (h x hx)

variable {ownerId : Id} {time : Time} {db : Database} {w w' : BillingWorld}
  {allow : BillingWorld → ℕ → Request → Ev → Prop}

theorem growing_kept : (growing db).Kept (OpensStore ownerId) allow := by
  intro w i r u htidy hw hlaw _ hguard
  cases u with
  | insertTenant id row =>
      refine Discipline.respects_ofRows trivial fun x hx => ?_
      have hnone : (w.view i).row (.tenant id) = none := Option.isNone_iff_eq_none.1 hguard
      exact absurd (hnone.symm.trans hx) nofun
  | insertSubscription id row =>
      refine Discipline.respects_ofRows trivial fun x hx => ?_
      have hnone : (w.view i).row (.subscription id) = none := Option.isNone_iff_eq_none.1 hguard
      exact absurd (hnone.symm.trans hx) nofun
  | _ => exact hlaw.elim

theorem growing_good : (growing db).Good db := by
  intro k
  cases k <;> first | rfl | trivial

/-- What an open transaction and the committed stores satisfy about the limit. -/
structure LimitKept (ownerId : Id) (time : Time) (w : BillingWorld) : Prop where
  alone : ∀ i j, i ≠ j → w.tx i ≠ [] → w.tx j = []
  opens : ∀ i, w.tx i ≠ [] → ∃ u ∈ w.tx i, Update.opensStore ownerId u = true
  db : Held w.db ∧ WithinLimit ownerId time w.db
  view : ∀ i, Held (w.view i) ∧ WithinLimit ownerId time (w.view i)

theorem owned_of_trace (h : World.Trace (OpensStore ownerId) allow (World.initial db) w)
    (h' : World.Trace (OpensStore ownerId) allow w w') {c : Current}
    (hc : c ∈ ownedSubscriptions ownerId w.db) : c ∈ ownedSubscriptions ownerId w'.db := by
  have hinv := growing_kept.inv (World.initial_tidy db) (Discipline.inv_initial growing_good) h
  have htidy : w.Tidy := World.Trace.tidy (World.initial_tidy db) h
  have hrel := growing_kept.rel htidy hinv h'
  have hgood := (growing_kept.inv htidy hinv h').good
  obtain ⟨hrow, ⟨howned, hopen⟩, hplan⟩ := mem_ownedSubscriptions.1 hc
  obtain ⟨t, ht, howner⟩ := ownedBy_iff.1 howned
  refine mem_ownedSubscriptions.2 ⟨hrel _ _ hrow, ⟨?_, hopen⟩, ?_⟩
  · exact ownedBy_iff.2 ⟨t, hrel _ _ ht, howner⟩
  · have hsame : findPlan w.db c.subscription.planId = findPlan w'.db c.subscription.planId :=
      (hinv.good (.plan c.subscription.planId)).trans (hgood (.plan c.subscription.planId)).symm
    exact hplan.trans hsame

/-- What the request has read of the owner's subscriptions still stands, and the clock
found those lapsed that are so at the instant. -/
theorem room_stands {i : ℕ} {subs : List Current} {t : Time} {later mid early : List Ev}
    (hallow : ∀ w i r e, allow w i r e → sameLapse ownerId time w i e = true)
    (h : World.Trace (OpensStore ownerId) allow (World.initial db) w)
    (hown : w.own i =
      later ++ .call .now t :: (mid ++ .query (.ownedSubscriptions ownerId) subs :: early))
    (hmid : openTx (mid ++ .query (.ownedSubscriptions ownerId) subs :: early) = [])
    (hearly : openTx early = []) :
    ∀ c ∈ subs, c ∈ ownedSubscriptions ownerId w.db ∧ isLapsed c t = isLapsed c time := by
  intro c hc
  obtain ⟨v, r, v', hv, hm, hvown, hrest⟩ := h.exists_own_move i _ _ _ hown
  obtain ⟨u, r', u', hu, hm', huown, hrest'⟩ := hv.exists_own_move i _ _ _ hvown
  have hview : ∀ {x : BillingWorld}, World.Trace (OpensStore ownerId) allow (World.initial db) x →
      openTx (x.own i) = [] → x.view i = x.db := fun hx hopen =>
    World.view_of_tx_nil (((World.Trace.tidy (World.initial_tidy db) hx).tx_eq i).trans hopen)
  have hread : c ∈ ownedSubscriptions ownerId u.db := by
    have heval := hm'.act.query_eq
    rw [hview hu (huown ▸ hearly)] at heval
    change c ∈ billing.eval (.ownedSubscriptions ownerId) u.db
    rwa [heval]
  have hlater : c ∈ ownedSubscriptions ownerId v.db :=
    owned_of_trace hu (.head ⟨i, r', _, hm'⟩ hrest') hread
  refine ⟨owned_of_trace hv (.head ⟨i, r, _, hm⟩ hrest) hlater, ?_⟩
  have hclock := hallow _ _ _ _ hm.allowed
  rw [sameLapse, hview hv (hvown ▸ hmid)] at hclock
  simpa using List.all_eq_true.1 hclock c hlater

theorem freePlan_stands {i : ℕ} {planId : Id}
    (h : World.Trace (OpensStore ownerId) allow (World.initial db) w)
    (hread : .query .freePlan (some planId) ∈ w.own i) :
    ∃ p : Plan, (w.view i).row (.plan planId) = some p ∧ db.row (.plan planId) = some p ∧
      p.isActive = true ∧ p.price = 0 := by
  have hgood : ∀ {x : BillingWorld}, World.Trace (OpensStore ownerId) allow (World.initial db) x →
      (x.view i).row (.plan planId) = db.row (.plan planId) := by
    intro x hx
    have hinv := growing_kept.inv (World.initial_tidy db) (Discipline.inv_initial growing_good) hx
    exact hinv.view_good i (.plan planId)
  obtain ⟨later, early, hown⟩ := List.append_of_mem hread
  obtain ⟨v, r, v', hv, hm, -, -⟩ := h.exists_own_move i _ _ _ hown
  obtain ⟨p, hp, hfree⟩ := freePlan_some hm.act.query_eq
  have hstart : db.row (.plan planId) = some p := (hgood hv).symm.trans hp
  exact ⟨p, (hgood h).trans hstart, hstart, hfree⟩

theorem LimitKept.push {i : ℕ} {r : Request} {u : Update} (hw : LimitKept ownerId time w)
    (hothers : ∀ j, j ≠ i → w.tx j = [])
    (hopens : ∃ u' ∈ u :: w.tx i, Update.opensStore ownerId u' = true)
    (hview : Held (applyUpdate (S := billing) u (w.view i)) ∧
      WithinLimit ownerId time (applyUpdate (S := billing) u (w.view i))) :
    LimitKept ownerId time (w.push i r u) where
  alone a b hab ha := by
    by_cases hb : b = i
    · subst hb
      rw [World.push_tx_of_ne w r u hab] at ha
      exact absurd (hothers a hab) ha
    · rw [World.push_tx_of_ne w r u hb]
      exact hothers b hb
  opens a ha := by
    by_cases hai : a = i
    · subst hai
      rw [World.push_tx_self]
      exact hopens
    · rw [World.push_tx_of_ne w r u hai] at ha
      exact absurd (hothers a hai) ha
  db := hw.db
  view a := by
    by_cases hai : a = i
    · subst hai
      rw [World.push_view_self]
      exact hview
    · rw [World.push_view_of_ne w r u hai]
      exact hw.view a

theorem LimitKept.settle {i : ℕ} (hw : LimitKept ownerId time w) (hself : w'.tx i = [])
    (htx : ∀ j, j ≠ i → w'.tx j = w.tx j) (hdb : w'.db = w.db ∨ w'.db = w.view i)
    (hsame : w.tx i = [] → w'.db = w.db) : LimitKept ownerId time w' := by
  have hgood : Held w'.db ∧ WithinLimit ownerId time w'.db := by
    rcases hdb with hdb | hdb
    · exact hdb ▸ hw.db
    · exact hdb ▸ hw.view i
  have hback : ∀ j, w'.tx j ≠ [] → j ≠ i ∧ w.tx j ≠ [] := by
    intro j hj
    have hji : j ≠ i := by
      rintro rfl
      exact hj hself
    exact ⟨hji, htx j hji ▸ hj⟩
  constructor
  · intro a b hab ha
    obtain ⟨-, ha'⟩ := hback a ha
    by_contra hb
    exact (hback b hb).2 (hw.alone a b hab ha')
  · intro a ha
    obtain ⟨hai, ha'⟩ := hback a ha
    rw [htx a hai]
    exact hw.opens a ha'
  · exact hgood
  · intro a
    by_cases ha : w'.tx a = []
    · rw [World.view_of_tx_nil ha]
      exact hgood
    · -- the transaction that ended had written nothing, for this one has
      obtain ⟨hai, ha'⟩ := hback a ha
      have hview : w'.view a = w.view a := by
        rw [World.view, World.view, htx a hai, hsame (hw.alone a i hai ha')]
      rw [hview]
      exact hw.view a

theorem LimitKept.move {i : ℕ} {r : Request} {e : Ev}
    (hstands : ∀ w i r e, allow w i r e → countStands w i e = true)
    (hlapse : ∀ w i r e, allow w i r e → sameLapse ownerId time w i e = true)
    (hallows : FreeAllows db) (h : World.Trace (OpensStore ownerId) allow (World.initial db) w)
    (hw : LimitKept ownerId time w) (hm : w.Move (OpensStore ownerId) allow i r e w') :
    LimitKept ownerId time w' := by
  have htidy : w.Tidy := World.Trace.tidy (World.initial_tidy db) h
  have hlaw := hm.lawful
  have hopen := htidy.tx_eq i
  have hcount := hstands _ _ _ _ hm.allowed
  cases hm.act with
  | query q => exact ⟨hw.alone, hw.opens, hw.db, hw.view⟩
  | miss u hguard => exact ⟨hw.alone, hw.opens, hw.db, hw.view⟩
  | call c a => exact ⟨hw.alone, hw.opens, hw.db, hw.view⟩
  | commit => exact hlaw.elim
  | rollback => exact hlaw.elim
  | throw err =>
      exact hw.settle (World.abort_tx_self w i r _) (fun _ => World.abort_tx_of_ne w r _) (.inl rfl)
        fun _ => rfl
  | done =>
      exact hw.settle (World.commit_tx_self w i r _) (fun _ => World.commit_tx_of_ne w r _)
        (.inr rfl) World.view_of_tx_nil
  | hit u hguard hfree =>
      cases u with
      | insertTenant id row =>
          obtain ⟨htx, howner, owned, subs, t, later, mid, early, hcounted, hown, hmid, hearly,
            hroom⟩ := hlaw
          have hnew : (w.view i).row (.tenant id) = none := Option.isNone_iff_eq_none.1 hguard
          have hread := room_stands hlapse h hown hmid hearly
          rw [countStands, hcounted] at hcount
          simp only [howner, Bool.and_eq_true, beq_iff_eq, Option.some.injEq,
            Bool.not_eq_true'] at hcount
          obtain ⟨rfl, hpending⟩ := hcount
          have hothers : ∀ j, j ≠ i → w.tx j = [] := by
            intro j hj
            by_contra hwrites
            obtain ⟨u, hu, hopens⟩ := hw.opens j hwrites
            rw [htidy.pending_of_mem hj hu hopens] at hpending
            cases hpending
          refine hw.push hothers ⟨_, List.mem_cons_self, by simp [Update.opensStore, howner]⟩
            ⟨?_, ?_⟩
          · exact held_insertTenant (hw.view i).1
          · have hsame : (subs.filter fun c => !isLapsed c t) = subs.filter fun c => !isLapsed c time :=
              List.filter_congr fun c hc => by rw [(hread c hc).2]
            rw [hsame] at hroom
            refine within_insertTenant (hw.view i).1 hnew howner (fun c hc => ?_) hroom
            rw [World.view_of_tx_nil (hopen.trans htx)]
            exact (hread c hc).1
      | insertSubscription id sub =>
          obtain ⟨hread, row, htx⟩ := hlaw
          have hnew : (w.view i).row (.subscription id) = none := Option.isNone_iff_eq_none.1 hguard
          have hwrites : w.tx i ≠ [] := by
            rw [hopen, htx]
            exact List.cons_ne_nil _ _
          obtain ⟨u, hu, hopens⟩ := hw.opens i hwrites
          have htenant : (w.view i).row (.tenant sub.tenantId) = some row := by
            rw [World.view, hopen, htx]
            exact applyUpdate_row_self (S := billing) (.insertTenant sub.tenantId row) w.db
          obtain ⟨p, hp, hstart, hactive, hprice⟩ := freePlan_stands h hread
          refine hw.push (fun j hj => hw.alone i j hj.symm hwrites)
            ⟨u, List.mem_cons_of_mem _ hu, hopens⟩ ⟨?_, ?_⟩
          · exact held_insertSubscription (hw.view i).1 ⟨row, htenant⟩ ⟨p, hp⟩
          · exact within_insertSubscription (hw.view i).1 hnew hp
              (hallows sub.planId p hstart hactive hprice) (hw.view i).2
      | _ => exact hlaw.elim

theorem limitKept_of_trace (hstands : ∀ w i r e, allow w i r e → countStands w i e = true)
    (hlapse : ∀ w i r e, allow w i r e → sameLapse ownerId time w i e = true)
    (hallows : FreeAllows db) (hstart : Held db ∧ WithinLimit ownerId time db)
    (h : World.Trace (OpensStore ownerId) allow (World.initial db) w) :
    LimitKept ownerId time w := by
  induction h with
  | refl => exact ⟨fun _ _ _ h => absurd rfl h, fun _ h => absurd rfl h, hstart, fun _ => hstart⟩
  | tail htr hm ih =>
      obtain ⟨i, r, e, hm⟩ := hm
      exact ih.move hstands hlapse hallows htr hm

def Request.opensStore (ownerId : Id) : Request → Bool
  | .createAdditional userId _ => userId == ownerId
  | _ => false

/-- Plans and subscriptions are as at the instant, and no store slips in between a
count and the insert that rests on it. -/
def orderly (ownerId : Id) (time : Time) (w : BillingWorld) (i : ℕ) (_ : Request) (e : Ev) : Bool :=
  sameLapse ownerId time w i e && countStands w i e

/-- In every run in which a store is inserted only while its owner has as many as its
request counted, an owner within the limit stays so, whatever the order of the
requests' steps. -/
theorem store_limit {s : BillingSystem} (hheld : Held db) (hallows : FreeAllows db)
    (hstart : WithinLimit ownerId time db)
    (hrun : System.Runs handler (Request.opensStore ownerId ·) (orderly ownerId time · · · ·)
      (System.initial db) s) : WithinLimit ownerId time s.world.db := by
  have hfollows : ∀ r, Request.opensStore ownerId r = true →
      (handler r).Follows (OpensStore ownerId r) := by
    intro r hr
    cases r with
    | createAdditional userId slug =>
        cases beq_iff_eq.1 hr
        exact createAdditional_follows ownerId slug
    | _ => cases hr
  have hlimit := limitKept_of_trace (fun _ _ _ _ h => (Bool.and_eq_true_iff.1 h).2)
    (fun _ _ _ _ h => (Bool.and_eq_true_iff.1 h).1) hallows ⟨hheld, hstart⟩
    (trace_of_runs hfollows hrun)
  exact hlimit.db.2

def oneStore : Database :=
  (((Store.empty.set (.plan 0) (some ⟨"Free", 0, .lifetime, 1, 20, [.whatsapp], true, 0⟩)).set
    (.plan 1) (some ⟨"Pro", 1000, .lifetime, 2, 500, [.whatsapp], true, 1⟩)).set
    (.tenant 2) (some ⟨"mugs", 7, none⟩)).set
    (.subscription 3) (some (newSubscription 2 1 none 0))

def drawing (id : Id) : (c : Call) → c.Answer
  | .now => 0
  | .uuid => id
  | .publicWebUrl => some "https://shop.test"
  | .createCheckoutSession _ => some none
  | .createPortalSession _ _ => none
  | .cardBillingEnabled => true
  | .retrieve _ => none
  | .cancel _ => ()
  | .enqueueNotice _ _ => true
  | .issueTokens _ _ => true
  | .advisoryLock _ => ()
  | .filesForProductDeletion _ _ => some []
  | .removeStoredFiles _ => ()

theorem oneStore_keys : oneStore.keys = [.plan 0, .plan 1, .tenant 2, .subscription 3] := rfl

theorem oneStore_held : Held oneStore := by
  intro id sub hsub
  have hkey := oneStore.mem_keys_of_row hsub
  simp only [oneStore_keys, List.mem_cons, List.not_mem_nil, reduceCtorEq, or_false, false_or,
    Key.subscription.injEq] at hkey
  subst hkey
  cases hsub
  exact ⟨⟨_, rfl⟩, _, rfl⟩

theorem oneStore_allows : FreeAllows oneStore := by
  intro id plan hplan _ _
  have hkey := oneStore.mem_keys_of_row hplan
  simp only [oneStore_keys, List.mem_cons, List.not_mem_nil, reduceCtorEq, or_false,
    Key.plan.injEq] at hkey
  rcases hkey with rfl | rfl
  · cases hplan
    simp
  · cases hplan
    simp

/-- The owner opens the second store the plan allows. -/
theorem store_limit_second : ∃ s : BillingSystem, ownedCount 7 s.world.db = 2 ∧
    WithinLimit 7 0 s.world.db := by
  obtain ⟨s, hrun, hcount⟩ := System.exists_run_of_play handler (Request.opensStore 7) (orderly 7 0)
    (System.initial oneStore)
    [.start 0 (.createAdditional 7 "cups"), .steps 0 6 (drawing 20), .steps 0 1 (drawing 20),
      .steps 0 5 (drawing 21)]
    (fun s => ownedCount 7 s.world.db) (by decide +kernel : _ = some 2)
  exact ⟨s, hcount, store_limit oneStore_held oneStore_allows (by decide +kernel) hrun⟩

/-- Two requests both count one store, and each opens another: the owner of a plan for
two stores has three. -/
theorem store_limit_crossed : ¬ ∀ (ownerId : Id) (time : Time) (db : Database) (s : BillingSystem),
    Held db → FreeAllows db → WithinLimit ownerId time db →
    System.Runs handler (Request.opensStore ownerId ·) (fun w i _ e => sameLapse ownerId time w i e)
      (System.initial db) s → WithinLimit ownerId time s.world.db := by
  intro hall
  obtain ⟨s, hrun, hcount⟩ := System.exists_run_of_play handler (Request.opensStore 7)
    (fun w i _ e => sameLapse 7 0 w i e) (System.initial oneStore)
    [.start 0 (.createAdditional 7 "cups"), .steps 0 1 (drawing 20),
      .start 1 (.createAdditional 7 "pots"), .steps 1 7 (drawing 30), .steps 1 5 (drawing 31),
      .steps 0 6 (drawing 20), .steps 0 5 (drawing 21)]
    (fun s => (ownedCount 7 s.world.db, storeLimit 7 0 s.world.db))
    (by decide +kernel : _ = some (3, (2 : Int)))
  have hwithin := hall 7 0 oneStore s oneStore_held oneStore_allows (by decide +kernel) hrun
  obtain ⟨hthree, htwo⟩ := Prod.mk.inj hcount
  rw [WithinLimit, hthree, htwo] at hwithin
  exact absurd (hwithin (by decide)) (by decide)

end WhatStore.Billing
