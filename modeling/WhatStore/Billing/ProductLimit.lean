import WhatStore.Billing.Effects

/-!
# The product limit

The live products of a store are counted against the limit its plan sets: a new
product and one that is switched on are checked, a switch to a free plan is
refused, and an approval and a downgrade hide what is over the limit. A payment
by card and the platform's moderation do neither. The limit holds in every
sequential run in which these find room, apart from the time between the lapse of
a plan and the sweep that notices it.
-/

namespace WhatStore.Billing

open ReadCommitted ReadCommitted.Prog

variable {db db' : Database} {id t : Id} {sub : Subscription} {T T' time : Time}

/-! ## Live products -/

def LiveIn (db : Database) (t id : Id) : Prop :=
  ∃ p : Product, db.row (.product id) = some p ∧
    p.tenantId = t ∧ p.isActive = true ∧ p.isPublished = true

def liveCount (db : Database) (t : Id) : Nat := (Query.eval (.liveProducts t) db).length

theorem mem_productsWhere {f : Product → Bool} {p : Product} :
    (id, p) ∈ productsWhere db f ↔ db.row (.product id) = some p ∧ f p = true := by
  rw [productsWhere, List.mem_filterMap]
  constructor
  · rintro ⟨k, -, hk⟩
    cases k with
    | product id' =>
        obtain ⟨p', hp', heq⟩ := Option.map_eq_some_iff.1 hk
        cases heq
        exact Option.filter_eq_some_iff.1 hp'
    | _ => cases hk
  · intro h
    refine ⟨.product id, db.mem_keys_of_row h.1, ?_⟩
    exact Option.map_eq_some_iff.2 ⟨p, Option.filter_eq_some_iff.2 h, rfl⟩

theorem nodup_productsWhere (db : Database) (f : Product → Bool) :
    ((productsWhere db f).map Prod.fst).Nodup := by
  apply db.nodup_scan Key.product
  intro k product hk
  cases k with
  | product id =>
      obtain ⟨p, -, rfl⟩ := Option.map_eq_some_iff.1 hk
      rfl
  | _ => cases hk

theorem mem_liveProducts : id ∈ Query.eval (.liveProducts t) db ↔ LiveIn db t id := by
  rw [Query.eval, List.mem_map]
  constructor
  · rintro ⟨⟨id', p⟩, hmem, rfl⟩
    obtain ⟨hrow, hlive⟩ := mem_productsWhere.1 ((List.mem_insertionSort _).1 hmem)
    simp only [Bool.and_eq_true, beq_iff_eq] at hlive
    exact ⟨p, hrow, hlive.1.1, hlive.1.2, hlive.2⟩
  · rintro ⟨p, hrow, htenant, hactive, hpublished⟩
    refine ⟨(id, p), (List.mem_insertionSort _).2 (mem_productsWhere.2 ⟨hrow, ?_⟩), rfl⟩
    simp [htenant, hactive, hpublished]

theorem nodup_liveProducts : (Query.eval (.liveProducts t) db).Nodup := by
  have hperm := (List.perm_insertionSort (fun a b : Id × Product =>
    a.2.createdAt < b.2.createdAt ∨ (a.2.createdAt = b.2.createdAt ∧ a.1 ≤ b.1))
    (productsWhere db fun p => p.tenantId == t && p.isActive && p.isPublished)).map Prod.fst
  exact hperm.nodup_iff.2 (nodup_productsWhere db _)

theorem liveCount_le_length (db : Database) (t : Id) (ids : List Id)
    (h : ∀ id, LiveIn db t id → id ∈ ids) :
    liveCount db t ≤ ids.length :=
  (nodup_liveProducts.subperm fun id hid => h id (mem_liveProducts.1 hid)).length_le

theorem liveCount_mono (h : ∀ id, LiveIn db' t id → LiveIn db t id) :
    liveCount db' t ≤ liveCount db t :=
  liveCount_le_length _ _ _ fun id hid => mem_liveProducts.2 (h id hid)

theorem liveCount_le_productCount :
    liveCount db t ≤ Query.eval (.productCount t) db := by
  have hlisted := liveCount_le_length db t
    ((productsWhere db fun p => p.tenantId == t).map Prod.fst) ?_
  · exact hlisted.trans_eq (List.length_map _)
  · rintro id ⟨p, hrow, htenant, -, -⟩
    exact List.mem_map.2 ⟨(id, p), mem_productsWhere.2 ⟨hrow, by simp [htenant]⟩, rfl⟩

/-- One product more than the others of the store. -/
theorem liveCount_le_others {j : Id} (h : ∀ id, id ≠ j → LiveIn db' t id → LiveIn db t id) :
    liveCount db' t ≤ Query.eval (.otherLiveCount t j) db + 1 := by
  have hlisted := liveCount_le_length db' t
    (j :: ((productsWhere db fun p => p.tenantId == t && p.isActive && p.isPublished).filter
      fun p => p.1 != j).map Prod.fst) ?_
  · simpa [Query.eval] using hlisted
  · intro id hid
    by_cases hj : id = j
    · simp [hj]
    · obtain ⟨p, hrow, htenant, hactive, hpublished⟩ := h id hj hid
      refine List.mem_cons_of_mem _ (List.mem_map.2 ⟨(id, p), ?_, rfl⟩)
      refine List.mem_filter.2 ⟨mem_productsWhere.2 ⟨hrow, ?_⟩, by simpa using hj⟩
      simp [htenant, hactive, hpublished]

theorem otherLiveCount_le {j : Id} : Query.eval (.otherLiveCount t j) db ≤ liveCount db t := by
  refine (List.length_filter_le _ _).trans (le_of_eq ?_)
  rw [liveCount, Query.eval, List.length_map, List.length_insertionSort]

/-! ## The limit of a store -/

def overridden (db : Database) (t : Id) : Option Int :=
  ((db.row (.tenant t)).bind Tenant.limitsOverride).bind fun o =>
    o.maxProducts.filter fun n => decide (-1 ≤ n)

/-- The limit of a plan; that of no plan is the fallback. -/
def planLimit (db : Database) (plan : Option Id) : Int :=
  ((plan.bind (findPlan db)).map Plan.maxProducts).getD fallbackEntitlements.maxProducts

def rowLapsed (db : Database) (sub : Subscription) (time : Time) : Bool :=
  isLapsed ⟨0, sub, findPlan db sub.planId⟩ time

/-- The plan that a row gives its store at the time. -/
def grantedPlan (db : Database) (row : Option Subscription) (time : Time) : Option Id :=
  (row.filter fun sub => !rowLapsed db sub time).map Subscription.planId

def rowLimit (db : Database) (t : Id) (row : Option Subscription) (time : Time) : Int :=
  (overridden db t).getD (planLimit db (grantedPlan db row time))

theorem maxProducts_applyLimitsOverride (base : PlanEntitlements) (o : Option LimitsOverride) :
    (applyLimitsOverride base o).maxProducts =
      ((o.bind fun o => o.maxProducts.filter fun n => decide (-1 ≤ n))).getD base.maxProducts := by
  cases o <;> rfl

theorem limit_eq : (entitlementsAt db t time).maxProducts = rowLimit db t (storeRow db t) time := by
  rw [entitlementsAt, maxProducts_applyLimitsOverride, rowLimit, overridden]
  refine congrArg (Option.getD _) ?_
  cases hcurrent : Query.eval (.currentSubscription t) db with
  | none =>
      rw [storeRow, hcurrent]
      rfl
  | some c =>
      obtain ⟨j, sub, plan⟩ := c
      have hplan : plan = findPlan db sub.planId := current_plan hcurrent
      subst hplan
      have hlapsed : isLapsed ⟨j, sub, findPlan db sub.planId⟩ time =
          rowLapsed db sub.undated time := rfl
      rw [storeRow_of_current hcurrent, grantedPlan, Option.filter, Option.filter, hlapsed]
      cases hrow : rowLapsed db sub.undated time with
      | true => simp [planEntitlements, planLimit]
      | false =>
          simp only [planLimit, planEntitlements]
          cases hfound : findPlan db sub.planId <;> simp [Subscription.undated, hfound]

theorem rowLapsed_mono (h : T ≤ T') (hlapsed : rowLapsed db sub T = true) :
    rowLapsed db sub T' = true := by
  simp only [rowLapsed, isLapsed, Bool.and_eq_true, Option.any_eq_true, decide_eq_true_eq] at *
  obtain ⟨hpaid, graceEnd, hgrace, hle⟩ := hlapsed
  exact ⟨hpaid, graceEnd, hgrace, hle.trans h⟩

/-- The sweep has noticed that the row is lapsed, if it is. -/
def Noticed (db : Database) (row : Option Subscription) (time : Time) : Prop :=
  ∀ sub, row = some sub → rowLapsed db sub time = true → .downgraded ∈ sub.expiryNoticesSent

/-- The store has no more live products than the limit, when the sweep has noticed its
lapse or the limit does not depend on its plan. -/
def Fits (db : Database) (t : Id) (row : Option Subscription) (time : Time) : Prop :=
  (overridden db t).isSome = true ∨ Noticed db row time →
    rowLimit db t row time ≠ -1 → (liveCount db t : Int) ≤ rowLimit db t row time

/-- A row that is marked as downgraded is lapsed, or never ends. -/
def MarkHolds (db : Database) (sub : Subscription) (time : Time) : Prop :=
  .downgraded ∈ sub.expiryNoticesSent → sub.expiresAt = none ∨ rowLapsed db sub time = true

structure Plain (T : Time) (db : Database) : Prop where
  one : OneEach db
  isOpen : ∀ (id : Id) (sub : Subscription), db.row (.subscription id) = some sub →
    sub.isOpen = true
  limits : ∀ id plan, findPlan db id = some plan → -1 ≤ plan.maxProducts
  marks : ∀ (id : Id) (sub : Subscription), db.row (.subscription id) = some sub →
    MarkHolds db sub T

/-- No store has more live products than its plan allows. -/
structure WithinLimits (T : Time) (db : Database) : Prop extends Plain T db where
  fits : ∀ t, Fits db t (storeRow db t) T

theorem rowLapsed_of_none (h : sub.expiresAt = none) : rowLapsed db sub time = false := by
  simp [rowLapsed, isLapsed, graceEndsAt, h]

theorem rowLimit_stable (hle : T ≤ time) (hle' : time ≤ T') {row : Option Subscription}
    (hmarks : ∀ sub, row = some sub → MarkHolds db sub T)
    (hcounts : (overridden db t).isSome = true ∨ Noticed db row T') :
    rowLimit db t row time = rowLimit db t row T' ∧
      ((overridden db t).isSome = true ∨ Noticed db row time) := by
  cases hover : overridden db t with
  | some limit => simp [rowLimit, hover]
  | none =>
      have hnoticed : Noticed db row T' := by simpa [hover] using hcounts
      -- the row is lapsed at both times or at none
      have hsame : ∀ sub, row = some sub → rowLapsed db sub time = rowLapsed db sub T' := by
        intro sub hsub
        cases hlater : rowLapsed db sub T' with
        | true =>
            rcases hmarks sub hsub (hnoticed sub hsub hlater) with hnone | hlapsed
            · rw [rowLapsed_of_none hnone] at hlater
              cases hlater
            · exact rowLapsed_mono hle hlapsed
        | false =>
            cases hnow : rowLapsed db sub time with
            | false => rfl
            | true =>
                rw [rowLapsed_mono hle' hnow] at hlater
                cases hlater
      constructor
      · have hgranted : grantedPlan db row time = grantedPlan db row T' := by
          cases row with
          | none => rfl
          | some sub => simp [grantedPlan, Option.filter, hsame sub rfl]
        rw [rowLimit, rowLimit, hgranted]
      · exact .inr fun sub hsub hlapsed => hnoticed sub hsub ((hsame sub hsub).symm.trans hlapsed)

theorem Plain.mark_of_storeRow (h : Plain T db) {row : Subscription}
    (hrow : storeRow db t = some row) : MarkHolds db row T := by
  obtain ⟨j, sub, hsub, -, rfl⟩ := exists_row_of_storeRow hrow
  exact h.marks j sub hsub

theorem Plain.later (h : Plain T db) (hle : T ≤ T') : Plain T' db where
  one := h.one
  isOpen := h.isOpen
  limits := h.limits
  marks id sub hrow hmarked := (h.marks id sub hrow hmarked).imp_right (rowLapsed_mono hle)

theorem WithinLimits.later (h : WithinLimits T db) (hle : T ≤ T') : WithinLimits T' db where
  toPlain := h.toPlain.later hle
  fits t hcounts := by
    obtain ⟨heq, hnow⟩ := rowLimit_stable le_rfl hle (fun sub => h.mark_of_storeRow) hcounts
    rw [← heq]
    exact h.fits t hnow

theorem Plain.le_rowLimit (h : Plain T db) (row : Option Subscription) (time : Time) :
    -1 ≤ rowLimit db t row time := by
  have hplan : -1 ≤ planLimit db (grantedPlan db row time) := by
    rw [planLimit]
    cases hfound : (grantedPlan db row time).bind (findPlan db) with
    | none => decide
    | some plan =>
        obtain ⟨p, -, hp⟩ := Option.bind_eq_some_iff.1 hfound
        exact h.limits p plan hp
  rw [rowLimit]
  cases hover : overridden db t with
  | none => exact hplan
  | some limit =>
      obtain ⟨o, -, ho⟩ := Option.bind_eq_some_iff.1 hover
      simpa using (Option.filter_eq_some_iff.1 ho).2

/-! ## What one write keeps -/

structure SamePlans (db db' : Database) : Prop where
  plans : ∀ id, db'.row (.plan id) = db.row (.plan id)
  tenants : ∀ id, db'.row (.tenant id) = db.row (.tenant id)

theorem SamePlans.set {k : Key} {v : Option (Row k)} (hplan : ∀ id, Key.plan id ≠ k)
    (htenant : ∀ id, Key.tenant id ≠ k) : SamePlans db (db.set k v) where
  plans id := Store.set_row_of_ne _ _ (hplan id)
  tenants id := Store.set_row_of_ne _ _ (htenant id)

theorem SamePlans.findPlan_eq (h : SamePlans db db') : findPlan db' = findPlan db := funext h.plans

theorem SamePlans.rowLapsed_eq (h : SamePlans db db') (sub : Subscription) (time : Time) :
    rowLapsed db' sub time = rowLapsed db sub time := by
  rw [rowLapsed, rowLapsed, h.findPlan_eq]

theorem SamePlans.overridden_eq (h : SamePlans db db') (t : Id) :
    overridden db' t = overridden db t := by
  rw [overridden, overridden, h.tenants]

theorem SamePlans.rowLimit_eq (h : SamePlans db db') (t : Id) (row : Option Subscription)
    (time : Time) : rowLimit db' t row time = rowLimit db t row time := by
  have hgranted : grantedPlan db' row time = grantedPlan db row time := by
    simp only [grantedPlan, h.rowLapsed_eq]
  rw [rowLimit, rowLimit, hgranted, h.overridden_eq, planLimit, planLimit, h.findPlan_eq]

theorem Fits.of_fewer {row : Option Subscription} (h : Fits db t row T) (hsame : SamePlans db db')
    (hlive : liveCount db' t ≤ liveCount db t) : Fits db' t row T := by
  intro hcounts hlimited
  rw [hsame.rowLimit_eq] at hlimited ⊢
  have hbefore : (overridden db t).isSome = true ∨ Noticed db row T := by
    rw [hsame.overridden_eq] at hcounts
    exact hcounts.imp_right fun hnoticed sub hsub hlapsed =>
      hnoticed sub hsub ((hsame.rowLapsed_eq sub T).trans hlapsed)
  exact le_trans (by exact_mod_cast hlive) (h hbefore hlimited)

theorem Fits.of_same {sub' : Subscription} (h : Fits db t (some sub) T)
    (hplan : sub'.planId = sub.planId) (hexpires : sub'.expiresAt = sub.expiresAt)
    (hmarked : .downgraded ∈ sub'.expiryNoticesSent → .downgraded ∈ sub.expiryNoticesSent) :
    Fits db t (some sub') T := by
  have hlapsed : ∀ time, rowLapsed db sub' time = rowLapsed db sub time := by
    intro time
    simp only [rowLapsed, isLapsed, hplan, hexpires]
  have hlimit : rowLimit db t (some sub') T = rowLimit db t (some sub) T := by
    have hgranted : grantedPlan db (some sub') T = grantedPlan db (some sub) T := by
      simp [grantedPlan, Option.filter, hlapsed, apply_ite (Option.map Subscription.planId), hplan]
    rw [rowLimit, rowLimit, hgranted]
  intro hcounts hlimited
  rw [hlimit] at hlimited ⊢
  refine h (hcounts.imp_right fun hnoticed s hs hrow => ?_) hlimited
  cases hs
  exact hmarked (hnoticed sub' rfl ((hlapsed T).trans hrow))

theorem WithinLimits.product (h : WithinLimits T db) {v : Option Product}
    (hfits : ∀ t, (overridden db t).isSome = true ∨ Noticed db (storeRow db t) T →
      rowLimit db t (storeRow db t) T ≠ -1 →
        (liveCount (db.set (.product id) v) t : Int) ≤ rowLimit db t (storeRow db t) T) :
    WithinLimits T (db.set (.product id) v) := by
  have hsame : SamePlans db (db.set (.product id) v) := .set (by simp) (by simp)
  have hrow : ∀ j, (db.set (.product id) v).row (.subscription j) = db.row (.subscription j) :=
    fun j => Store.set_row_of_ne _ _ (by simp)
  have hone : OneEach (db.set (.product id) v) := by
    intro j j' s s' hs hs'
    exact h.one j j' s s' (hrow j ▸ hs) (hrow j' ▸ hs')
  refine ⟨⟨hone, ?_, ?_, ?_⟩, fun t => ?_⟩
  · exact fun j s hs => h.isOpen j s (hrow j ▸ hs)
  · exact fun p plan hplan => h.limits p plan (hsame.findPlan_eq ▸ hplan)
  · intro j s hs hmarked
    rw [hsame.rowLapsed_eq]
    exact h.marks j s (hrow j ▸ hs) hmarked
  · have hrows : SameRows db (db.set (.product id) v) t := by
      intro j s _
      rw [hrow]
    rw [hrows.storeRow_eq h.one hone]
    intro hcounts hlimited
    rw [hsame.rowLimit_eq] at hlimited ⊢
    rw [hsame.overridden_eq] at hcounts
    refine hfits t (hcounts.imp_right fun hnoticed s hs hlapsed => ?_) hlimited
    exact hnoticed s hs ((hsame.rowLapsed_eq s T).trans hlapsed)

theorem WithinLimits.fewer (h : WithinLimits T db) {v : Option Product}
    (hfewer : ∀ t, liveCount (db.set (.product id) v) t ≤ liveCount db t) :
    WithinLimits T (db.set (.product id) v) :=
  h.product fun t hcounts hlimited =>
    le_trans (by exact_mod_cast hfewer t) (h.fits t hcounts hlimited)

theorem Plain.write (h : Plain T db)
    (hold : ∀ old, db.row (.subscription id) = some old → old.tenantId = sub.tenantId)
    (hnew : db.row (.subscription id) = none → Unsubscribed sub.tenantId db)
    (hopen : sub.isOpen = true) (hmark : MarkHolds db sub T) :
    Plain T (db.set (.subscription id) (some sub)) := by
  have hsame : SamePlans db (db.set (.subscription id) (some sub)) := .set (by simp) (by simp)
  refine ⟨(wrote_set id sub h.one hold hnew).one, ?_, ?_, ?_⟩
  · intro j s hs
    by_cases hj : j = id
    · subst hj
      rw [Store.set_row_self] at hs
      cases hs
      exact hopen
    · rw [subscription_set _ _ hj] at hs
      exact h.isOpen j s hs
  · exact fun p plan hplan => h.limits p plan (hsame.findPlan_eq ▸ hplan)
  · intro j s hs hmarked
    rw [hsame.rowLapsed_eq]
    by_cases hj : j = id
    · subst hj
      rw [Store.set_row_self] at hs
      cases hs
      exact hmark hmarked
    · rw [subscription_set _ _ hj] at hs
      exact h.marks j s hs hmarked

/-- What fits the stores other than the one whose row is written. -/
theorem Fits.write_other (h : Fits db t (storeRow db t) T) (hone : OneEach db)
    (hold : ∀ old, db.row (.subscription id) = some old → old.tenantId = sub.tenantId)
    (hnew : db.row (.subscription id) = none → Unsubscribed sub.tenantId db)
    (ht : t ≠ sub.tenantId) :
    Fits (db.set (.subscription id) (some sub)) t
      (storeRow (db.set (.subscription id) (some sub)) t) T := by
  have hwrote := wrote_set id sub hone hold hnew
  rw [(hwrote.others t ht).storeRow_eq hone hwrote.one]
  refine h.of_fewer (.set (by simp) (by simp)) (liveCount_mono fun j hlive => ?_)
  obtain ⟨p, hrow, hp⟩ := hlive
  exact ⟨p, (hwrote.rest (.product j) (by simp)).symm.trans hrow, hp⟩

theorem WithinLimits.write (h : WithinLimits T db)
    (hold : ∀ old, db.row (.subscription id) = some old → old.tenantId = sub.tenantId)
    (hnew : db.row (.subscription id) = none → Unsubscribed sub.tenantId db)
    (hopen : sub.isOpen = true) (hmark : MarkHolds db sub T)
    (hfits : Fits db sub.tenantId (some sub) T) :
    WithinLimits T (db.set (.subscription id) (some sub)) where
  toPlain := h.toPlain.write hold hnew hopen hmark
  fits t := by
    by_cases ht : t = sub.tenantId
    · subst ht
      have hwrote := wrote_set id sub h.one hold hnew
      rw [hwrote.row]
      have hundated : Fits db sub.tenantId (some sub.undated) T :=
        hfits.of_same rfl rfl fun hmarked => hmarked
      refine hundated.of_fewer (.set (by simp) (by simp)) (liveCount_mono fun j hlive => ?_)
      obtain ⟨p, hrow, hp⟩ := hlive
      exact ⟨p, (hwrote.rest (.product j) (by simp)).symm.trans hrow, hp⟩
    · exact (h.fits t).write_other h.one hold hnew ht

theorem WithinLimits.patch (h : WithinLimits T db) {f : Subscription → Subscription}
    (hrow : db.row (.subscription id) = some sub) (htenant : (f sub).tenantId = sub.tenantId)
    (hopen : (f sub).isOpen = true) (hmark : MarkHolds db (f sub) T)
    (hfits : Fits db sub.tenantId (some (f sub)) T) :
    WithinLimits T (db.set (.subscription id) ((db.row (.subscription id)).map f)) := by
  rw [hrow]
  refine h.write ?_ ?_ hopen hmark (htenant ▸ hfits)
  · intro old hold
    rw [hrow] at hold
    cases hold
    exact htenant.symm
  · intro hnone
    rw [hrow] at hnone
    cases hnone

theorem WithinLimits.fits_row (h : WithinLimits T db) (hrow : db.row (.subscription id) = some sub) :
    Fits db sub.tenantId (some sub) T := by
  have hfits := h.fits sub.tenantId
  rw [storeRow_of_row h.one hrow] at hfits
  exact hfits.of_same rfl rfl fun hmarked => hmarked

/-- A change of the row that leaves its plan and its period, and marks nothing. -/
theorem WithinLimits.mild (h : WithinLimits T db) {f : Subscription → Subscription}
    (hrow : db.row (.subscription id) = some sub) (htenant : (f sub).tenantId = sub.tenantId)
    (hopen : (f sub).isOpen = true) (hplan : (f sub).planId = sub.planId)
    (hexpires : (f sub).expiresAt = sub.expiresAt)
    (hmarked : .downgraded ∈ (f sub).expiryNoticesSent → .downgraded ∈ sub.expiryNoticesSent) :
    WithinLimits T (db.set (.subscription id) ((db.row (.subscription id)).map f)) := by
  refine h.patch hrow htenant hopen (fun hnew => ?_) ((h.fits_row hrow).of_same hplan hexpires hmarked)
  have hmark := h.marks id sub hrow (hmarked hnew)
  rw [rowLapsed, isLapsed] at hmark ⊢
  rw [hplan, hexpires]
  exact hmark

/-- The store may be moved to the plan: the limit of the plan is not exceeded, or does not
count for the store. -/
def FitsPlan (db : Database) (t p : Id) : Prop :=
  overridden db t = none → planLimit db (some p) ≠ -1 → (liveCount db t : Int) ≤ planLimit db (some p)

theorem WithinLimits.fits_moved (h : WithinLimits T db) (hmarks : sub.expiryNoticesSent = [])
    (hplan : FitsPlan db t sub.planId) : Fits db t (some sub) T := by
  intro hcounts hlimited
  cases hover : overridden db t with
  | some limit =>
      -- a limit that is set for the store is the same on every plan
      have hsame : rowLimit db t (some sub) T = rowLimit db t (storeRow db t) T := by
        simp [rowLimit, hover]
      rw [hsame] at hlimited ⊢
      exact h.fits t (.inl (by simp [hover])) hlimited
  | none =>
      have hnoticed : Noticed db (some sub) T := by simpa [hover] using hcounts
      have hlive : rowLapsed db sub T = false := by
        cases hlapsed : rowLapsed db sub T with
        | false => rfl
        | true => simpa [hmarks] using hnoticed sub rfl hlapsed
      have hlimit : rowLimit db t (some sub) T = planLimit db (some sub.planId) := by
        simp [rowLimit, hover, grantedPlan, Option.filter, hlive]
      rw [hlimit] at hlimited ⊢
      exact hplan hover hlimited

/-! ## What the services keep -/

def clock (T T' : Time) : Allowed
  | .now, time => T ≤ time ∧ time ≤ T'
  | _, _ => True

variable {σ : Session billing} {inTx : Bool} {p : Id}

abbrev KeepsLimits {α : Type} (T T' : Time) (prog : Prog billing α) (σ : Session billing)
    (Q : α → Session billing → Prop) : Prop :=
  KeepsUnder (clock T T') (WithinLimits T') prog σ Q

theorem limits_createSubscription (hσ : Holds (WithinLimits T') σ)
    (hfresh : Unsubscribed sub.tenantId σ.view) (hopen : sub.isOpen = true)
    (hmarks : sub.expiryNoticesSent = []) (hplan : FitsPlan σ.view sub.tenantId sub.planId) :
    KeepsLimits T T' (createSubscription sub) σ fun _ _ => True := by
  refine (keeps_createSubscription hσ fun id hnone _ _ => ?_).mono hσ fun _ _ _ _ => trivial
  refine hσ.view.write ?_ (fun _ => hfresh) hopen (by simp [MarkHolds, hmarks])
    (hσ.view.fits_moved hmarks hplan)
  intro old hold
  rw [hnone] at hold
  cases hold

theorem planLimit_of_row {plan : Plan} (h : findPlan db p = some plan) :
    planLimit db (some p) = plan.maxProducts := by simp [planLimit, h]

/-- A switch is refused when the store has too many products. -/
theorem limits_subscribe (hσ : Holds (WithinLimits T') σ) (t p : Id) :
    KeepsLimits T T' (subscribe t p) σ fun _ _ => True := by
  refine keeps_ask (keeps_demand fun plan hplan => keeps_check fun _ => ?_)
  have hfound : findPlan σ.view p = some plan := (Option.filter_eq_some_iff.1 hplan).1
  refine (keeps_assertUnderNewProductLimit t plan.maxProducts).seq hσ
    fun _ σ' hσ ⟨hsame, hroom⟩ => ?_
  subst hsame
  have hfits : FitsPlan σ'.view t p := by
    intro _ hlimited
    rw [planLimit_of_row hfound] at hlimited ⊢
    exact le_trans (by exact_mod_cast liveCount_le_productCount) (hroom hlimited)
  refine keeps_ask (keeps_check fun _ => keeps_invoke fun time _ => keeps_ask ?_)
  split
  · next existing hopen =>
      obtain ⟨hrow, rfl⟩ := open_some hopen
      have hswitch : WithinLimits T' (applyUpdate (S := billing) (.switchFree existing.id p
          (computeExpiry plan.duration time)) σ'.view) :=
        hσ.view.patch hrow rfl rfl (by simp [MarkHolds]) (hσ.view.fits_moved rfl hfits)
      exact (keeps_updateOne fun _ => hswitch).mono hσ fun _ _ _ _ => trivial
  · next hopen =>
      exact (limits_createSubscription hσ (open_none hσ.view.isOpen hopen) rfl rfl hfits).seq hσ
        fun _ _ _ _ => trivial

theorem limits_requestUpgrade (hσ : Holds (WithinLimits T') σ) (t p : Id)
    (reference : Option String)
    (hfits : Query.eval (.currentSubscription t) σ.view = none →
      ∀ freePlan, Query.eval .freePlan σ.view = some freePlan → FitsPlan σ.view t freePlan) :
    KeepsLimits T T' (requestUpgrade t p reference) σ fun _ _ => True := by
  refine keeps_ask (keeps_demand fun plan _ => keeps_check fun _ => ?_)
  refine keeps_ask (keeps_check fun _ => ?_)
  have hattached : KeepsLimits T T' (subscriptionToUpgrade t
      (Query.eval (.currentSubscription t) σ.view)) σ fun _ _ => True := by
    unfold subscriptionToUpgrade
    split
    · exact trivial
    · next hcurrent =>
        refine keeps_ask (keeps_demand fun freePlanId hfree => keeps_invoke fun time _ => ?_)
        exact limits_createSubscription hσ (current_none hcurrent) rfl rfl
          (hfits hcurrent freePlanId hfree)
  refine hattached.seq hσ fun id σ' hσ' _ => ?_
  refine (keeps_updateOne fun hguard => ?_).mono hσ' fun _ _ _ _ => trivial
  obtain ⟨sub, hrow⟩ := Option.isSome_iff_exists.1 hguard
  exact hσ'.view.mild hrow rfl rfl rfl rfl fun h => h

theorem limits_rejectUpgrade (hσ : Holds (WithinLimits T') σ) (id : Id) :
    KeepsLimits T T' (rejectUpgrade inTx id) σ fun _ _ => True := by
  refine keeps_findSubscription id fun c hfound => keeps_check fun _ => ?_
  have hreject : WithinLimits T' (applyUpdate (S := billing) (.rejectUpgrade id) σ.view) :=
    hσ.view.mild (find_some hfound).2 rfl rfl rfl rfl fun h => h
  exact (keeps_writeIn hσ fun _ => hreject).mono hσ fun _ _ _ _ => trivial

/-- A payment moves the store to a plan, which must fit. -/
theorem limits_activatePlan (hσ : Holds (WithinLimits T') σ) (period : PaidPeriod)
    (hfits : FitsPlan σ.view t p) :
    KeepsLimits T T' (activatePlan inTx t p period) σ fun _ _ => True := by
  refine keeps_ask ((keeps_assertBilledOnce period _).seq hσ fun _ σ' hσ hsame => ?_)
  subst hsame
  split
  · next current hcurrent =>
      obtain ⟨hrow, rfl⟩ := current_some hcurrent
      have hactivate : WithinLimits T' (applyUpdate (S := billing)
          (.activatePlan current.id p period) σ'.view) :=
        hσ.view.patch hrow rfl rfl (by simp [MarkHolds]) (hσ.view.fits_moved rfl hfits)
      refine keeps_ask (keeps_check fun _ => ?_)
      exact (keeps_writeIn hσ fun _ => hactivate).mono hσ fun _ _ _ _ => trivial
  · next hcurrent =>
      refine keeps_invoke fun time _ => ?_
      refine (limits_createSubscription hσ (current_none hcurrent) rfl rfl hfits).seq hσ
        fun _ _ hσ _ => keeps_settle_last.mono hσ fun _ _ _ _ => trivial

/-- A check at a time of the request is one against the limit at its end. -/
theorem Plain.limit_eq_later (h : Plain T db) (htime : T ≤ time ∧ time ≤ T')
    (hcounts : (overridden db t).isSome = true ∨ Noticed db (storeRow db t) T') :
    (entitlementsAt db t time).maxProducts = rowLimit db t (storeRow db t) T' :=
  limit_eq.trans (rowLimit_stable htime.1 htime.2 (fun _ => h.mark_of_storeRow) hcounts).1

theorem product_set_of_ne {v : Option Product} {j : Id} (h : j ≠ id) :
    (db.set (.product id) v).row (.product j) = db.row (.product j) :=
  Store.set_row_of_ne _ _ (by simpa using h)

theorem LiveIn.of_set {v : Option Product} {j : Id} (h : LiveIn (db.set (.product id) v) t j)
    (hother : ∀ q, v = some q → q.tenantId ≠ t) : LiveIn db t j := by
  obtain ⟨q, hrow, hq⟩ := h
  by_cases hj : j = id
  · subst hj
    rw [Store.set_row_self] at hrow
    exact absurd hq.1 (hother q hrow)
  · exact ⟨q, (product_set_of_ne hj).symm.trans hrow, hq⟩

theorem limits_create (hσ : Holds (WithinLimits T') σ) (hdb : Plain T σ.view) (t : Id)
    (dto : ProductsService.ProductDto) :
    KeepsLimits T T' (ProductsService.create t dto) σ fun _ _ => True := by
  refine keeps_create hσ dto fun id row time htenant hnone htime hroom => ?_
  refine hσ.view.product fun t' hcounts hlimited => ?_
  by_cases ht : t' = t
  · subst ht
    rw [hdb.limit_eq_later htime hcounts] at hroom
    have hone : liveCount (σ.view.set (.product id) (some row)) t' ≤
        Query.eval (.productCount t') σ.view + 1 := by
      have hlisted := liveCount_le_length (σ.view.set (.product id) (some row)) t'
        (id :: (productsWhere σ.view fun p => p.tenantId == t').map Prod.fst) ?_
      · simpa [Query.eval] using hlisted
      · rintro j ⟨q, hrow, hq, -⟩
        by_cases hj : j = id
        · simp [hj]
        · rw [product_set_of_ne hj] at hrow
          exact List.mem_cons_of_mem _ (List.mem_map.2
            ⟨(j, q), mem_productsWhere.2 ⟨hrow, by simp [hq]⟩, rfl⟩)
    have hless := hroom hlimited
    have hone' : (liveCount (σ.view.set (.product id) (some row)) t' : Int) ≤
        (Query.eval (.productCount t') σ.view : Int) + 1 := by exact_mod_cast hone
    exact hone'.trans hless
  · refine le_trans ?_ (hσ.view.fits t' hcounts hlimited)
    exact_mod_cast liveCount_mono fun j hlive => hlive.of_set fun q hq => by
      cases hq
      exact fun h => ht (h.symm.trans htenant)

/-- A product that is switched on finds room among the other live ones. -/
theorem WithinLimits.switch (h : WithinLimits T' db) {q q' : Product}
    (hrow : db.row (.product id) = some q) (htenant : q'.tenantId = q.tenantId)
    (hroom : (q'.isActive && q'.isPublished && !(q.isActive && q.isPublished)) = true →
      (overridden db q.tenantId).isSome = true ∨ Noticed db (storeRow db q.tenantId) T' →
        rowLimit db q.tenantId (storeRow db q.tenantId) T' ≠ -1 →
          (Query.eval (.otherLiveCount q.tenantId id) db : Int) <
            rowLimit db q.tenantId (storeRow db q.tenantId) T') :
    WithinLimits T' (db.set (.product id) (some q')) := by
  cases hon : q'.isActive && q'.isPublished && !(q.isActive && q.isPublished) with
  | false =>
      refine h.fewer fun t => liveCount_mono fun j hlive => ?_
      obtain ⟨x, hx, hxt, hxa, hxp⟩ := hlive
      by_cases hj : j = id
      · subst hj
        rw [Store.set_row_self] at hx
        cases hx
        have hwas : q.isActive = true ∧ q.isPublished = true := by simpa [hxa, hxp] using hon
        exact ⟨q, hrow, htenant.symm.trans hxt, hwas.1, hwas.2⟩
      · exact ⟨x, (product_set_of_ne hj).symm.trans hx, hxt, hxa, hxp⟩
  | true =>
      refine h.product fun t hcounts hlimited => ?_
      by_cases ht : t = q.tenantId
      · subst ht
        have hothers : liveCount (db.set (.product id) (some q')) q.tenantId ≤
            Query.eval (.otherLiveCount q.tenantId id) db + 1 :=
          liveCount_le_others fun j hj ⟨x, hx, hlive⟩ =>
            ⟨x, (product_set_of_ne hj).symm.trans hx, hlive⟩
        have hothers' : (liveCount (db.set (.product id) (some q')) q.tenantId : Int) ≤
            (Query.eval (.otherLiveCount q.tenantId id) db : Int) + 1 := by exact_mod_cast hothers
        exact hothers'.trans (hroom hon hcounts hlimited)
      · refine le_trans ?_ (h.fits t hcounts hlimited)
        exact_mod_cast liveCount_mono fun j hlive => hlive.of_set fun x hx => by
          cases hx
          exact fun h => ht (h.symm.trans htenant)

theorem limits_update (hσ : Holds (WithinLimits T') σ) (hdb : Plain T σ.view) (t id : Id)
    (dto : ProductsService.ProductDto) :
    KeepsLimits T T' (ProductsService.update t id dto) σ fun _ _ => True := by
  refine keeps_update hσ id dto fun q hrow htenant hchecked => ?_
  subst htenant
  have hswitch : WithinLimits T' (σ.view.set (.product id) (some { q with
      isActive := dto.isActive.getD q.isActive, isPublished := dto.isPublished.getD q.isPublished })) := by
    refine hσ.view.switch hrow rfl fun hon hcounts hlimited => ?_
    rcases hchecked with hsame | ⟨time, htime, hroom⟩
    · rw [hsame] at hon
      cases hon
    · rw [hdb.limit_eq_later htime hcounts] at hroom
      exact hroom hlimited
  simpa [applyUpdate, Update.key, Update.change, hrow] using hswitch

theorem limits_remove (hσ : Holds (WithinLimits T') σ) (t id : Id) :
    KeepsLimits T T' (ProductsService.remove t id) σ fun _ _ => True :=
  keeps_remove hσ id fun _ _ _ => hσ.view.fewer fun _ =>
    liveCount_mono fun _ hlive => hlive.of_set nofun

def FindsRoom (db : Database) (id : Id) (isActive : Bool) (time : Time) : Prop :=
  ∀ q : Product, db.row (.product id) = some q → isActive = true → q.isActive = false →
    q.isPublished = true →
      (overridden db q.tenantId).isSome = true ∨ Noticed db (storeRow db q.tenantId) time →
        rowLimit db q.tenantId (storeRow db q.tenantId) time ≠ -1 →
          (liveCount db q.tenantId : Int) < rowLimit db q.tenantId (storeRow db q.tenantId) time

theorem limits_moderate (hσ : Holds (WithinLimits T') σ) (id : Id) (isActive : Bool)
    (hroom : FindsRoom σ.view id isActive T') :
    KeepsLimits T T' (PlatformProductsService.moderate id isActive) σ fun _ _ => True := by
  refine keeps_moderate hσ id isActive fun q hrow => ?_
  have hswitch : WithinLimits T' (σ.view.set (.product id) (some { q with isActive })) := by
    refine hσ.view.switch hrow rfl fun hon hcounts hlimited => ?_
    simp only [Bool.and_eq_true, Bool.not_eq_true', Bool.and_eq_false_iff] at hon
    obtain ⟨⟨hactive, hpublished⟩, hwas⟩ := hon
    have hoff : q.isActive = false := by simpa [hpublished] using hwas
    have hless := hroom q hrow hactive hoff hpublished hcounts hlimited
    exact lt_of_le_of_lt (by exact_mod_cast otherLiveCount_le) hless
  simpa [applyUpdate, Update.key, Update.change, hrow] using hswitch

/-! ## Hiding what is over the limit -/

/-- Some live products were hidden, so that the store has no more than `limit`. -/
structure Hidden (db db' : Database) (t : Id) (limit : Int) : Prop where
  rest : ∀ k, (∀ id, k ≠ .product id) → db'.row k = db.row k
  live : ∀ t' id, LiveIn db' t' id → LiveIn db t' id
  within : limit ≠ -1 → (liveCount db' t : Int) ≤ limit

/-- The products `ids` were hidden, and nothing else was written. -/
structure Hides (db db' : Database) (ids : List Id) : Prop where
  rest : ∀ k, (∀ id, k ≠ .product id) → db'.row k = db.row k
  live : ∀ t id, LiveIn db' t id → LiveIn db t id ∧ id ∉ ids

theorem Hides.unpublish {ids : List Id} (h : Hides db db' ids) (j : Id) :
    Hides db (db'.set (.product j) ((db'.row (.product j)).map fun p : Product =>
      { p with isPublished := false })) (j :: ids) := by
  constructor
  · intro k hk
    rw [Store.set_row_of_ne _ _ (hk j)]
    exact h.rest k hk
  · rintro t id ⟨p, hrow, htenant, hactive, hpublished⟩
    by_cases hj : id = j
    · subst hj
      rw [Store.set_row_self] at hrow
      obtain ⟨q, -, rfl⟩ := Option.map_eq_some_iff.1 hrow
      cases hpublished
    · rw [product_set_of_ne hj] at hrow
      obtain ⟨hlive, hout⟩ := h.live t id ⟨p, hrow, htenant, hactive, hpublished⟩
      exact ⟨hlive, by simp [hj, hout]⟩

theorem Hides.missing {ids : List Id} (h : Hides db db' ids) {j : Id}
    (hnone : db'.row (.product j) = none) : Hides db db' (j :: ids) where
  rest := h.rest
  live t id hlive := by
    obtain ⟨hbefore, hout⟩ := h.live t id hlive
    refine ⟨hbefore, ?_⟩
    obtain ⟨p, hrow, -⟩ := hlive
    have hj : id ≠ j := by
      rintro rfl
      rw [hnone] at hrow
      cases hrow
    simp [hj, hout]

theorem unpublish_achieves {answer : Answers billing} {n : ℕ} {done : List Id} (ids : List Id)
    (h : Hides db σ.view done) :
    (Prog.each (fun id => do let _ ← updateMany (.unpublish id)) ids).Achieves (S := billing)
      answer n σ fun _ n' σ' _ => n ≤ n' ∧ Hides db σ'.view (ids.reverse ++ done) := by
  induction ids generalizing n σ done with
  | nil => exact ⟨le_rfl, h⟩
  | cons j ids ih =>
      have hfirst : (do let _ ← updateMany (.unpublish j) : Prog billing Unit).Achieves
          (S := billing) answer n σ fun _ n' σ' _ => n ≤ n' ∧ Hides db σ'.view (j :: done) := by
        constructor
        · exact fun _ => ⟨le_rfl, h.unpublish j⟩
        · exact fun hmiss => ⟨le_rfl, h.missing (Option.isSome_eq_false_iff.1 hmiss |>
            Option.isNone_iff_eq_none.1)⟩
      refine hfirst.seq fun _ n' σ' _ ⟨hn, hides⟩ => (ih hides).mono fun _ n'' _ _ ⟨hn', hall⟩ => ?_
      exact ⟨hn.trans hn', by simpa using hall⟩

/-- The products over the limit are the last ones of those live. -/
theorem Hides.hidden {limit : Int} {db'' : Database} (hlimit : -1 ≤ limit)
    (h : Hides db db' (((Query.eval (.liveProducts t) db).drop limit.toNat).reverse ++ []))
    (hview : db'' = db') : Hidden db db'' t limit := by
  subst hview
  refine ⟨h.rest, fun t' id hlive => (h.live t' id hlive).1, fun hlimited => ?_⟩
  have hkept := liveCount_le_length db'' t
    ((Query.eval (.liveProducts t) db).take limit.toNat) ?_
  · have hle := hkept.trans (List.length_take_le _ _)
    omega
  · intro id hlive
    obtain ⟨hbefore, hout⟩ := h.live t id hlive
    have hlisted := mem_liveProducts.2 hbefore
    rw [← List.take_append_drop limit.toNat (Query.eval (.liveProducts t) db)] at hlisted
    exact (List.mem_append.1 hlisted).resolve_right (by simpa using hout)

theorem hideProductsOverLimit_achieves {answer : Answers billing} {n : ℕ}
    (hlimit : -1 ≤ (entitlementsAt σ.view t (answer n .now)).maxProducts) :
    (hideProductsOverLimit inTx t).Achieves (S := billing) answer n σ fun _ n' σ' _ =>
      n ≤ n' ∧ (inTx = false → σ.db = σ.view → σ'.db = σ'.view) ∧
        Hidden σ.view σ'.view t (entitlementsAt σ.view t (answer n .now)).maxProducts := by
  have hentitled : (getEntitlements t).Achieves (S := billing) answer n σ fun entitlements n' σ' _ =>
      entitlements = entitlementsAt σ.view t (answer n .now) ∧ n' = n + 1 ∧ σ' = σ := ⟨rfl, rfl, rfl⟩
  refine hentitled.seq fun entitlements n' σ' _ ⟨heq, hn, hsame⟩ => ?_
  subst heq hn hsame
  split
  · next hunlimited =>
      refine ⟨Nat.le_succ n, fun _ h => h, fun _ _ => rfl, fun _ _ h => h, fun hlimited => ?_⟩
      exact absurd (by simpa using hunlimited) hlimited
  · next hlimited =>
      refine achieves_check ?_ (achieves_ask ?_)
      · have hne : (entitlementsAt σ'.view t (answer n .now)).maxProducts ≠ -1 := by
          simpa using hlimited
        simp only [decide_eq_false_iff_not, not_lt]
        omega
      · have hnone : Hides σ'.view σ'.view [] := ⟨fun _ _ => rfl, fun _ _ h => ⟨h, by simp⟩⟩
        refine (unpublish_achieves _ hnone).seq fun _ n' σ'' _ ⟨hn, hides⟩ => ?_
        cases inTx with
        | true => exact ⟨(Nat.le_succ n).trans hn, nofun, hides.hidden hlimit rfl⟩
        | false => exact ⟨(Nat.le_succ n).trans hn, fun _ _ => rfl, hides.hidden hlimit rfl⟩

theorem Hidden.samePlans {limit : Int} (h : Hidden db db' t limit) : SamePlans db db' where
  plans id := h.rest (.plan id) (by simp)
  tenants id := h.rest (.tenant id) (by simp)

/-- Once the products of the one store that may be over its limit are hidden, no store is
over it. -/
theorem Hidden.withinLimits {limit : Int} (h : Hidden db db' t limit) (hdb : Plain T db)
    (hothers : ∀ t', t' ≠ t → Fits db t' (storeRow db t') T)
    (hlimit : (overridden db t).isSome = true ∨ Noticed db (storeRow db t) T →
      limit = rowLimit db t (storeRow db t) T) : WithinLimits T db' := by
  have hsame := h.samePlans
  have hrow : ∀ j, db'.row (.subscription j) = db.row (.subscription j) :=
    fun j => h.rest (.subscription j) (by simp)
  have hone : OneEach db' := by
    intro j j' s s' hs hs'
    exact hdb.one j j' s s' (hrow j ▸ hs) (hrow j' ▸ hs')
  refine ⟨⟨hone, ?_, ?_, ?_⟩, fun t' => ?_⟩
  · exact fun j s hs => hdb.isOpen j s (hrow j ▸ hs)
  · exact fun p plan hplan => hdb.limits p plan (hsame.findPlan_eq ▸ hplan)
  · intro j s hs hmarked
    rw [hsame.rowLapsed_eq]
    exact hdb.marks j s (hrow j ▸ hs) hmarked
  · have hstore : storeRow db' t' = storeRow db t' := by
      have hrows : SameRows db db' t' := by
        intro j s _
        rw [hrow]
      exact hrows.storeRow_eq hdb.one hone
    rw [hstore]
    by_cases ht : t' = t
    · subst ht
      intro hcounts hlimited
      rw [hsame.rowLimit_eq] at hlimited ⊢
      have hbefore : (overridden db t').isSome = true ∨ Noticed db (storeRow db t') T := by
        rw [hsame.overridden_eq] at hcounts
        exact hcounts.imp_right fun hnoticed s hs hlapsed =>
          hnoticed s hs ((hsame.rowLapsed_eq s T).trans hlapsed)
      rw [← hlimit hbefore] at hlimited ⊢
      exact h.within hlimited
    · exact (hothers t' ht).of_fewer hsame (liveCount_mono (h.live t'))

theorem write_achieves {answer : Answers billing} {n : ℕ} {u : Update}
    (hguard : billing.guard u (σ.view.row (billing.key u)) = true) :
    (write inTx u).Achieves (S := billing) answer n σ fun _ n' σ' _ =>
      n' = n ∧ σ'.view = applyUpdate (S := billing) u σ.view ∧
        (inTx = false → σ'.db = σ'.view) := by
  have hupdate : (updateOne u).Achieves (S := billing) answer n σ fun _ n' σ' _ =>
      n' = n ∧ σ' = σ.apply u := achieves_write hguard ⟨rfl, rfl⟩
  refine hupdate.seq fun _ n' σ' _ ⟨hn, hsame⟩ => ?_
  subst hn hsame
  cases inTx with
  | true => exact ⟨rfl, rfl, nofun⟩
  | false => exact ⟨rfl, rfl, fun _ => rfl⟩

/-- The clock of a request goes from one time to the other. -/
structure Clocked (answer : Answers billing) (T T' : Time) : Prop where
  first : ∀ n, T ≤ answer n .now
  last : ∀ n, answer n .now ≤ T'
  mono : ∀ m n, m ≤ n → answer m .now ≤ answer n .now

theorem Clocked.clock {answer : Answers billing} (h : Clocked answer T T') (n : ℕ) (c : Call) :
    clock T T' c (answer n c) := by
  cases c with
  | now => exact ⟨h.first n, h.last n⟩
  | _ => exact trivial

theorem ends_findSubscription {answer : Answers billing} {n : ℕ} {α : Type}
    {R : Except Err α → ℕ → Session billing → Prop} {f : Current → Prog billing α} (id : Id)
    (herror : R (.error .recordNotFound) n σ.rollback)
    (hk : ∀ c, billing.eval (.subscription id) σ.view = some c →
      (f c).Ends (S := billing) answer n σ R) :
    (findSubscription id >>= f).Ends (S := billing) answer n σ R :=
  (ends_demand (fun _ => herror) hk : (orThrow (billing.eval (.subscription id) σ.view)
    Err.recordNotFound >>= f).Ends (S := billing) answer n σ R)

/-- An approval hides what is over the limit of the new plan. -/
theorem approveUpgrade_ends {answer : Answers billing} (h : WithinLimits T db)
    (hclock : Clocked answer T T') (id : Id) :
    (approveUpgrade inTx id).Ends (S := billing) answer 0 (.start db) fun _ _ σ =>
      WithinLimits T' σ.view := by
  have hlater : WithinLimits T' db := h.later ((hclock.first 0).trans (hclock.last 0))
  refine ends_findSubscription id hlater fun c hfound => ?_
  obtain ⟨hid, hrow⟩ := find_some hfound
  refine ends_check (fun _ => hlater) fun _ => ends_demand (fun _ => hlater) fun planId _ => ?_
  refine ends_ask (ends_demand (fun _ => hlater) fun plan hplan => ends_invoke ?_)
  have htail : ∀ expiresAt, (write inTx (.approveUpgrade id planId expiresAt) >>= fun _ =>
      runIf (plan.maxProducts != -1) do
        let _ ← hideProductsOverLimit inTx c.subscription.tenantId).Achieves (S := billing) answer
        (0 + 1) (.start db) fun _ _ σ' _ => WithinLimits T' σ'.view := ?_
  · refine (htail _).ends.mono fun _ _ _ hends => ?_
    obtain ⟨_, _, _, hwithin⟩ := hends
    exact hwithin
  intro expiresAt
  have hrow' : db.row (.subscription id) = some c.subscription := hrow
  have hhit : billing.guard (.approveUpgrade id planId expiresAt)
      ((Session.start (S := billing) db).view.row (.subscription id)) = true :=
    (congrArg Option.isSome hrow').trans rfl
  -- the row that the approval leaves
  obtain ⟨approved, hview, htenant, hplanId, hmarks, hopen⟩ : ∃ approved : Subscription,
      applyUpdate (S := billing) (.approveUpgrade id planId expiresAt) db =
        db.set (.subscription id) (some approved) ∧
      approved.tenantId = c.subscription.tenantId ∧ approved.planId = planId ∧
      approved.expiryNoticesSent = [] ∧ approved.isOpen = true := by
    refine ⟨{ c.subscription with
      planId, requestedPlanId := none, requestedPaymentReference := none, status := .active
      expiresAt, billingProvider := .manual, expiryNoticesSent := [] }, ?_, rfl, rfl, rfl, rfl⟩
    simp [applyUpdate, Update.key, Update.change, hrow']
  have hold : ∀ old, db.row (.subscription id) = some old → old.tenantId = approved.tenantId := by
    intro old hold
    rw [hrow'] at hold
    cases hold
    exact htenant.symm
  have hnew : db.row (.subscription id) = none → Unsubscribed approved.tenantId db := by
    intro hnone
    rw [hrow'] at hnone
    cases hnone
  have hmark : ∀ time, MarkHolds db approved time := by simp [MarkHolds, hmarks]
  refine (write_achieves hhit).seq fun _ n' σ' _ hwrote => ?_
  obtain ⟨_, hσ', _⟩ := hwrote
  have hwritten : σ'.view = db.set (.subscription id) (some approved) := hσ'.trans hview
  cases hlimited : plan.maxProducts != -1 with
  | false =>
      show WithinLimits T' σ'.view
      rw [hwritten]
      refine hlater.write hold hnew hopen (hmark T') (hlater.fits_moved hmarks ?_)
      intro _ hne
      rw [hplanId, planLimit_of_row (show findPlan db planId = some plan from hplan)] at hne
      exact absurd (by simpa using hlimited) hne
  | true =>
      have hwas : Plain T (db.set (.subscription id) (some approved)) :=
        h.toPlain.write hold hnew hopen (hmark T)
      have his : Plain T' σ'.view := by
        rw [hwritten]
        exact hlater.toPlain.write hold hnew hopen (hmark T')
      have hlimit : -1 ≤ (entitlementsAt σ'.view c.subscription.tenantId
          (answer n' .now)).maxProducts := by
        rw [limit_eq]
        exact his.le_rowLimit _ _
      refine (hideProductsOverLimit_achieves hlimit).seq fun _ _ σ'' _ hhid => ?_
      obtain ⟨_, _, hhidden⟩ := hhid
      refine hhidden.withinLimits his (fun t ht => ?_) fun hcounts => ?_
      · rw [hwritten]
        exact (hlater.fits t).write_other h.one hold hnew (htenant ▸ ht)
      · rw [hwritten] at hcounts ⊢
        exact hwas.limit_eq_later ⟨hclock.first n', hclock.last n'⟩ hcounts

/-! ## The sweep -/

def OnlyRow (id : Id) (db db' : Database) : Prop :=
  ∀ k, k ≠ .subscription id → (∀ j, k ≠ .product j) → db'.row k = db.row k

theorem OnlyRow.refl (id : Id) (db : Database) : OnlyRow id db db := fun _ _ _ => rfl

theorem OnlyRow.trans {db'' : Database} (h : OnlyRow id db db') (h' : OnlyRow id db' db'') :
    OnlyRow id db db'' := fun k hk hproduct => (h' k hk hproduct).trans (h k hk hproduct)

theorem OnlyRow.set (id : Id) (db : Database) (v : Option Subscription) :
    OnlyRow id db (db.set (.subscription id) v) := fun _ hk _ => Store.set_row_of_ne _ _ hk

theorem Hidden.onlyRow {limit : Int} (h : Hidden db db' t limit) (id : Id) : OnlyRow id db db' :=
  fun k _ hproduct => h.rest k hproduct

/-- A lapsed row that was marked is moved to the free plan, or left lapsed without one, and
its store's products over the limit are hidden. -/
theorem downgrade_achieves {answer : Answers billing} {n : ℕ} {c : Current}
    (h : Plain T' σ.view) (hrow : σ.view.row (.subscription c.id) = some sub)
    (htenant : c.subscription.tenantId = sub.tenantId)
    (hlapsed : rowLapsed σ.view sub T = true)
    (hothers : ∀ t, t ≠ sub.tenantId → Fits σ.view t (storeRow σ.view t) T')
    (hclock : ∀ m, n ≤ m → T ≤ answer m .now ∧ answer m .now ≤ T') :
    (downgrade c).Achieves (S := billing) answer n σ fun _ n' σ' _ =>
      n ≤ n' ∧ σ'.db = σ'.view ∧ WithinLimits T' σ'.view ∧ OnlyRow c.id σ.view σ'.view ∧
        ∃ sub', σ'.view.row (.subscription c.id) = some sub' := by
  have hle : T ≤ T' := (hclock n le_rfl).1.trans (hclock n le_rfl).2
  have hrest : ∀ m, n ≤ m → (do
      let freePlan ← findFreePlan
      write false (.downgrade c.id freePlan)
      let _ ← hideProductsOverLimit false c.subscription.tenantId : Prog billing Unit).Achieves
        (S := billing) answer m σ fun _ n' σ' _ =>
      n ≤ n' ∧ σ'.db = σ'.view ∧ WithinLimits T' σ'.view ∧ OnlyRow c.id σ.view σ'.view ∧
        ∃ sub', σ'.view.row (.subscription c.id) = some sub' := by
    intro m hm
    refine achieves_ask ?_
    generalize hfree : billing.eval Query.freePlan σ.view = freePlan
    have hhit : billing.guard (.downgrade c.id freePlan) (σ.view.row (.subscription c.id)) = true :=
      (congrArg Option.isSome hrow).trans rfl
    obtain ⟨down, hview, hdownTenant, hmark, hopen⟩ : ∃ down : Subscription,
        applyUpdate (S := billing) (.downgrade c.id freePlan) σ.view =
          σ.view.set (.subscription c.id) (some down) ∧ down.tenantId = sub.tenantId ∧
        (∀ time, T ≤ time → MarkHolds σ.view down time) ∧ down.isOpen = true := by
      refine ⟨{ sub with
        planId := freePlan.getD sub.planId
        expiresAt := if freePlan.isSome then none else sub.expiresAt
        billingProvider := .manual, stripeSubscriptionId := none, cancelAtPeriodEnd := false },
        ?_, rfl, ?_, h.isOpen c.id sub hrow⟩
      · simp [applyUpdate, Update.key, Update.change, hrow]
      · intro time htime _
        cases freePlan with
        | none => exact .inr (rowLapsed_mono htime hlapsed)
        | some planId => exact .inl rfl
    have hold : ∀ old, σ.view.row (.subscription c.id) = some old →
        old.tenantId = down.tenantId := by
      intro old hold
      rw [hrow] at hold
      cases hold
      exact hdownTenant.symm
    have hnew : σ.view.row (.subscription c.id) = none → Unsubscribed down.tenantId σ.view := by
      intro hnone
      rw [hrow] at hnone
      cases hnone
    have hsame : SamePlans σ.view (σ.view.set (.subscription c.id) (some down)) :=
      .set (by simp) (by simp)
    refine (write_achieves hhit).seq fun _ m' σ' _ hwrote => ?_
    obtain ⟨hm', hσ', hsettled⟩ := hwrote
    subst hm'
    have hwritten : σ'.view = σ.view.set (.subscription c.id) (some down) := hσ'.trans hview
    have his : Plain T' σ'.view := by
      rw [hwritten]
      exact h.write hold hnew hopen (hmark T' hle)
    have hlimit : -1 ≤ (entitlementsAt σ'.view c.subscription.tenantId
        (answer m' .now)).maxProducts := by
      rw [limit_eq]
      exact his.le_rowLimit _ _
    refine (hideProductsOverLimit_achieves hlimit).seq fun _ m'' σ'' _ hhid => ?_
    obtain ⟨hm'', hdb, hhidden⟩ := hhid
    have honly : OnlyRow c.id σ.view σ'.view := by
      rw [hwritten]
      exact .set _ _ _
    refine ⟨hm.trans hm'', hdb rfl (hsettled rfl), ?_, honly.trans (hhidden.onlyRow _), down, ?_⟩
    · refine hhidden.withinLimits his (fun t ht => ?_) fun hcounts => ?_
      · rw [hwritten]
        refine (hothers t ?_).write_other h.one hold hnew ?_
        · exact htenant ▸ ht
        · exact fun heq => ht (heq.trans (hdownTenant.trans htenant.symm))
      · obtain ⟨hnow, hnow'⟩ := hclock m' hm
        refine limit_eq.trans (rowLimit_stable hnow hnow' (fun s hs => ?_) hcounts).1
        obtain ⟨j, s', hs', hst, rfl⟩ := exists_row_of_storeRow hs
        -- the row of the store is the one that was written
        have hdown : σ'.view.row (.subscription c.id) = some down := by
          rw [hwritten]
          exact Store.set_row_self _ _ _
        have hj : j = c.id := his.one j c.id s' down hs' hdown
          (hst.trans (htenant.trans hdownTenant.symm))
        rw [hj, hdown] at hs'
        cases hs'
        intro hmarked
        rw [hwritten, hsame.rowLapsed_eq]
        exact hmark T le_rfl hmarked
    · rw [hhidden.rest (.subscription c.id) (by simp), hwritten]
      exact Store.set_row_self _ _ _
  unfold downgrade
  split
  · exact hrest n le_rfl
  · exact (hrest (n + 1) (Nat.le_succ n)).mono fun _ _ _ _ hdone => hdone

structure Handled (T' : Time) (c : Current) (db : Database) (n : ℕ) (n' : ℕ)
    (σ : Session billing) : Prop where
  later : n ≤ n'
  settled : σ.db = σ.view
  within : WithinLimits T' σ.view
  only : OnlyRow c.id db σ.view

theorem Handled.rollback {c : Current} {n n' : ℕ} (h : Handled T' c db n n' σ) : σ.rollback = σ :=
  congrArg (Session.mk σ.db) h.settled

theorem releaseNotice_ends {answer : Answers billing} {c : Current} {notice : ExpiryNotice}
    {n m : ℕ} (h : Handled T' c db n m σ) (hrow : σ.view.row (.subscription c.id) = some sub) :
    (releaseNotice c.id notice).Ends (S := billing) answer m σ fun v n' σ' =>
      v = .ok () ∧ Handled T' c db n n' σ' := by
  refine ends_ask ?_
  have hfound : billing.eval (.subscription c.id) σ.view =
      some ⟨c.id, sub, findPlan σ.view sub.planId⟩ := by simp [Query.eval, hrow]
  rw [hfound]
  have hhit : billing.guard (.setNotices c.id (sub.expiryNoticesSent.filter fun n => n != notice))
      (σ.view.row (.subscription c.id)) = true := (congrArg Option.isSome hrow).trans rfl
  refine (write_achieves hhit).ends.mono ?_
  rintro v n' σ' ⟨_, _, hv, rfl, hview, hsettled⟩
  have hwritten : σ'.view = σ.view.set (.subscription c.id)
      ((σ.view.row (.subscription c.id)).map fun s : Subscription =>
        { s with expiryNoticesSent := sub.expiryNoticesSent.filter fun n => n != notice }) := hview
  refine ⟨hv, h.later, hsettled rfl, ?_, ?_⟩
  · rw [hwritten]
    exact h.within.mild hrow rfl (h.within.isOpen c.id sub hrow) rfl rfl
      fun hmem => (List.mem_filter.1 hmem).1
  · rw [hwritten]
    exact h.only.trans (.set _ _ _)

theorem acted_ends {answer : Answers billing} {n : ℕ} {c : Current} {notice : ExpiryNotice}
    (hσ : σ.db = σ.view) (h : WithinLimits T' db)
    (hrow : db.row (.subscription c.id) = some c.subscription)
    (hdue : notice = .downgraded → rowLapsed db c.subscription T = true)
    (hview : σ.view = db.set (.subscription c.id) (some { c.subscription with
      expiryNoticesSent := c.subscription.expiryNoticesSent ++ [notice] }))
    (hclock : ∀ m, n ≤ m → T ≤ answer m .now ∧ answer m .now ≤ T') :
    (Prog.attempt do
      Prog.runIf (notice == .downgraded) (downgrade c)
      notify c notice).Ends (S := billing) answer n σ fun _ n' σ' =>
        Handled T' c db n n' σ' ∧ ∃ sub, σ'.view.row (.subscription c.id) = some sub := by
  have hle : T ≤ T' := (hclock n le_rfl).1.trans (hclock n le_rfl).2
  have hself : σ.view.row (.subscription c.id) = some { c.subscription with
      expiryNoticesSent := c.subscription.expiryNoticesSent ++ [notice] } := by
    rw [hview]
    exact Store.set_row_self _ _ _
  have honly : OnlyRow c.id db σ.view := by
    rw [hview]
    exact .set _ _ _
  have hold : ∀ old, db.row (.subscription c.id) = some old →
      old.tenantId = c.subscription.tenantId := by
    intro old hold
    rw [hrow] at hold
    cases hold
    rfl
  have hnew : db.row (.subscription c.id) = none → Unsubscribed c.subscription.tenantId db := by
    intro hnone
    rw [hrow] at hnone
    cases hnone
  -- the notice itself: whether it is queued or not, nothing more is written
  have hnotify : ∀ m (σ' : Session billing), Handled T' c db n m σ' →
      (∃ sub, σ'.view.row (.subscription c.id) = some sub) →
      (notify c notice).Ends (S := billing) answer m σ' fun _ n' σ'' =>
        Handled T' c db n n' σ'' ∧ ∃ sub, σ''.view.row (.subscription c.id) = some sub := by
    intro m σ' hdone hsome
    have hback : σ'.rollback = σ' := hdone.rollback
    have hnext : Handled T' c db n (m + 1) σ' :=
      ⟨hdone.later.trans (Nat.le_succ m), hdone.settled, hdone.within, hdone.only⟩
    refine ends_invoke (ends_throwIf (fun _ => ?_) fun _ => ⟨hnext, hsome⟩)
    rw [hback]
    exact ⟨hnext, hsome⟩
  refine Ends.attempt ?_
  cases hnotice : notice == .downgraded with
  | false =>
      refine hnotify n σ ⟨le_rfl, hσ, ?_, honly⟩ ⟨_, hself⟩
      rw [hview]
      have hne : notice ≠ .downgraded := by simpa using hnotice
      have hmarked : .downgraded ∈ c.subscription.expiryNoticesSent ++ [notice] →
          .downgraded ∈ c.subscription.expiryNoticesSent := by
        intro hmem
        exact (List.mem_append.1 hmem).resolve_right (by simpa using hne.symm)
      exact h.write hold hnew (h.isOpen c.id c.subscription hrow)
        (fun hmem => h.marks c.id c.subscription hrow (hmarked hmem))
        ((h.fits_row hrow).of_same rfl rfl hmarked)
  | true =>
      have hlapsed := hdue (by simpa using hnotice)
      have hsame : SamePlans db σ.view := by
        rw [hview]
        exact .set (by simp) (by simp)
      have hplain : Plain T' σ.view := by
        rw [hview]
        exact h.toPlain.write hold hnew (h.isOpen c.id c.subscription hrow)
          fun _ => .inr (rowLapsed_mono hle hlapsed)
      have hothers : ∀ t, t ≠ c.subscription.tenantId → Fits σ.view t (storeRow σ.view t) T' := by
        intro t ht
        rw [hview]
        exact (h.fits t).write_other h.one hold hnew ht
      have hdown := downgrade_achieves hplain hself rfl
        ((hsame.rowLapsed_eq _ T).trans hlapsed) hothers hclock
      refine Ends.seq (p := downgrade c) hdown.ends ?_ ?_
      · rintro ⟨⟩ m σ' ⟨_, _, -, hm, hσ', hwithin, hrest, hsome⟩
        exact hnotify m σ' ⟨hm, hσ', hwithin, honly.trans hrest⟩ hsome
      · rintro e m σ' ⟨_, _, ⟨⟩, -⟩

theorem dueExpiryNotice_downgraded {c : Current} (h : dueExpiryNotice c time = some .downgraded) :
    isLapsed c time = true := by
  rw [dueExpiryNotice] at h
  split at h
  · cases h
  split at h
  · cases h
  · next hlapsed =>
      by_contra hnot
      rw [if_neg hnot] at h
      split at h
      · cases h
      split at h
      · cases h
      split at h
      · cases h
      split at h
      · cases h
      · cases h

theorem handleCandidate_ends {answer : Answers billing} {n : ℕ} {c : Current} (hσ : σ.db = σ.view)
    (h : WithinLimits T' σ.view) (hrow : σ.view.row (.subscription c.id) = some c.subscription)
    (hplan : c.plan = findPlan σ.view c.subscription.planId)
    (hclock : ∀ m, n ≤ m → T ≤ answer m .now ∧ answer m .now ≤ T') :
    (handleCandidate c T).Ends (S := billing) answer n σ fun _ n' σ' =>
      Handled T' c σ.view n n' σ' := by
  have hsame : Handled T' c σ.view n n σ := ⟨le_rfl, hσ, h, .refl _ _⟩
  unfold handleCandidate
  split
  · exact hsame
  next notice hnotice =>
  refine ends_write (fun hguard => ?_) fun _ => ?_
  · have hview : ((σ.apply (.claimNotice c.id c.subscription.expiresAt notice)).commit).view =
        σ.view.set (.subscription c.id) (some { c.subscription with
          expiryNoticesSent := c.subscription.expiryNoticesSent ++ [notice] }) := by
      simp [applyUpdate, Update.key, Update.change, hrow]
    have hdue : notice = .downgraded → rowLapsed σ.view c.subscription T = true := by
      rintro rfl
      have hlapsed := dueExpiryNotice_downgraded hnotice
      rwa [isLapsed, hplan] at hlapsed
    refine ends_finish ((acted_ends rfl h hrow hdue hview hclock).seq ?_ ?_)
    · rintro acted m σ' ⟨hdone, sub, hsub⟩
      refine ends_runIf (fun _ => ?_) fun _ => hdone
      refine (releaseNotice_ends hdone hsub).seq (fun _ m' σ'' hdone' => ?_) ?_
      · obtain ⟨_, hreleased⟩ := hdone'
        show Handled T' c σ.view n m' σ''.rollback
        rw [hreleased.rollback]
        exact hreleased
      · rintro e m' σ'' ⟨⟨⟩, -⟩
    · rintro e m σ' ⟨hdone, -⟩
      exact hdone
  · have hcommitted : σ.commit = σ := congrArg (fun v => Session.mk v σ.view) hσ.symm
    refine ends_finish (ends_runIf (fun h => by cases h) fun _ => ?_)
    rw [hcommitted]
    exact hsame

theorem mem_candidates {c : Current} (hc : c ∈ Query.eval (.candidates time) db) :
    db.row (.subscription c.id) = some c.subscription ∧
      c.plan = findPlan db c.subscription.planId :=
  ⟨(mem_subscriptionsWhere hc).1, plan_of_mem hc⟩

theorem nodup_subscriptionsWhere (db : Database) (f : Subscription → Bool) :
    ((subscriptionsWhere db f).map Current.id).Nodup := by
  apply db.nodup_scan Key.subscription
  intro k c hk
  cases k with
  | subscription id =>
      obtain ⟨sub, -, rfl⟩ := Option.map_eq_some_iff.1 hk
      rfl
  | _ => cases hk

/-- The stores that the sweep has still to come to are as it read them. -/
structure Sweeping (T T' : Time) (rest : List Current) (n : ℕ) (σ : Session billing) : Prop where
  started : 1 ≤ n
  settled : σ.db = σ.view
  within : WithinLimits T' σ.view
  nodup : (rest.map Current.id).Nodup
  read : ∀ c ∈ rest, σ.view.row (.subscription c.id) = some c.subscription ∧
    c.plan = findPlan σ.view c.subscription.planId

/-- The sweep keeps the limits: what it moves to the free plan it brings within its limit. -/
theorem run_ends {answer : Answers billing} (h : WithinLimits T db) (hclock : Clocked answer T T') :
    run.Ends (S := billing) answer 0 (.start db) fun _ _ σ => WithinLimits T' σ.view := by
  have hlater : WithinLimits T' db := h.later ((hclock.first 0).trans (hclock.last 0))
  have hbetween : ∀ m, answer 0 .now ≤ answer m .now ∧ answer m .now ≤ T' :=
    fun m => ⟨hclock.mono 0 m (Nat.zero_le m), hclock.last m⟩
  refine ends_invoke (ends_ask ?_)
  have hstart : Sweeping (answer 0 .now) T'
      (billing.eval (.candidates (answer 0 .now + 7 * dayMs)) db) (0 + 1) (.start db) :=
    ⟨le_rfl, rfl, hlater, nodup_subscriptionsWhere db _, fun c hc => mem_candidates hc⟩
  refine (ends_each (I := Sweeping (answer 0 .now) T') hstart fun c rest n σ hI => ?_).mono
    fun _ _ _ hend => hend.2.within
  obtain ⟨hrow, hplan⟩ := hI.read c List.mem_cons_self
  have hhandled := handleCandidate_ends (n := n) hI.settled hI.within hrow hplan
    fun m _ => hbetween m
  have hattempt : (handleCandidate c (answer 0 .now)).attempt.Ends (S := billing) answer n σ
      fun v n' σ' => v.isOk = true ∧ Handled T' c σ.view n n' σ' :=
    Ends.attempt (hhandled.mono fun v n' σ' hdone => ⟨rfl, hdone⟩)
  refine hattempt.seq (fun _ n' σ' ⟨_, hdone⟩ => ⟨rfl, ?_⟩) ?_
  · show Sweeping (answer 0 .now) T' rest n' σ'
    obtain ⟨hnotin, hnodup⟩ := List.nodup_cons.1 hI.nodup
    refine ⟨hI.started.trans hdone.later, hdone.settled, hdone.within, hnodup, fun c' hc' => ?_⟩
    obtain ⟨hrow', hplan'⟩ := hI.read c' (List.mem_cons_of_mem _ hc')
    have hne : c'.id ≠ c.id := fun heq => hnotin (heq ▸ List.mem_map_of_mem hc')
    constructor
    · rw [hdone.only (.subscription c'.id) (by simpa using hne) (by simp)]
      exact hrow'
    · rw [findPlan, hdone.only (.plan _) (by simp) (by simp)]
      exact hplan'
  · rintro e n' σ' ⟨⟨⟩, -⟩

/-! ## Every sequential run -/

/-- The event moves a store to a plan: it tells of a payment, by a subscription that may
replace the one the store has, or by the checkout of a lifetime plan. -/
inductive Moves (db : Database) (answer : Answers billing) (e : StripeEvent) (t p : Id) : Prop
  | subscription {stripeId : Id} {x : StripeSubscription} {fromCheckout : Bool}
      (hevent : PaidEvent stripeId e) (hshown : shownBy answer e = some (x, fromCheckout))
      (hpays : x.pays = some (t, p))
      (hmay : ((replaced x (billedBy db t)).isNone || fromCheckout) = true)
  | lifetime {session : CheckoutSession} (hevent : e = .checkoutCompleted session)
      (hmode : session.mode ≠ "subscription") (hpaid : session.completes = true)
      (htenant : session.tenantId = some t) (hplan : session.planId = some p)

/-- The requests that change the products or the plan of a store. -/
def Request.managesCatalog : Request → Bool
  | .register _ _ => false
  | .createAdditional _ _ => false
  | .activatePlan _ _ _ _ => false
  | _ => true

/-- What a request must find for the limit to hold: room for a product that a moderation
brings back, and few enough live products for a plan that a payment or the first request of
a store moves it to. -/
def LeavesRoom (db : Database) (answer : Answers billing) (time : Time) : Request → Prop
  | .moderateProduct id isActive => FindsRoom db id isActive time
  | .requestUpgrade t _ _ => Query.eval (.currentSubscription t) db = none →
      ∀ freePlan, Query.eval .freePlan db = some freePlan → FitsPlan db t freePlan
  | .stripeWebhook _ (some e) => ∀ t p, Moves db answer e t p → FitsPlan db t p
  | _ => True

/-- Requests one after the other, from a time to a later one. -/
inductive ClockedRun (ok : Database → Answers billing → Time → Request → Prop) (db₀ : Database)
    (T₀ : Time) : Database → Time → Prop
  | start : ClockedRun ok db₀ T₀ db₀ T₀
  | serve {db : Database} {T T' : Time} (answer : Answers billing) (r : Request)
      (hrun : ClockedRun ok db₀ T₀ db T) (hclock : Clocked answer T T')
      (hok : ok db answer T' r) : ClockedRun ok db₀ T₀ (serve answer (handler r) db) T'

theorem limits_event {answer : Answers billing} {e : StripeEvent} (h : WithinLimits T' db)
    (hclock : Clocked answer T T') (hfits : ∀ t p, Moves db answer e t p → FitsPlan db t p) :
    WithinLimits T' (serve answer (handler (.stripeWebhook inTx (some e))) db) := by
  have hstart : Holds (WithinLimits T') (.start db) := ⟨h, h⟩
  refine event_keeps h (A := clock T T') hclock.clock ?_ ?_ ?_ ?_
  · intro stripeId x fromCheckout hevent hshown
    unfold applyStripeSubscription
    split
    · next t p ht hp =>
        refine keeps_runIf.2 ⟨fun hpaid => keeps_ask (keeps_runIf.2 ⟨fun hmay => ?_,
          fun _ => trivial⟩), fun _ => trivial⟩
        have hpays : x.pays = some (t, p) := by simp [StripeSubscription.pays, hpaid, ht, hp]
        have hbilled : ((billing.eval (Query.currentSubscription t) db).bind fun c : Current =>
            c.subscription.stripeSubscriptionId) = billedBy db t := billedBy_eq.symm
        have hmoves : Moves db answer e t p := .subscription hevent hshown hpays (hbilled ▸ hmay)
        exact (limits_activatePlan hstart x.period (hfits t p hmoves)).seq hstart fun _ _ hσ _ =>
          (keeps_cancelStripeSubscription _).mono hσ fun _ _ _ _ => trivial
    · exact trivial
  · intro session hevent hmode
    unfold onCheckoutCompleted
    split
    · exact trivial
    next hpaid =>
    rw [if_neg (by simpa using hmode)]
    split
    · next t p ht hp =>
        have hcompletes : session.completes = true := by simpa [CheckoutSession.completes] using hpaid
        have hmoves : Moves db answer e t p := .lifetime hevent hmode hcompletes ht hp
        refine keeps_ask ?_
        exact (limits_activatePlan hstart session.lifetime (hfits t p hmoves)).seq hstart
          fun _ _ hσ _ => (keeps_cancelStripeSubscription _).mono hσ fun _ _ _ _ => trivial
    · exact trivial
  · intro id stripeId cancel v hv hguard
    obtain ⟨sub, hrow, -⟩ := (Option.any_eq_true _ _).1 hguard
    exact hv.mild hrow rfl (hv.isOpen id sub hrow) rfl rfl fun h => h
  · intro id stripeId v hv hguard
    obtain ⟨sub, hrow, -⟩ := (Option.any_eq_true _ _).1 hguard
    exact hv.mild hrow rfl (hv.isOpen id sub hrow) rfl rfl fun h => h

theorem served_within {answer : Answers billing} {r : Request} (h : WithinLimits T db)
    (hclock : Clocked answer T T') (hr : r.managesCatalog = true)
    (hroom : LeavesRoom db answer T' r) : WithinLimits T' (serve answer (handler r) db) := by
  have hlater : WithinLimits T' db := h.later ((hclock.first 0).trans (hclock.last 0))
  have hstart : Holds (WithinLimits T') (.start db) := ⟨hlater, hlater⟩
  have hkept : KeepsLimits T T' (handler r) (.start db) (fun _ _ => True) →
      WithinLimits T' (serve answer (handler r) db) := fun hr => hr.serve hlater hclock.clock
  cases r with
  | register email storeSlug => cases hr
  | createAdditional userId slug => cases hr
  | activatePlan inTx t p period => cases hr
  | subscribe t p => exact hkept (limits_subscribe hstart t p)
  | requestUpgrade t p reference => exact hkept (limits_requestUpgrade hstart t p reference hroom)
  | createCheckout t p =>
      exact hkept ((keeps_createCheckout hstart t p).seq hstart fun _ _ _ _ => trivial)
  | createPortal t => exact hkept ((keeps_createPortal t).seq hstart fun _ _ _ _ => trivial)
  | approveUpgrade inTx id => exact (approveUpgrade_ends h hclock id).served
  | rejectUpgrade inTx id => exact hkept (limits_rejectUpgrade hstart id)
  | stripeWebhook inTx event =>
      cases event with
      | none => exact hkept (keeps_requireStripe trivial)
      | some e => exact limits_event hlater hclock hroom
  | lifecycle => exact (run_ends h hclock).served
  | createProduct t dto => exact hkept (limits_create hstart h.toPlain t dto)
  | updateProduct t id dto => exact hkept (limits_update hstart h.toPlain t id dto)
  | removeProduct t id => exact hkept (limits_remove hstart t id)
  | moderateProduct id isActive => exact hkept (limits_moderate hstart id isActive hroom)

def Roomy (db : Database) (answer : Answers billing) (time : Time) (r : Request) : Prop :=
  r.managesCatalog = true ∧ LeavesRoom db answer time r

theorem ClockedRun.within {db₀ : Database} {T₀ : Time} (hstart : WithinLimits T₀ db₀)
    (hrun : ClockedRun Roomy db₀ T₀ db T) : WithinLimits T db := by
  induction hrun with
  | start => exact hstart
  | serve answer r _ hclock hok ih => exact served_within ih hclock hok.1 hok.2

end WhatStore.Billing
