import WhatStore.Billing.Services
import WhatStore.Reports.Calendar

/-!
# The ends of paid periods

`computeExpiry` at any instant: a month or a year later by `setMonth` and
`setFullYear`, where a day that the month does not have runs over into the next one.
-/

namespace WhatStore.Billing.Expiry

open Calendar

def msPerDay : ℤ := 24 * 60 * 60 * 1000

def dateOf (instant : ℤ) : Date := ofDay (instant / msPerDay)

/-- The day of a year, a month of it counted from 0 and a date of the month, where more months
and dates than there are run on. -/
def makeDay (year month date : ℤ) : ℤ := firstOf (12 * year + month) + (date - 1)

def getMonth (instant : ℤ) : ℤ := (dateOf instant).month - 1

def setMonth (instant month : ℤ) : ℤ :=
  makeDay (dateOf instant).year month (dateOf instant).day * msPerDay + instant % msPerDay

def setFullYear (instant year : ℤ) : ℤ :=
  makeDay year (getMonth instant) (dateOf instant).day * msPerDay + instant % msPerDay

def computeExpiry (duration : PlanDuration) (start : ℤ) : Option ℤ :=
  match duration with
  | .monthly => some (setMonth start (getMonth start + 1))
  | .yearly => some (setFullYear start ((dateOf start).year + 1))
  | .lifetime => none

/-- What `approveUpgrade` reads of a subscription with a pending upgrade. -/
structure Pending where
  planId : Id
  /-- The plan has a price. -/
  paid : Bool
  expiresAt : Option ℤ

def Pending.isLapsed (subscription : Pending) (time : ℤ) : Bool :=
  subscription.paid && subscription.expiresAt.any fun t => decide (t + graceDays * msPerDay ≤ time)

def Pending.renewed (subscription : Pending) (planId : Id) (time : ℤ) : Option ℤ :=
  subscription.expiresAt.filter fun t =>
    subscription.planId == planId && decide (time < t) && !subscription.isLapsed time

def Pending.start (subscription : Pending) (planId : Id) (time : ℤ) : ℤ :=
  (subscription.renewed planId time).getD time

def approvedExpiry (subscription : Pending) (planId : Id) (duration : PlanDuration) (time : ℤ) :
    Option ℤ :=
  computeExpiry duration (subscription.start planId time)

/-! ## Fair periods -/

def months : PlanDuration → ℤ
  | .monthly => 1
  | .yearly => 12
  | .lifetime => 0

def daysIn (index : ℤ) : ℤ := firstOf (index + 1) - firstOf index

/-- The same day of the month so much later, or that month's last. -/
def EndsIn (duration : PlanDuration) (start expiry : ℤ) : Prop :=
  (dateOf expiry).index = (dateOf start).index + months duration ∧
    (dateOf expiry).day = min (dateOf start).day (daysIn (dateOf expiry).index)

structure Fair (subscription : Pending) (planId : Id) (duration : PlanDuration) (time expiry : ℤ) :
    Prop where
  after_approval : time < expiry
  after_previous : subscription.planId = planId → subscription.isLapsed time = false →
    ∀ t, subscription.expiresAt = some t → t < expiry
  mono : ∀ start expiry', subscription.start planId time ≤ start →
    computeExpiry duration start = some expiry' → expiry ≤ expiry'
  ends : EndsIn duration (subscription.start planId time) expiry

def HasDay (duration : PlanDuration) (start : ℤ) : Prop :=
  (dateOf start).day ≤ daysIn ((dateOf start).index + months duration)

/-! ## Days so many months later -/

def later (count day : ℤ) : ℤ := firstOf ((ofDay day).index + count) + ((ofDay day).day - 1)

theorem computeExpiry_eq {duration : PlanDuration} (h : duration ≠ .lifetime) (start : ℤ) :
    computeExpiry duration start =
      some (later (months duration) (start / msPerDay) * msPerDay + start % msPerDay) := by
  cases duration with
  | monthly =>
      rw [computeExpiry, setMonth, makeDay, getMonth, later, Date.index, months]
      simp only [dateOf]
      congr 5
      ring
  | yearly =>
      rw [computeExpiry, setFullYear, makeDay, getMonth, later, Date.index, months]
      simp only [dateOf]
      congr 5
      ring
  | lifetime => exact absurd rfl h

theorem lt_later {count : ℤ} (h : 0 < count) (day : ℤ) : day < later count day := by
  have hmonth := firstOf_strictMono (show (ofDay day).index < (ofDay day).index + count by omega)
  have hday := firstOf_index day
  rw [later]
  omega

/-- A day that the later month has is before any later day's. -/
theorem later_strictMono {count day day' : ℤ}
    (hday : (ofDay day).day ≤ daysIn ((ofDay day).index + count)) (h : day < day') :
    later count day < later count day' := by
  have hfirst := firstOf_index day
  have hfirst' := firstOf_index day'
  obtain ⟨hone, -⟩ := day_bounds day'
  rw [daysIn] at hday
  rw [later, later]
  rcases (index_mono h.le).eq_or_lt with heq | hlt
  · rw [← heq] at hfirst' ⊢
    omega
  · have hnext := firstOf_strictMono.monotone
      (show (ofDay day).index + count + 1 ≤ (ofDay day').index + count by omega)
    omega

theorem later_index (count day : ℤ) :
    (ofDay (later count day)).index = (ofDay day).index + count ↔
      (ofDay day).day ≤ daysIn ((ofDay day).index + count) := by
  obtain ⟨hone, -⟩ := day_bounds day
  constructor
  · intro h
    have hnext := lt_firstOf_next (later count day)
    rw [h, later] at hnext
    rw [daysIn]
    omega
  · intro h
    rw [daysIn] at h
    apply index_eq <;> rw [later] <;> omega

theorem later_day {count day : ℤ} (h : (ofDay day).day ≤ daysIn ((ofDay day).index + count)) :
    (ofDay (later count day)).day = (ofDay day).day := by
  have hfirst := firstOf_index (later count day)
  rw [(later_index count day).2 h] at hfirst
  rw [later] at hfirst ⊢
  omega

/-! ## Ends of periods -/

section Period

variable {duration : PlanDuration} {start expiry : ℤ}

theorem dateOf_period (day start : ℤ) :
    dateOf (day * msPerDay + start % msPerDay) = ofDay day := by
  rw [dateOf, msPerDay]
  congr 1
  omega

theorem months_pos (h : duration ≠ .lifetime) : 0 < months duration := by
  cases duration <;> simp_all [months]

theorem lt_computeExpiry (h : computeExpiry duration start = some expiry) : start < expiry := by
  have hpaid : duration ≠ .lifetime := by
    intro heq
    subst heq
    simp [computeExpiry] at h
  rw [computeExpiry_eq hpaid, Option.some.injEq] at h
  have hlater := lt_later (months_pos hpaid) (start / msPerDay)
  rw [msPerDay] at h hlater
  omega

theorem computeExpiry_mono {start' expiry' : ℤ} (hday : HasDay duration start)
    (h : computeExpiry duration start = some expiry)
    (h' : computeExpiry duration start' = some expiry') (hle : start ≤ start') :
    expiry ≤ expiry' := by
  have hpaid : duration ≠ .lifetime := by
    intro heq
    subst heq
    simp [computeExpiry] at h
  rw [computeExpiry_eq hpaid, Option.some.injEq] at h h'
  rw [msPerDay] at h h'
  have hdays : start / (24 * 60 * 60 * 1000) ≤ start' / (24 * 60 * 60 * 1000) := by omega
  rcases hdays.eq_or_lt with heq | hlt
  · rw [heq] at h
    omega
  · have hlater := later_strictMono hday hlt
    rw [msPerDay] at hlater
    omega

/-- The period ends where it should if and only if the month has the day. -/
theorem endsIn_iff (h : computeExpiry duration start = some expiry) :
    EndsIn duration start expiry ↔ HasDay duration start := by
  have hpaid : duration ≠ .lifetime := by
    intro heq
    subst heq
    simp [computeExpiry] at h
  rw [computeExpiry_eq hpaid, Option.some.injEq] at h
  rw [EndsIn, ← h, dateOf_period]
  constructor
  · intro hends
    exact (later_index _ _).1 hends.1
  · intro hday
    constructor
    · exact (later_index _ _).2 hday
    · rw [later_day hday, (later_index _ _).2 hday]
      exact (min_eq_left hday).symm

end Period

theorem Pending.le_start (subscription : Pending) (planId : Id) (time : ℤ) :
    time ≤ subscription.start planId time := by
  rw [Pending.start]
  cases hrenewed : subscription.renewed planId time with
  | none => simp
  | some t =>
      simp [Pending.renewed, Option.filter_eq_some_iff] at hrenewed
      simp
      omega

theorem Pending.previous_le_start {subscription : Pending} {planId : Id} {time t : ℤ}
    (hplan : subscription.planId = planId) (hlapsed : subscription.isLapsed time = false)
    (h : subscription.expiresAt = some t) : t ≤ subscription.start planId time := by
  rw [Pending.start, Pending.renewed, h]
  by_cases hlt : time < t
  · simp [hplan, hlapsed, hlt, Option.filter]
  · simp [hplan, hlapsed, hlt, Option.filter]
    omega

theorem approvedExpiry_fair_iff (subscription : Pending) (planId : Id) {duration : PlanDuration}
    (h : duration ≠ .lifetime) (time : ℤ) :
    (∃ expiry, approvedExpiry subscription planId duration time = some expiry ∧
      Fair subscription planId duration time expiry) ↔
        HasDay duration (subscription.start planId time) := by
  constructor
  · rintro ⟨expiry, hexpiry, hfair⟩
    exact (endsIn_iff hexpiry).1 hfair.ends
  · intro hday
    have hexpiry := computeExpiry_eq h (subscription.start planId time)
    have hlt := lt_computeExpiry hexpiry
    refine ⟨_, hexpiry, ?_, ?_, ?_, ?_⟩
    · have hstart := subscription.le_start planId time
      omega
    · intro hplan hlapsed t ht
      have hprevious := Pending.previous_le_start hplan hlapsed ht
      omega
    · intro start expiry' hle hexpiry'
      exact computeExpiry_mono hday hexpiry hexpiry' hle
    · exact (endsIn_iff hexpiry).2 hday

/-- A yearly plan approved on 20 July 2026. -/
theorem approvedExpiry_fair_july :
    ∃ expiry, approvedExpiry ⟨1, false, none⟩ 2 .yearly (20654 * msPerDay) = some expiry ∧
      Fair ⟨1, false, none⟩ 2 .yearly (20654 * msPerDay) expiry :=
  (approvedExpiry_fair_iff ⟨1, false, none⟩ 2 (by decide) (20654 * msPerDay)).2
    (show (_ : ℤ) ≤ _ by decide)

/-- Approved on 31 January 2026 a month ends on 3 March, and approved on 1 February it ends on
1 March. -/
theorem january_unfair :
    approvedExpiry ⟨1, false, none⟩ 2 .monthly (20484 * msPerDay) = some (20515 * msPerDay) ∧
      dateOf (20515 * msPerDay) = ⟨2026, 3, 3⟩ ∧
      computeExpiry .monthly (20485 * msPerDay) = some (20513 * msPerDay) ∧
      ∀ expiry, approvedExpiry ⟨1, false, none⟩ 2 .monthly (20484 * msPerDay) = some expiry →
        ¬ Fair ⟨1, false, none⟩ 2 .monthly (20484 * msPerDay) expiry := by
  have hday : ¬ HasDay .monthly (Pending.start ⟨1, false, none⟩ 2 (20484 * msPerDay)) := by
    rw [HasDay]
    decide
  refine ⟨by decide, by decide, by decide, ?_⟩
  intro expiry h hfair
  exact hday ((endsIn_iff h).1 hfair.ends)

/-! ## Stored instants -/

/-- `addMonths` of a stored instant is `setMonth` and `setFullYear` of it. -/
theorem addMonths_eq (count t : ℕ) :
    (addMonths count t : ℤ) = later count (t / msPerDay) * msPerDay + t % msPerDay := by
  have hms : msPerDay = (dayMs : ℕ) := by decide
  have hle : ((t / dayMs : ℕ) : ℤ) ≤ later count (t / dayMs : ℕ) := by
    have hmonth := firstOf_strictMono.monotone (show (ofDay (t / dayMs : ℕ)).index ≤
      (ofDay (t / dayMs : ℕ)).index + count by omega)
    have hday := firstOf_index (t / dayMs : ℕ)
    rw [later]
    omega
  have hdays : ((later count (t / dayMs : ℕ)).toNat : ℤ) = later count (t / dayMs : ℕ) :=
    Int.toNat_of_nonneg ((Int.natCast_nonneg _).trans hle)
  rw [hms, ← Int.natCast_ediv, ← Int.natCast_emod, ← hdays, ← Nat.cast_mul, ← Nat.cast_add]
  rfl

theorem computeExpiry_ofNat (duration : PlanDuration) (t : ℕ) :
    (Billing.computeExpiry duration t).map Nat.cast = computeExpiry duration t := by
  cases duration with
  | monthly => rw [computeExpiry_eq (by decide), Billing.computeExpiry, Option.map_some,
      addMonths_eq, months, Nat.cast_one]
  | yearly => rw [computeExpiry_eq (by decide), Billing.computeExpiry, Option.map_some,
      addMonths_eq, months, Nat.cast_ofNat]
  | lifetime => rfl

def Pending.ofCurrent (current : Current) : Pending where
  planId := current.subscription.planId
  paid := isPaidPlan current.plan
  expiresAt := current.subscription.expiresAt.map Nat.cast

theorem Pending.isLapsed_ofCurrent (current : Current) (time : ℕ) :
    (Pending.ofCurrent current).isLapsed time = Billing.isLapsed current time := by
  have hms : msPerDay = (dayMs : ℕ) := by decide
  rw [Pending.isLapsed, Billing.isLapsed, graceEndsAt, Pending.ofCurrent, hms]
  generalize dayMs = ms
  cases current.subscription.expiresAt with
  | none => rfl
  | some t =>
      rw [Option.map_some, Option.map_some, Option.any_some, Option.any_some]
      have hgrace : (t : ℤ) + graceDays * ms ≤ time ↔ t + graceDays * ms ≤ time := by
        rw [← Nat.cast_mul, ← Nat.cast_add, Nat.cast_le]
      congr 2
      exact propext hgrace

theorem approvedExpiry_ofCurrent (current : Current) (planId : Id) (duration : PlanDuration)
    (time : ℕ) :
    (Billing.computeExpiry duration ((current.subscription.expiresAt.filter fun t =>
      current.subscription.planId == planId && decide (time < t) &&
        !Billing.isLapsed current time).getD time)).map Nat.cast =
      approvedExpiry (Pending.ofCurrent current) planId duration time := by
  rw [computeExpiry_ofNat, approvedExpiry, Pending.start, Pending.renewed,
    Pending.isLapsed_ofCurrent, Pending.ofCurrent]
  congr 1
  cases current.subscription.expiresAt with
  | none => rfl
  | some t =>
      simp only [Option.map_some, Option.filter, Nat.cast_lt]
      split <;> rfl

end WhatStore.Billing.Expiry
