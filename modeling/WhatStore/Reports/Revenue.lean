import WhatStore.Reports.GroupBy
import WhatStore.Shop.Rows
import WhatStore.Text.Dates

/-!
# The revenue chart

`DashboardService.getSummary` adds up the sales of a period and shows them day by
day. The period starts at midnight on the server's clock; the days are those of
Coordinated Universal Time. The last day of the chart is the current day only
while the server's time of day is not later than that of UTC.
-/

namespace WhatStore.Reports

open Table Text Calendar

/-! ## Buckets -/

inductive DashboardRange where
  | week | month | quarter
  deriving DecidableEq

/-- `RANGE_DAYS`. -/
def rangeDays : DashboardRange → ℕ
  | .week => 7
  | .month => 30
  | .quarter => 90

section Local

-- The server's time is `offset` milliseconds ahead of UTC.
variable (offset : ℤ)

/-- `setDate(getDate() + n)`: the day moves, the local time of day stays. -/
def addDays (t n : ℤ) : ℤ :=
  (((t + offset) / dayLength + n) * dayLength + (t + offset) % dayLength) - offset

/-- `setHours(0, 0, 0, 0)`. -/
def startOfDay (t : ℤ) : ℤ := (t + offset) / dayLength * dayLength - offset

def rangeStart (now : Time) (range : DashboardRange) : ℤ :=
  startOfDay offset (addDays offset now (-(rangeDays range - 1)))

end Local

/-- `Map.set`: a key that is there keeps its place. -/
def mapSet {β : Type} (m : List (Chars × β)) (k : Chars) (v : β) : List (Chars × β) :=
  if k ∈ m.map Prod.fst then m.map fun e => if e.1 = k then (k, v) else e else m ++ [(k, v)]

def buildDayBuckets {β : Type} (offset start : ℤ) (days : ℕ) (empty : β) : List (Chars × β) :=
  (List.range days).foldl
    (fun buckets (i : ℕ) => mapSet buckets (dayKey (addDays offset start i)) empty) []

/-! ## Sales -/

structure Sale where
  tenantId : Id
  status : OrderStatus
  grandTotal : Cents
  createdAt : Time
  deriving DecidableEq

structure DayRow where
  day : Chars
  orders : ℕ
  revenue : Cents

/-- Neither cancelled nor refunded, and no older than the period. -/
def counted (orders : List Sale) (tenantId : Id) (start : ℤ) : List Sale :=
  orders.filter fun o => o.tenantId = tenantId ∧ start ≤ o.createdAt ∧
    o.status ∉ [OrderStatus.cancelled, .refunded]

/-- `to_char(created_at, 'YYYY-MM-DD')`. -/
def Sale.day (o : Sale) : Chars := dateText (utcDay o.createdAt)

def getSalesByDay (orders : List Sale) (tenantId : Id) (start : ℤ) : List DayRow :=
  (groupBy Sale.day (counted orders tenantId start)).map fun g =>
    { day := g.1, orders := g.2.length, revenue := (g.2.map Sale.grandTotal).sum }

structure Bucket where
  orders : ℕ
  revenue : Cents
  deriving DecidableEq

structure Summary where
  periodRevenue : Cents
  periodOrders : ℕ
  revenueOverTime : List (Chars × Bucket)

/-- One row of the loop: a row without a bucket is counted all the same. -/
def Summary.add (s : Summary) (row : DayRow) : Summary where
  periodRevenue := s.periodRevenue + row.revenue
  periodOrders := s.periodOrders + row.orders
  revenueOverTime := s.revenueOverTime.map fun e =>
    if e.1 = row.day then (e.1, ⟨e.2.orders + row.orders, e.2.revenue + row.revenue⟩) else e

def getSummary (offset : ℤ) (now : Time) (orders : List Sale) (tenantId : Id)
    (range : DashboardRange) : Summary :=
  let start := rangeStart offset now range
  (getSalesByDay orders tenantId start).foldl Summary.add
    { periodRevenue := 0
      periodOrders := 0
      revenueOverTime := buildDayBuckets offset start (rangeDays range) ⟨0, 0⟩ }

/-! ## What the chart is to show -/

/-- The days of a chart that ends with the current day. -/
def chartDays (now : Time) (range : DashboardRange) : List Chars :=
  (List.range (rangeDays range)).map fun (i : ℕ) =>
    dateText (utcDay now - (rangeDays range - 1) + i)

/-- The buckets are the days up to the current one, every sale that was counted is in the one
bucket of its day, and the buckets add up to the totals. -/
structure AddsUp (now : Time) (range : DashboardRange) (sales : List Sale) (s : Summary) :
    Prop where
  days : s.revenueOverTime.map Prod.fst = chartDays now range
  distinct : (s.revenueOverTime.map Prod.fst).Nodup
  one_bucket : ∀ o ∈ sales, ∃! bucket, bucket ∈ s.revenueOverTime ∧ bucket.1 = o.day
  orders_of_day : ∀ bucket ∈ s.revenueOverTime,
    bucket.2.orders = (sales.filter fun o => o.day = bucket.1).length
  revenue_of_day : ∀ bucket ∈ s.revenueOverTime,
    bucket.2.revenue = ((sales.filter fun o => o.day = bucket.1).map Sale.grandTotal).sum
  orders_sum : (s.revenueOverTime.map fun bucket => bucket.2.orders).sum = s.periodOrders
  revenue_sum : (s.revenueOverTime.map fun bucket => bucket.2.revenue).sum = s.periodRevenue
  period_orders : s.periodOrders = sales.length
  period_revenue : s.periodRevenue = (sales.map Sale.grandTotal).sum

/-- The server's time of day is not later than that of UTC. -/
def SameDay (offset : ℤ) (now : Time) : Prop := (now + offset) % dayLength ≤ now % dayLength

/-! ## The days of the buckets -/

section Days

variable {offset : ℤ} {now : Time} {range : DashboardRange}

theorem addDays_eq (offset t n : ℤ) : addDays offset t n = t + n * dayLength := by
  unfold addDays dayLength
  omega

theorem rangeDays_pos (range : DashboardRange) : 0 < rangeDays range := by
  cases range <;> decide

/-- Buckets are a day apart, and the last one starts at the server's midnight. -/
theorem bucket_start (offset : ℤ) (now : Time) (range : DashboardRange) (i : ℤ) :
    addDays offset (rangeStart offset now range) i =
      now - (now + offset) % dayLength - (rangeDays range - 1 - i) * dayLength := by
  rw [addDays_eq, rangeStart, addDays_eq, startOfDay]
  unfold dayLength
  omega

theorem bucket_day_of_sameDay (h : SameDay offset now) (i : ℤ) :
    utcDay (addDays offset (rangeStart offset now range) i) =
      utcDay now - (rangeDays range - 1) + i := by
  rw [bucket_start]
  unfold SameDay at h
  unfold utcDay
  unfold dayLength at *
  omega

/-- Otherwise the chart lags a day behind. -/
theorem bucket_day_of_not_sameDay (h : ¬ SameDay offset now) (i : ℤ) :
    utcDay (addDays offset (rangeStart offset now range) i) =
      utcDay now - 1 - (rangeDays range - 1) + i := by
  rw [bucket_start]
  unfold SameDay at h
  unfold utcDay
  unfold dayLength at *
  omega

end Days

/-! ## The loops -/

section Loops

variable {β : Type} (empty : β)

theorem foldl_mapSet {keys : List Chars} {m : List (Chars × β)}
    (hnodup : (m.map Prod.fst ++ keys).Nodup) :
    keys.foldl (fun m k => mapSet m k empty) m = m ++ keys.map fun k => (k, empty) := by
  induction keys generalizing m with
  | nil => simp
  | cons k keys ih =>
      have hk : k ∉ m.map Prod.fst := by
        intro hmem
        exact (List.nodup_append.1 hnodup).2.2 k hmem k List.mem_cons_self rfl
      rw [List.foldl_cons, mapSet, if_neg hk, ih]
      · simp
      · simpa using hnodup

theorem keys_mapSet (m : List (Chars × β)) (k : Chars) (v : β) :
    (mapSet m k v).map Prod.fst =
      if k ∈ m.map Prod.fst then m.map Prod.fst else m.map Prod.fst ++ [k] := by
  rw [mapSet]
  split
  · rw [List.map_map]
    apply List.map_congr_left
    intro e _
    by_cases he : e.1 = k <;> simp [he]
  · simp

theorem keys_foldl_mapSet (keys : List Chars) (m : List (Chars × β)) :
    ∃ new, new.Sublist keys ∧
      (keys.foldl (fun m k => mapSet m k empty) m).map Prod.fst = m.map Prod.fst ++ new := by
  induction keys generalizing m with
  | nil => exact ⟨[], .slnil, by simp⟩
  | cons k keys ih =>
      obtain ⟨new, hnew, heq⟩ := ih (mapSet m k empty)
      rw [List.foldl_cons, heq, keys_mapSet]
      split
      · exact ⟨new, hnew.cons k, rfl⟩
      · exact ⟨k :: new, hnew.cons_cons k, by simp⟩

/-- Each row adds to the totals and to the bucket of its day. -/
theorem foldl_add (rows : List DayRow) (s : Summary) :
    rows.foldl Summary.add s =
      { periodRevenue := s.periodRevenue + (rows.map DayRow.revenue).sum
        periodOrders := s.periodOrders + (rows.map DayRow.orders).sum
        revenueOverTime := s.revenueOverTime.map fun e => (e.1,
          ⟨e.2.orders + ((rows.filter fun row => row.day = e.1).map DayRow.orders).sum,
            e.2.revenue + ((rows.filter fun row => row.day = e.1).map DayRow.revenue).sum⟩) } := by
  induction rows generalizing s with
  | nil => simp
  | cons row rows ih =>
      rw [List.foldl_cons, ih, Summary.add]
      simp only [List.map_cons, List.sum_cons, List.map_map, add_assoc, Summary.mk.injEq, true_and]
      apply List.map_congr_left
      intro e _
      by_cases he : row.day = e.1
      · simp [he, add_assoc]
      · have he' : ¬ e.1 = row.day := fun h => he h.symm
        simp [he, he']

end Loops

/-! ## The summary -/

section Chart

variable {offset : ℤ} {now : Time} {range : DashboardRange} {orders : List Sale} {tenantId : Id}

/-- The keys as the loop over the days makes them. -/
def bucketKeys (offset : ℤ) (now : Time) (range : DashboardRange) : List Chars :=
  (List.range (rangeDays range)).map fun (i : ℕ) =>
    dayKey (addDays offset (rangeStart offset now range) i)

theorem sum_salesByDay (orders : List Sale) (tenantId : Id) (start : ℤ) (day : Chars) :
    (((getSalesByDay orders tenantId start).filter fun row => row.day = day).map
        DayRow.orders).sum =
      ((counted orders tenantId start).filter fun o => o.day = day).length ∧
    (((getSalesByDay orders tenantId start).filter fun row => row.day = day).map
        DayRow.revenue).sum =
      (((counted orders tenantId start).filter fun o => o.day = day).map Sale.grandTotal).sum := by
  constructor
  · have hsum := sum_groupBy_filter (fun _ => 1) Sale.day (counted orders tenantId start) day
    simpa [getSalesByDay, List.filter_map, Function.comp_def] using hsum
  · have hsum := sum_groupBy_filter Sale.grandTotal Sale.day (counted orders tenantId start) day
    simpa [getSalesByDay, List.filter_map, Function.comp_def] using hsum

theorem getSummary_eq (offset : ℤ) (now : Time) (orders : List Sale) (tenantId : Id)
    (range : DashboardRange) :
    let sales := counted orders tenantId (rangeStart offset now range)
    getSummary offset now orders tenantId range =
      { periodRevenue := (sales.map Sale.grandTotal).sum
        periodOrders := sales.length
        revenueOverTime :=
          (buildDayBuckets offset (rangeStart offset now range) (rangeDays range)
            (⟨0, 0⟩ : Bucket)).map fun e => (e.1,
              ⟨e.2.orders + (sales.filter fun o => o.day = e.1).length,
                e.2.revenue + ((sales.filter fun o => o.day = e.1).map Sale.grandTotal).sum⟩) } := by
  intro sales
  have horders := sum_groupBy (fun _ => 1) Sale.day sales
  have hrevenue := sum_groupBy Sale.grandTotal Sale.day sales
  rw [getSummary, foldl_add]
  simp only [sum_salesByDay, zero_add, Summary.mk.injEq]
  refine ⟨?_, ?_, rfl⟩
  · simpa [getSalesByDay, Function.comp_def] using hrevenue
  · simpa [getSalesByDay, Function.comp_def] using horders

theorem buckets_of_nodup (h : (bucketKeys offset now range).Nodup) {β : Type} (empty : β) :
    buildDayBuckets offset (rangeStart offset now range) (rangeDays range) empty =
      (bucketKeys offset now range).map fun k => (k, empty) := by
  have hloop := foldl_mapSet empty (m := []) h
  rw [List.foldl_map] at hloop
  exact hloop

theorem keys_sublist (offset : ℤ) (now : Time) (range : DashboardRange) {β : Type} (empty : β) :
    ((buildDayBuckets offset (rangeStart offset now range) (rangeDays range) empty).map
      Prod.fst).Sublist (bucketKeys offset now range) := by
  obtain ⟨new, hnew, heq⟩ := keys_foldl_mapSet empty (bucketKeys offset now range) []
  rw [bucketKeys, List.foldl_map] at heq
  rw [buildDayBuckets, heq]
  exact hnew

theorem mem_chartDays {day : Chars} : day ∈ chartDays now range ↔
    ∃ i < rangeDays range, dateText (utcDay now - (rangeDays range - 1) + i) = day := by
  simp [chartDays]

theorem epoch_le_chartDay (now : Time) (range : DashboardRange) (i : ℕ) :
    -epoch ≤ utcDay now - (rangeDays range - 1) + i := by
  have hdays : rangeDays range ≤ 90 := by
    cases range <;> decide
  unfold utcDay dayLength epoch
  omega

theorem nodup_chartDays (now : Time) (range : DashboardRange) : (chartDays now range).Nodup := by
  apply List.Nodup.map_on _ List.nodup_range
  intro i _ j _ h
  have hday := dateText_inj (epoch_le_chartDay now range i) (epoch_le_chartDay now range j) h
  omega

/-- The year of each day of the chart has four digits. -/
def FourDigitYears (now : Time) (range : DashboardRange) : Prop :=
  ∀ i < rangeDays range, (ofDay (utcDay now - (rangeDays range - 1) + i)).year ≤ 9999

/-- The keys are the days of the chart exactly when the last bucket is the current day. -/
theorem bucketKeys_eq_iff :
    bucketKeys offset now range = chartDays now range ↔
      SameDay offset now ∧ FourDigitYears now range := by
  have hkeys : bucketKeys offset now range = chartDays now range ↔ ∀ i < rangeDays range,
      dayKey (addDays offset (rangeStart offset now range) i) =
        dateText (utcDay now - (rangeDays range - 1) + i) := by
    rw [bucketKeys, chartDays, List.map_inj_left]
    simp
  rw [hkeys]
  constructor
  · intro h
    have hsame : SameDay offset now := by
      by_contra hlag
      obtain ⟨last, hlast⟩ := Nat.exists_eq_add_one_of_ne_zero (rangeDays_pos range).ne'
      have hkey := h last (by omega)
      have hday : utcDay (addDays offset (rangeStart offset now range) last) = _ :=
        bucket_day_of_not_sameDay hlag last
      have hfirst : -epoch ≤ utcDay (addDays offset (rangeStart offset now range) last) := by
        rw [hday]
        unfold utcDay dayLength epoch
        omega
      rw [dayKey_eq (year_nonneg hfirst) (year_le_of_dayKey_eq hkey)] at hkey
      have heq := dateText_inj hfirst (epoch_le_chartDay now range last) hkey
      omega
    refine ⟨hsame, ?_⟩
    intro i hi
    have hyear := year_le_of_dayKey_eq (h i hi)
    rwa [bucket_day_of_sameDay hsame] at hyear
  · rintro ⟨hsame, hyears⟩ i hi
    rw [dayKey_eq, bucket_day_of_sameDay hsame]
    · rw [bucket_day_of_sameDay hsame]
      exact year_nonneg (epoch_le_chartDay now range i)
    · rw [bucket_day_of_sameDay hsame]
      exact hyears i hi

theorem first_day_le (hsame : SameDay offset now) {o : Sale}
    (ho : o ∈ counted orders tenantId (rangeStart offset now range)) :
    utcDay now - (rangeDays range - 1) ≤ utcDay o.createdAt := by
  have hstart : rangeStart offset now range ≤ o.createdAt := by
    have hcounted := of_decide_eq_true (List.mem_filter.1 ho).2
    exact hcounted.2.1
  have hday : utcDay (addDays offset (rangeStart offset now range) 0) = _ :=
    bucket_day_of_sameDay hsame 0
  rw [addDays_eq] at hday
  unfold utcDay dayLength at *
  omega

theorem day_mem_chartDays {o : Sale} (hfirst : utcDay now - (rangeDays range - 1) ≤ utcDay o.createdAt)
    (hlast : utcDay o.createdAt ≤ utcDay now) : o.day ∈ chartDays now range := by
  apply mem_chartDays.2
  refine ⟨(utcDay o.createdAt - (utcDay now - (rangeDays range - 1))).toNat, by omega, ?_⟩
  rw [Int.toNat_of_nonneg (by omega), Sale.day]
  congr 1
  omega

theorem day_le_of_mem_chartDays {o : Sale} (h : o.day ∈ chartDays now range) :
    utcDay o.createdAt ≤ utcDay now := by
  obtain ⟨i, hi, heq⟩ := mem_chartDays.1 h
  have hcreated : -epoch ≤ utcDay o.createdAt := by
    unfold utcDay dayLength epoch
    omega
  have hday := dateText_inj (epoch_le_chartDay now range i) hcreated heq
  omega

theorem addsUp_of_days {days : List Chars} {sales : List Sale} (hnodup : days.Nodup)
    (hmem : ∀ o ∈ sales, o.day ∈ days) (hdays : days = chartDays now range) :
    AddsUp now range sales
      { periodRevenue := (sales.map Sale.grandTotal).sum
        periodOrders := sales.length
        revenueOverTime := days.map fun day => (day,
          ⟨(sales.filter fun o => o.day = day).length,
            ((sales.filter fun o => o.day = day).map Sale.grandTotal).sum⟩) } := by
  constructor
  · simpa [Function.comp_def] using hdays
  · simpa [Function.comp_def] using hnodup
  · intro o ho
    refine ⟨_, ⟨List.mem_map_of_mem (hmem o ho), rfl⟩, ?_⟩
    rintro bucket ⟨hbucket, hday⟩
    obtain ⟨day, -, rfl⟩ := List.mem_map.1 hbucket
    rw [← hday]
  · intro bucket hbucket
    obtain ⟨day, -, rfl⟩ := List.mem_map.1 hbucket
    rfl
  · intro bucket hbucket
    obtain ⟨day, -, rfl⟩ := List.mem_map.1 hbucket
    rfl
  · have hsum := sum_by_key_of_mem hnodup (fun _ => 1) hmem
    simpa [Function.comp_def] using hsum
  · have hsum := sum_by_key_of_mem hnodup Sale.grandTotal hmem
    simpa [Function.comp_def] using hsum
  · rfl
  · rfl

/-- **The revenue chart.** The chart ends with the current day and adds up to the totals exactly
when the server's time of day is not later than that of UTC, its days are in years with four
digits, and no sale is of a later day than the current one. -/
theorem addsUp_iff (offset : ℤ) (now : Time) (orders : List Sale) (tenantId : Id)
    (range : DashboardRange) :
    AddsUp now range (counted orders tenantId (rangeStart offset now range))
        (getSummary offset now orders tenantId range) ↔
      SameDay offset now ∧ FourDigitYears now range ∧
        ∀ o ∈ counted orders tenantId (rangeStart offset now range),
          utcDay o.createdAt ≤ utcDay now := by
  rw [getSummary_eq]
  constructor
  · intro h
    have hdays := h.days
    simp only [List.map_map, Function.comp_def] at hdays
    have hkeys : bucketKeys offset now range = chartDays now range := by
      rw [← hdays]
      apply ((keys_sublist offset now range (⟨0, 0⟩ : Bucket)).eq_of_length _).symm
      rw [hdays, chartDays, bucketKeys, List.length_map, List.length_map]
    obtain ⟨hsame, hyears⟩ := bucketKeys_eq_iff.1 hkeys
    refine ⟨hsame, hyears, ?_⟩
    intro o ho
    obtain ⟨bucket, ⟨hbucket, hday⟩, -⟩ := h.one_bucket o ho
    have hmem : o.day ∈ chartDays now range := by
      rw [← hday, ← h.days]
      exact List.mem_map_of_mem hbucket
    exact day_le_of_mem_chartDays hmem
  · rintro ⟨hsame, hyears, horders⟩
    have hkeys := bucketKeys_eq_iff.2 ⟨hsame, hyears⟩
    have hnodup := nodup_chartDays now range
    have hbuckets := buckets_of_nodup (hkeys ▸ hnodup) (⟨0, 0⟩ : Bucket)
    rw [hkeys] at hbuckets
    have hmem : ∀ o ∈ counted orders tenantId (rangeStart offset now range),
        o.day ∈ chartDays now range := by
      intro o ho
      exact day_mem_chartDays (first_day_le hsame ho) (horders o ho)
    simp only [hbuckets, List.map_map, Function.comp_def, zero_add]
    exact addsUp_of_days hnodup hmem rfl

end Chart

/-- On a server two hours ahead of UTC, an order of this noon has no bucket. -/
theorem chart_lags :
    ¬ ∀ (offset : ℤ) (now : Time) (orders : List Sale) (tenantId : Id) (range : DashboardRange),
      AddsUp now range (counted orders tenantId (rangeStart offset now range))
        (getSummary offset now orders tenantId range) := by
  intro hclaim
  have hsum := (hclaim 7200000 1781092800000 [⟨1, .confirmed, 1000, 1781085600000⟩] 1
    .week).orders_sum
  exact absurd hsum (by decide +kernel)

end WhatStore.Reports
