import Mathlib

/-!
# The calendar

Days counted from 1 January 1970, and their dates in the proleptic Gregorian
calendar. A day is found again from its date, so dates of different days differ.
-/

namespace Calendar

structure Date where
  year : ℤ
  month : ℤ
  day : ℤ
  deriving DecidableEq

/-! ## Years that begin in March -/

/-- Days from 1 March of the year 0 to 1 March of the year `y`. -/
def yearStart (y : ℤ) : ℤ := 365 * y + y / 4 - y / 100 + y / 400

/-- Days from 1 March to the first of the month, March being month 0. -/
def monthStart (m : ℤ) : ℤ := (153 * m + 2) / 5

/-- The year of a day counted from 1 March of the year 0: cycles of 400, 100 and 4 years. -/
def yearOf (z : ℤ) : ℤ :=
  let century := min (z % 146097 / 36524) 3
  let quad := (z % 146097 - 36524 * century) / 1461
  let year := min ((z % 146097 - 36524 * century - 1461 * quad) / 365) 3
  400 * (z / 146097) + 100 * century + 4 * quad + year

theorem yearStart_strictMono : StrictMono yearStart :=
  strictMono_int_of_lt_succ fun year => by
    unfold yearStart
    omega

theorem yearStart_add (e : ℤ) {c q k : ℤ} (hc : 0 ≤ c ∧ c ≤ 3) (hq : 0 ≤ q ∧ q ≤ 24)
    (hk : 0 ≤ k ∧ k ≤ 3) :
    yearStart (400 * e + 100 * c + 4 * q + k) = 146097 * e + 36524 * c + 1461 * q + 365 * k := by
  unfold yearStart
  omega

theorem yearStart_yearOf (z : ℤ) :
    yearStart (yearOf z) ≤ z ∧ z ≤ yearStart (yearOf z) + 365 := by
  unfold yearOf
  generalize hc : min (z % 146097 / 36524) 3 = c
  generalize hq : (z % 146097 - 36524 * c) / 1461 = q
  generalize hk : min ((z % 146097 - 36524 * c - 1461 * q) / 365) 3 = k
  simp only [hq, hk]
  rw [yearStart_add _ (by omega) (by omega) (by omega)]
  omega

theorem yearStart_next (e : ℤ) {c q k z : ℤ} (hc : 0 ≤ c ∧ c ≤ 3) (hq : 0 ≤ q ∧ q ≤ 24)
    (hk : 0 ≤ k ∧ k ≤ 3) (hlast : k = 3 → q = 24 → c < 3 → z < 146097 * e + 36524 * (c + 1))
    (hquad : k = 3 → z < 146097 * e + 36524 * c + 1461 * (q + 1))
    (hyear : k < 3 → z < 146097 * e + 36524 * c + 1461 * q + 365 * (k + 1))
    (hcycle : z < 146097 * (e + 1)) :
    z < yearStart (400 * e + 100 * c + 4 * q + k + 1) := by
  by_cases hk3 : k = 3
  · by_cases hq24 : q = 24
    · by_cases hc3 : c = 3
      · have h := yearStart_add (e + 1) (c := 0) (q := 0) (k := 0) (by omega) (by omega) (by omega)
        rw [show 400 * e + 100 * c + 4 * q + k + 1 = 400 * (e + 1) + 100 * 0 + 4 * 0 + 0 by omega, h]
        omega
      · have h := yearStart_add e (c := c + 1) (q := 0) (k := 0) (by omega) (by omega) (by omega)
        rw [show 400 * e + 100 * c + 4 * q + k + 1 = 400 * e + 100 * (c + 1) + 4 * 0 + 0 by omega, h]
        have := hlast hk3 hq24 (by omega)
        omega
    · have h := yearStart_add e (c := c) (q := q + 1) (k := 0) (by omega) (by omega) (by omega)
      rw [show 400 * e + 100 * c + 4 * q + k + 1 = 400 * e + 100 * c + 4 * (q + 1) + 0 by omega, h]
      have := hquad hk3
      omega
  · have h := yearStart_add e (c := c) (q := q) (k := k + 1) (by omega) (by omega) (by omega)
    rw [show 400 * e + 100 * c + 4 * q + k + 1 = 400 * e + 100 * c + 4 * q + (k + 1) by omega, h]
    have := hyear (by omega)
    omega

theorem lt_yearStart_next (z : ℤ) : z < yearStart (yearOf z + 1) := by
  unfold yearOf
  generalize hc : min (z % 146097 / 36524) 3 = c
  generalize hq : (z % 146097 - 36524 * c) / 1461 = q
  generalize hk : min ((z % 146097 - 36524 * c - 1461 * q) / 365) 3 = k
  simp only [hq, hk]
  apply yearStart_next <;> omega

/-! ## Dates -/

/-- 1 January 1970, counted from 1 March of the year 0. -/
def epoch : ℤ := 719468

def Date.toDay (date : Date) : ℤ :=
  yearStart (if date.month ≤ 2 then date.year - 1 else date.year) +
    monthStart ((date.month + 9) % 12) + date.day - 1 - epoch

def ofDay (day : ℤ) : Date :=
  let year := yearOf (day + epoch)
  let dayOfYear := day + epoch - yearStart year
  let month := (5 * dayOfYear + 2) / 153
  { year := if month < 10 then year else year + 1
    month := if month < 10 then month + 3 else month - 9
    day := dayOfYear - monthStart month + 1 }

example : ofDay 0 = ⟨1970, 1, 1⟩ ∧ ofDay 19782 = ⟨2024, 2, 29⟩ ∧ ofDay 20818 = ⟨2026, 12, 31⟩ := by
  decide

/-- The year, the month and the day of the month, from the day of the year. -/
theorem ofDay_eq (day : ℤ) : ∃ y d m, yearStart y + d = day + epoch ∧ 0 ≤ d ∧ d ≤ 365 ∧
    m = (5 * d + 2) / 153 ∧ 0 ≤ m ∧ m ≤ 11 ∧
    ofDay day = ⟨if m < 10 then y else y + 1, if m < 10 then m + 3 else m - 9,
      d - monthStart m + 1⟩ := by
  have hyear := yearStart_yearOf (day + epoch)
  refine ⟨yearOf (day + epoch), day + epoch - yearStart (yearOf (day + epoch)), _, ?_, ?_, ?_, rfl,
    ?_, ?_, rfl⟩ <;> omega

/-- The day is found again from its date. -/
theorem toDay_ofDay (day : ℤ) : (ofDay day).toDay = day := by
  obtain ⟨y, d, m, hday, -, -, -, hm, hm', hdate⟩ := ofDay_eq day
  rw [hdate, Date.toDay]
  by_cases hlate : m < 10
  · have hback : (m + 3 + 9) % 12 = m := by omega
    simp only [hlate, if_true, hback]
    rw [if_neg (by omega)]
    omega
  · have hback : (m - 9 + 9) % 12 = m := by omega
    simp only [hlate, if_false, hback]
    rw [if_pos (by omega), add_sub_cancel_right]
    omega

theorem ofDay_injective : Function.Injective ofDay :=
  Function.LeftInverse.injective toDay_ofDay

theorem month_bounds (day : ℤ) : 1 ≤ (ofDay day).month ∧ (ofDay day).month ≤ 12 := by
  obtain ⟨y, d, m, -, -, -, -, hm, hm', hdate⟩ := ofDay_eq day
  rw [hdate]
  simp only
  split <;> omega

theorem day_bounds (day : ℤ) : 1 ≤ (ofDay day).day ∧ (ofDay day).day ≤ 31 := by
  obtain ⟨y, d, m, -, -, -, hmonth, hm, hm', hdate⟩ := ofDay_eq day
  rw [hdate]
  simp only [monthStart]
  omega

theorem year_nonneg {day : ℤ} (h : -epoch ≤ day) : 0 ≤ (ofDay day).year := by
  obtain ⟨y, d, m, hday, -, hd, -, -, -, hdate⟩ := ofDay_eq day
  have hy : 0 ≤ y := by
    unfold yearStart at hday
    omega
  rw [hdate]
  simp only
  split <;> omega

/-! ## Months -/

/-- Months counted from January of the year 0. -/
def Date.index (date : Date) : ℤ := 12 * date.year + (date.month - 1)

def firstOf (index : ℤ) : ℤ := Date.toDay ⟨index / 12, index % 12 + 1, 1⟩

theorem firstOf_eq (a : ℤ) {b : ℤ} (hb : 0 ≤ b) (hb' : b < 12) :
    firstOf (12 * a + b) =
      yearStart (if b ≤ 1 then a - 1 else a) + monthStart ((b + 10) % 12) - epoch := by
  have hyear : (12 * a + b) / 12 = a := by omega
  have hmonth : (12 * a + b) % 12 = b := by omega
  rw [firstOf, Date.toDay, hyear, hmonth]
  simp only
  rw [show b + 1 + 9 = b + 10 by omega]
  by_cases hfirst : b ≤ 1
  · rw [if_pos (by omega), if_pos hfirst]
    omega
  · rw [if_neg (by omega), if_neg hfirst]
    omega

theorem firstOf_next (index : ℤ) : firstOf index + 28 ≤ firstOf (index + 1) := by
  obtain ⟨a, b, rfl, hb, hb'⟩ : ∃ a b, index = 12 * a + b ∧ 0 ≤ b ∧ b < 12 :=
    ⟨index / 12, index % 12, by omega, by omega, by omega⟩
  rw [firstOf_eq a hb hb']
  by_cases hlast : b = 11
  · rw [show 12 * a + b + 1 = 12 * (a + 1) + 0 by omega, firstOf_eq _ (by omega) (by omega), hlast]
    simp [monthStart]
    omega
  · rw [show 12 * a + b + 1 = 12 * a + (b + 1) by omega, firstOf_eq _ (by omega) (by omega)]
    unfold yearStart monthStart
    split <;> split <;> omega

theorem firstOf_strictMono : StrictMono firstOf :=
  strictMono_int_of_lt_succ fun index => by
    have h := firstOf_next index
    omega

theorem firstOf_index (day : ℤ) : firstOf (ofDay day).index + (ofDay day).day - 1 = day := by
  obtain ⟨hlow, hhigh⟩ := month_bounds day
  have hback := toDay_ofDay day
  have hyear : (ofDay day).index / 12 = (ofDay day).year := by
    rw [Date.index]
    omega
  have hmonth : (ofDay day).index % 12 + 1 = (ofDay day).month := by
    rw [Date.index]
    omega
  rw [firstOf, hyear, hmonth]
  rw [Date.toDay] at hback ⊢
  simp only
  omega

theorem lt_firstOf_next (day : ℤ) : day < firstOf ((ofDay day).index + 1) := by
  have hyear := yearStart_yearOf (day + epoch)
  have hnext := lt_yearStart_next (day + epoch)
  rw [ofDay, Date.index]
  generalize yearOf (day + epoch) = y at hyear hnext ⊢
  generalize hd : day + epoch - yearStart y = d
  generalize hm : (5 * d + 2) / 153 = m
  rcases lt_trichotomy m 9 with hlt | rfl | hgt
  · rw [if_pos (by omega), if_pos (by omega), show 12 * y + (m + 3 - 1) + 1 = 12 * y + (m + 3) by omega,
      firstOf_eq _ (by omega) (by omega), if_neg (by omega), show (m + 3 + 10) % 12 = m + 1 by omega]
    unfold monthStart
    omega
  · rw [if_pos (by omega), if_pos (by omega), show 12 * y + (9 + 3 - 1) + 1 = 12 * (y + 1) + 0 by omega,
      firstOf_eq _ (by omega) (by omega)]
    simp [monthStart]
    omega
  · rw [if_neg (by omega), if_neg (by omega),
      show 12 * (y + 1) + (m - 9 - 1) + 1 = 12 * (y + 1) + (m - 9) by omega,
      firstOf_eq _ (by omega) (by omega)]
    by_cases hlast : m = 11
    · rw [if_neg (by omega), hlast]
      simp [monthStart]
      omega
    · rw [if_pos (by omega), add_sub_cancel_right]
      unfold monthStart
      omega

theorem index_eq {day index : ℤ} (h : firstOf index ≤ day) (hnext : day < firstOf (index + 1)) :
    (ofDay day).index = index := by
  have hday := firstOf_index day
  have hday_next := lt_firstOf_next day
  obtain ⟨hone, -⟩ := day_bounds day
  rcases lt_trichotomy (ofDay day).index index with hlt | heq | hgt
  · have hle := firstOf_strictMono.monotone (Int.add_one_le_iff.2 hlt)
    omega
  · exact heq
  · have hle := firstOf_strictMono.monotone (Int.add_one_le_iff.2 hgt)
    omega

theorem index_mono {day day' : ℤ} (h : day ≤ day') : (ofDay day).index ≤ (ofDay day').index := by
  by_contra hlt
  rw [not_le] at hlt
  have hle := firstOf_strictMono.monotone (Int.add_one_le_iff.2 hlt)
  have hday := firstOf_index day
  have hnext := lt_firstOf_next day'
  obtain ⟨hone, -⟩ := day_bounds day
  omega

end Calendar
