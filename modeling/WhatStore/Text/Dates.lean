import WhatStore.Reports.Calendar
import WhatStore.Text.Numbers

/-!
# Dates as text

How the language and the database print instants, which are counted in
milliseconds: `toISOString`, and `to_char` with the format `YYYY-MM-DD`. Up to
the year 9999 the first ten characters of the one are the other.
-/

namespace WhatStore.Text

open Calendar

def pad (width n : ℕ) : Chars :=
  let digits := Nat.toDigits 10 n
  zeros (width - digits.length) ++ digits

/-- The date of a day: `to_char(…, 'YYYY-MM-DD')` from the year 1 on. -/
def dateText (day : ℤ) : Chars :=
  let date := ofDay day
  pad 4 date.year.toNat ++ '-' :: (pad 2 date.month.toNat ++ '-' :: pad 2 date.day.toNat)

def dayLength : ℤ := 86400000

def utcDay (t : ℤ) : ℤ := t / dayLength

/-- Years outside of 0 to 9999 have a sign and six digits. -/
def isoYear (year : ℤ) : Chars :=
  if 0 ≤ year ∧ year ≤ 9999 then pad 4 year.toNat
  else (if year < 0 then '-' else '+') :: pad 6 year.natAbs

def clockText (ms : ℕ) : Chars :=
  pad 2 (ms / 3600000) ++ ':' :: (pad 2 (ms / 60000 % 60) ++ ':' ::
    (pad 2 (ms / 1000 % 60) ++ '.' :: (pad 3 (ms % 1000) ++ ['Z'])))

def toISOString (t : ℤ) : Chars :=
  let date := ofDay (utcDay t)
  isoYear date.year ++ '-' :: (pad 2 date.month.toNat ++ '-' :: (pad 2 date.day.toNat ++
    'T' :: clockText (t % dayLength).toNat))

/-- `date.toISOString().slice(0, 10)`. -/
def dayKey (t : ℤ) : Chars := (toISOString t).take 10

example : dayKey 1798761599999 = "2026-12-31".toList := by decide

/-! ## Padded numbers -/

theorem mem_pad {width n : ℕ} {c : Char} (h : c ∈ pad width n) : c.isDigit = true := by
  rcases List.mem_append.1 h with h | h
  · exact mem_zeros h
  · exact mem_toDigits h

theorem ofDigitChars_pad (width n : ℕ) : Nat.ofDigitChars 10 (pad width n) 0 = n := by
  rw [pad, Nat.ofDigitChars_append, zeros, Nat.ofDigitChars_replicate_zero, Nat.mul_zero,
    Nat.ofDigitChars_ten_toDigits]

theorem pad_injective (width : ℕ) : Function.Injective (pad width) :=
  Function.LeftInverse.injective (ofDigitChars_pad width)

theorem length_pad {width n : ℕ} (hwidth : 0 < width) (h : n < 10 ^ width) :
    (pad width n).length = width := by
  have hdigits := (Nat.length_toDigits_le_iff (b := 10) (by decide) hwidth).2 h
  rw [pad, List.length_append, zeros, List.length_replicate]
  omega

theorem exists_pad_eq_cons (width n : ℕ) : ∃ c rest, pad width n = c :: rest ∧ c.isDigit = true := by
  cases hpad : pad width n with
  | nil => exact absurd (List.append_eq_nil_iff.1 hpad).2 Nat.toDigits_ne_nil
  | cons c rest => exact ⟨c, rest, rfl, mem_pad (hpad ▸ List.mem_cons_self)⟩

/-! ## Days by their text -/

theorem pad_hyphen_inj {width a b : ℕ} {s t : Chars}
    (h : pad width a ++ '-' :: s = pad width b ++ '-' :: t) : a = b ∧ s = t := by
  have hcut : ∀ n (s : Chars), (pad width n ++ '-' :: s).takeWhile Char.isDigit = pad width n := by
    intro n s
    rw [List.takeWhile_append_of_pos fun c hc => mem_pad hc]
    simp
  have hpad := congrArg (List.takeWhile Char.isDigit) h
  rw [hcut, hcut] at hpad
  rw [hpad] at h
  exact ⟨pad_injective width hpad, (List.cons.inj (List.append_cancel_left h)).2⟩

theorem dateText_inj {a b : ℤ} (ha : -epoch ≤ a) (hb : -epoch ≤ b)
    (h : dateText a = dateText b) : a = b := by
  obtain ⟨hyear, hrest⟩ := pad_hyphen_inj h
  obtain ⟨hmonth, hday⟩ := pad_hyphen_inj hrest
  have hday := pad_injective 2 hday
  have hya := year_nonneg ha
  have hyb := year_nonneg hb
  have hma := month_bounds a
  have hmb := month_bounds b
  have hda := day_bounds a
  have hdb := day_bounds b
  apply ofDay_injective
  generalize ofDay a = date at *
  generalize ofDay b = date' at *
  cases date
  cases date'
  simp only [Date.mk.injEq] at *
  omega

theorem dayKey_eq {t : ℤ} (hyear : 0 ≤ (ofDay (utcDay t)).year)
    (hyear' : (ofDay (utcDay t)).year ≤ 9999) : dayKey t = dateText (utcDay t) := by
  have hmonth := month_bounds (utcDay t)
  have hday := day_bounds (utcDay t)
  have hlength : (dateText (utcDay t)).length = 10 := by
    simp only [dateText, List.length_append, List.length_cons]
    rw [length_pad (by decide) (by omega), length_pad (by decide) (by omega),
      length_pad (by decide) (by omega)]
  have hprefix : toISOString t =
      dateText (utcDay t) ++ 'T' :: clockText (t % dayLength).toNat := by
    simp [toISOString, isoYear, hyear, hyear', dateText]
  rw [dayKey, hprefix, ← hlength, List.take_left]

/-- A key that is the text of a day is of a year with four digits. -/
theorem year_le_of_dayKey_eq {t day : ℤ} (h : dayKey t = dateText day) :
    (ofDay (utcDay t)).year ≤ 9999 := by
  by_contra hlate
  obtain ⟨c, rest, hpad, hc⟩ := exists_pad_eq_cons 4 (ofDay day).year.toNat
  have hyear : ¬ (ofDay (utcDay t)).year < 0 := by omega
  simp only [dayKey, toISOString, isoYear, hlate, and_false, if_false, hyear, dateText, hpad,
    List.cons_append, List.take_succ_cons, List.cons.injEq] at h
  rw [← h.1] at hc
  exact absurd hc (by decide)

end WhatStore.Text
