import WhatStore.Shop.Pricing
import WhatStore.Text.Numbers
import Mathlib.Algebra.Order.Round
import Mathlib.Data.Rat.Floor
import Mathlib.Tactic.Linarith

/-!
# Amounts for a gateway

`currency.util` and the text of an amount that PayPal is sent and sends back, on exact
numbers. The program has doubles, which agree with them where every number on the way is a
double.
-/

namespace WhatStore.Currency

open Text

/-- `Math.round`, which rounds halves up. -/
def mathRound (x : ℚ) : ℤ := ⌊x + 1 / 2⌋

def factor (currency : String) : ℚ := if zeroDecimal currency then 1 else 100

/-- Converts a decimal amount to the gateway's integer minor unit. -/
def toMinorUnits (amount : ℚ) (currency : String) : ℤ := mathRound (amount * factor currency)

/-- PayPal wants a text with the currency's own number of decimals. The program multiplies
and divides doubles here. -/
def paypalAmountValue (amount : ℚ) (currency : String) : Chars :=
  let minor := toMinorUnits amount currency
  if toMinorUnits 1 currency = 1 then (Number.ofDecimal minor 0).toText else toFixed2 minor

variable {currency : String} {amount : ℚ} {n : ℤ}

theorem mathRound_intCast (n : ℤ) : mathRound n = n := by
  rw [mathRound, Int.floor_intCast_add]
  norm_num

theorem mathRound_nonneg {x : ℚ} (h : 0 ≤ x) : 0 ≤ mathRound x := by
  rw [mathRound, Int.floor_nonneg]
  linarith

theorem toMinorUnits_cents (amount : Cents) (currency : String) :
    toMinorUnits (amount / 100) currency = WhatStore.toMinorUnits amount currency := by
  change mathRound (amount / 100 * if zeroDecimal currency = true then 1 else 100) =
    if zeroDecimal currency = true then (amount + 50) / 100 else amount
  by_cases hzero : zeroDecimal currency = true
  · have hsum : (amount : ℚ) / 100 * 1 + 1 / 2 = ((amount + 50 : ℤ) : ℚ) / (100 : ℕ) := by
      push_cast
      ring
    rw [if_pos hzero, if_pos hzero, mathRound, hsum, Rat.floor_intCast_div_natCast]
    rfl
  · rw [if_neg hzero, if_neg hzero, div_mul_cancel₀ _ (by norm_num), mathRound_intCast]

theorem toMinorUnits_one : toMinorUnits 1 currency = 1 ↔ zeroDecimal currency = true := by
  unfold toMinorUnits factor
  cases zeroDecimal currency with
  | true =>
      have hone := mathRound_intCast 1
      simpa using hone
  | false =>
      have hhundred := mathRound_intCast 100
      simp only [Int.cast_ofNat] at hhundred
      simp [hhundred]

theorem toMinorUnits_minor (n : ℤ) : toMinorUnits (n / factor currency) currency = n := by
  have hfactor : factor currency ≠ 0 := by
    unfold factor
    split <;> norm_num
  rw [toMinorUnits, div_mul_cancel₀ _ hfactor, mathRound_intCast]

/-- The digits of a number of hundredths, at least three of them. -/
def paddedDigits (n : ℕ) : Chars := zeros (3 - (Nat.toDigits 10 n).length) ++ Nat.toDigits 10 n

theorem three_le_length_paddedDigits (n : ℕ) : 3 ≤ (paddedDigits n).length := by
  rw [paddedDigits, List.length_append, zeros, List.length_replicate]
  omega

theorem mem_paddedDigits {n : ℕ} {c : Char} (h : c ∈ paddedDigits n) : c.isDigit = true := by
  rcases List.mem_append.1 h with h | h
  · exact mem_zeros h
  · exact mem_toDigits h

theorem toFixed2_eq (h : 0 ≤ n) (hlt : n < 10 ^ 23) : ∃ whole : Chars, ∃ d d' : Char,
    whole ≠ [] ∧ (∀ c ∈ whole ++ [d, d'], c.isDigit = true) ∧
    toFixed2 n = whole ++ ['.', d, d'] ∧ whole ++ [d, d'] = paddedDigits n.natAbs := by
  have hlength := three_le_length_paddedDigits n.natAbs
  obtain ⟨d, d', hlast⟩ : ∃ d d', (paddedDigits n.natAbs).drop
      ((paddedDigits n.natAbs).length - 2) = [d, d'] := by
    refine List.length_eq_two.1 ?_
    rw [List.length_drop]
    omega
  have hsplit := List.take_append_drop ((paddedDigits n.natAbs).length - 2) (paddedDigits n.natAbs)
  rw [hlast] at hsplit
  refine ⟨(paddedDigits n.natAbs).take ((paddedDigits n.natAbs).length - 2), d, d', ?_, ?_, ?_,
    hsplit⟩
  · intro hnil
    have htake := congrArg List.length hnil
    rw [List.length_take, List.length_nil] at htake
    omega
  · intro c hc
    rw [hsplit] at hc
    exact mem_paddedDigits hc
  · have hpositive : decide (n < 0) = false := decide_eq_false (by omega)
    rw [toFixed2, if_neg (by omega), hpositive, ← hlast]
    rfl

theorem readNumber_toFixed2 (h : 0 ≤ n) : readNumber (toFixed2 n) = some ((n : ℚ) / 100) := by
  by_cases hlt : n < 10 ^ 23
  · obtain ⟨whole, d, d', hne, hdigits, htext, hpadded⟩ := toFixed2_eq h hlt
    have hwhole : ∀ c ∈ whole, c.isDigit = true :=
      fun c hc => hdigits c (List.mem_append_left _ hc)
    have hfraction : ∀ c ∈ [d, d'], c.isDigit = true :=
      fun c hc => hdigits c (List.mem_append_right _ hc)
    have hchars : ∀ c ∈ whole ++ '.' :: [d, d'], c ≠ 'e' := by
      intro c hc
      rcases List.mem_append.1 hc with hc | hc
      · exact ne_e_of_isDigit (hwhole c hc)
      rcases List.mem_cons.1 hc with rfl | hc
      · decide
      · exact ne_e_of_isDigit (hfraction c hc)
    have hvalue : readDigits (paddedDigits n.natAbs) = n := by
      rw [paddedDigits, readDigits_append, readDigits_zeros, zero_mul, zero_add, readDigits,
        Nat.ofDigitChars_ten_toDigits, Nat.cast_natAbs, abs_of_nonneg h]
    rw [htext, readNumber_of_decimal hchars (readDecimal_fraction hne hwhole hfraction), hpadded,
      hvalue]
    norm_num
  · rw [toFixed2, if_pos (by omega), readNumber_ofDecimal h]
    norm_num

/-- **The amount of a PayPal order** is read back in the same minor units; below 10²¹ it is
printed without a fraction in a currency that has none, and with two digits in the others. -/
theorem paypalAmountValue_round_trip (hamount : 0 ≤ amount) :
    (∃ x, readNumber (paypalAmountValue amount currency) = some x ∧
      toMinorUnits x currency = toMinorUnits amount currency) ∧
    (toMinorUnits amount currency < 10 ^ 21 * factor currency →
      (zeroDecimal currency = true → ∀ c ∈ paypalAmountValue amount currency, c.isDigit = true) ∧
      (zeroDecimal currency = false → ∃ whole : Chars, ∃ d d' : Char, whole ≠ [] ∧
        (∀ c ∈ whole ++ [d, d'], c.isDigit = true) ∧
        paypalAmountValue amount currency = whole ++ ['.', d, d'])) := by
  have hfactor : 0 ≤ factor currency := by
    unfold factor
    split <;> norm_num
  have hminor : 0 ≤ toMinorUnits amount currency := mathRound_nonneg (mul_nonneg hamount hfactor)
  cases hzero : zeroDecimal currency with
  | true =>
      have hone : factor currency = 1 := if_pos hzero
      rw [paypalAmountValue, if_pos (toMinorUnits_one.2 hzero), hone]
      refine ⟨⟨_, readNumber_ofDecimal hminor 0, ?_⟩, fun hlt => ⟨fun _ c hc => ?_, nofun⟩⟩
      · have hsame := @toMinorUnits_minor currency (toMinorUnits amount currency)
        rwa [hone, ← pow_zero (10 : ℚ)] at hsame
      · rw [mul_one] at hlt
        rw [toText_ofDecimal_zero hminor (by exact_mod_cast hlt)] at hc
        exact mem_toDigits hc
  | false =>
      have hhundred : factor currency = 100 := if_neg (by simp [hzero])
      rw [paypalAmountValue, if_neg (by simp [toMinorUnits_one, hzero]), hhundred]
      refine ⟨⟨_, readNumber_toFixed2 hminor, ?_⟩, fun hlt => ⟨nofun, fun _ => ?_⟩⟩
      · have hsame := @toMinorUnits_minor currency (toMinorUnits amount currency)
        rwa [hhundred] at hsame
      · have hbound : (10 : ℚ) ^ 21 * 100 = 10 ^ 23 := by norm_num
        rw [hbound] at hlt
        obtain ⟨whole, d, d', hne, hdigits, htext, -⟩ := toFixed2_eq hminor
          (by exact_mod_cast hlt)
        exact ⟨whole, d, d', hne, hdigits, htext⟩

theorem paypalAmountValue_nine : ∃ x, readNumber (paypalAmountValue (999 / 100) "usd") = some x ∧
    toMinorUnits x "usd" = toMinorUnits (999 / 100) "usd" :=
  (paypalAmountValue_round_trip (by norm_num)).1

/-- From 10²¹ on an amount is printed with an exponent. The amount is a double, and so are
its hundredths, so the program prints the same. -/
theorem paypalAmountValue_exponent : ¬ ∀ (amount : ℚ) (currency : String), 0 ≤ amount →
    (∃ x, readNumber (paypalAmountValue amount currency) = some x ∧
      toMinorUnits x currency = toMinorUnits amount currency) ∧
    (zeroDecimal currency = true → ∀ c ∈ paypalAmountValue amount currency, c.isDigit = true) ∧
    (zeroDecimal currency = false → ∃ whole : Chars, ∃ d d' : Char, whole ≠ [] ∧
      (∀ c ∈ whole ++ [d, d'], c.isDigit = true) ∧
      paypalAmountValue amount currency = whole ++ ['.', d, d']) := by
  intro h
  obtain ⟨whole, d, d', -, hdigits, htext⟩ :=
    (h (16 * 10 ^ 20) "USD" (by norm_num)).2.2 (by decide +kernel)
  have hvalue : paypalAmountValue (16 * 10 ^ 20) "USD" = "1.6e+21".toList := by decide +kernel
  have hexponent : 'e' ∈ whole ++ ['.', d, d'] := by
    rw [← htext, hvalue]
    decide
  rcases List.mem_append.1 hexponent with hwhole | hend
  · exact ne_e_of_isDigit (hdigits 'e' (List.mem_append_left _ hwhole)) rfl
  rcases List.mem_cons.1 hend with hpoint | hlast
  · cases hpoint
  · exact ne_e_of_isDigit (hdigits 'e' (List.mem_append_right _ hlast)) rfl

end WhatStore.Currency
