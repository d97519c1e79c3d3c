import Mathlib.Algebra.Order.Field.Rat
import Mathlib.Data.List.DropRight
import Mathlib.Data.List.TakeWhile
import Mathlib.Tactic.FieldSimp
import Mathlib.Tactic.Ring

/-!
# Numbers as text

How the language prints a number: the decimal digits and the place of the point,
with an exponent when the number is very large or very small. A number that is
printed is read back as it was.
-/

namespace WhatStore.Text

abbrev Chars := List Char

abbrev Digit := { c : Char // c.isDigit = true }

/-! ## Printing -/

/-- A number by its decimal digits. The finite number with the digits `d₁, …, dₖ` and
the point `n` is `0.d₁…dₖ` times ten to the power `n`. -/
inductive Number
  | nan
  | infinite (negative : Bool)
  | zero
  | finite (negative : Bool) (digits : List Digit) (point : ℤ)

def digitsText (digits : List Digit) : Chars := digits.map Subtype.val

def zeros (n : ℕ) : Chars := List.replicate n '0'

def exponentText (exponent : ℤ) : Chars :=
  'e' :: (if 0 ≤ exponent then '+' else '-') :: Nat.toDigits 10 exponent.natAbs

def leadingText : List Digit → Chars
  | [] => []
  | [d] => [d.val]
  | d :: rest => d.val :: '.' :: digitsText rest

/-- A positive number is printed with all its digits from 10⁻⁶ up to 10²¹. -/
def positiveText (digits : List Digit) (point : ℤ) : Chars :=
  let k : ℤ := digits.length
  if k ≤ point ∧ point ≤ 21 then digitsText digits ++ zeros (point - k).toNat
  else if 0 < point ∧ point ≤ 21 then
    digitsText (digits.take point.toNat) ++ '.' :: digitsText (digits.drop point.toNat)
  else if -6 < point ∧ point ≤ 0 then '0' :: '.' :: (zeros (-point).toNat ++ digitsText digits)
  else leadingText digits ++ exponentText (point - 1)

def signText (negative : Bool) : Chars := if negative then ['-'] else []

/-- `String(value)` of a number. -/
def Number.toText : Number → Chars
  | .nan => "NaN".toList
  | .infinite negative => signText negative ++ "Infinity".toList
  | .zero => ['0']
  | .finite negative digits point => signText negative ++ positiveText digits point

theorem mem_digitsText {digits : List Digit} {c : Char} (h : c ∈ digitsText digits) :
    c.isDigit = true := by
  obtain ⟨d, -, rfl⟩ := List.mem_map.1 h
  exact d.property

theorem mem_zeros {n : ℕ} {c : Char} (h : c ∈ zeros n) : c.isDigit = true := by
  rw [List.eq_of_mem_replicate h]
  rfl

theorem mem_toDigits {n : ℕ} {c : Char} (h : c ∈ Nat.toDigits 10 n) : c.isDigit = true :=
  Nat.isDigit_of_mem_toDigits (by decide) (by decide) h

theorem mem_leadingText {digits : List Digit} {c : Char} (h : c ∈ leadingText digits) :
    c.isDigit = true ∨ c = '.' := by
  match digits with
  | [] => cases h
  | [d] =>
      rw [List.mem_singleton.1 h]
      exact .inl d.property
  | d :: d' :: rest =>
      simp only [leadingText, List.mem_cons] at h
      rcases h with rfl | rfl | h
      · exact .inl d.property
      · exact .inr rfl
      · exact .inl (mem_digitsText h)

/-! ## Reading -/

def readDigits (str : Chars) : ℚ := Nat.ofDigitChars 10 str 0

def readDecimal (str : Chars) : Option ℚ :=
  let whole := str.takeWhile Char.isDigit
  match str.dropWhile Char.isDigit with
  | [] => if whole.isEmpty then none else some (readDigits whole)
  | '.' :: fraction =>
    if (whole ++ fraction).isEmpty || !fraction.all Char.isDigit then none
    else some (readDigits (whole ++ fraction) / 10 ^ fraction.length)
  | _ => none

def readExponentDigits (str : Chars) : Option ℤ :=
  if str.isEmpty || !str.all Char.isDigit then none else some (Nat.ofDigitChars 10 str 0)

def readExponent : Chars → Option ℤ
  | [] => some 0
  | 'e' :: '+' :: str => readExponentDigits str
  | 'e' :: '-' :: str => (readExponentDigits str).map fun n => -n
  | 'e' :: str => readExponentDigits str
  | _ => none

/-- `Number(value)` of a decimal literal without a sign. -/
def readNumber (str : Chars) : Option ℚ :=
  match readDecimal (str.takeWhile (· != 'e')), readExponent (str.dropWhile (· != 'e')) with
  | some mantissa, some exponent => some (mantissa * 10 ^ exponent)
  | _, _ => none

/-! ## What is printed is read back -/

variable {whole fraction str : Chars} {digits : List Digit} {point : ℤ}

theorem readDigits_append (str str' : Chars) :
    readDigits (str ++ str') = readDigits str * 10 ^ str'.length + readDigits str' := by
  rw [readDigits, Nat.ofDigitChars_append, Nat.ofDigitChars_eq_ofDigitChars_zero, readDigits,
    readDigits]
  push_cast
  ring

theorem readDigits_zeros (n : ℕ) : readDigits (zeros n) = 0 := by
  simp [readDigits, zeros, Nat.ofDigitChars_replicate_zero]

theorem readDecimal_whole (hne : whole ≠ []) (hwhole : ∀ c ∈ whole, c.isDigit = true) :
    readDecimal whole = some (readDigits whole) := by
  rw [readDecimal, List.dropWhile_eq_nil_iff.2 hwhole, List.takeWhile_eq_self_iff.2 hwhole]
  simp [hne]

theorem readDecimal_fraction (hne : whole ≠ []) (hwhole : ∀ c ∈ whole, c.isDigit = true)
    (hfraction : ∀ c ∈ fraction, c.isDigit = true) :
    readDecimal (whole ++ '.' :: fraction) =
      some (readDigits (whole ++ fraction) / 10 ^ fraction.length) := by
  have hpoint : Char.isDigit '.' = false := rfl
  have hall : fraction.all Char.isDigit = true := List.all_eq_true.2 hfraction
  rw [readDecimal, List.takeWhile_append_of_pos hwhole, List.dropWhile_append_of_pos hwhole]
  simp [hpoint, hne, hall]

theorem readExponent_exponentText (exponent : ℤ) :
    readExponent (exponentText exponent) = some exponent := by
  have hdigits : readExponentDigits (Nat.toDigits 10 exponent.natAbs) =
      some (exponent.natAbs : ℤ) := by
    have hall : (Nat.toDigits 10 exponent.natAbs).all Char.isDigit = true :=
      List.all_eq_true.2 fun c hc => mem_toDigits hc
    simp [readExponentDigits, hall, Nat.toDigits_ne_nil]
  unfold exponentText
  split
  · next hpos =>
      rw [readExponent, hdigits, Int.natAbs_of_nonneg hpos]
  · next hneg =>
      rw [readExponent, hdigits, Option.map_some, Int.ofNat_natAbs_of_nonpos (by omega), neg_neg]

theorem readNumber_of_decimal {x : ℚ} (hchars : ∀ c ∈ str, c ≠ 'e')
    (hread : readDecimal str = some x) : readNumber str = some x := by
  have hplain : ∀ c ∈ str, (c != 'e') = true := by simpa using hchars
  rw [readNumber, List.takeWhile_eq_self_iff.2 hplain, List.dropWhile_eq_nil_iff.2 hplain, hread]
  simp [readExponent]

theorem readNumber_of_exponent {x : ℚ} {exponent : ℤ} (hchars : ∀ c ∈ str, c ≠ 'e')
    (hread : readDecimal str = some x) :
    readNumber (str ++ exponentText exponent) = some (x * 10 ^ exponent) := by
  have hplain : ∀ c ∈ str, (c != 'e') = true := by simpa using hchars
  have hstop : (exponentText exponent).takeWhile (· != 'e') = [] ∧
      (exponentText exponent).dropWhile (· != 'e') = exponentText exponent := by
    constructor <;> rfl
  rw [readNumber, List.takeWhile_append_of_pos hplain, List.dropWhile_append_of_pos hplain,
    hstop.1, hstop.2, List.append_nil, hread, readExponent_exponentText]

theorem ne_e_of_isDigit {c : Char} (h : c.isDigit = true) : c ≠ 'e' := by
  rintro rfl
  cases h

theorem digitsText_ne_nil (h : digits ≠ []) : digitsText digits ≠ [] := by
  rwa [digitsText, ne_eq, List.map_eq_nil_iff]

@[simp] theorem length_digitsText (digits : List Digit) :
    (digitsText digits).length = digits.length := List.length_map _

@[simp] theorem digitsText_append (digits digits' : List Digit) :
    digitsText (digits ++ digits') = digitsText digits ++ digitsText digits' := List.map_append

theorem ne_e_of_leadingText {c : Char} (h : c ∈ leadingText digits) : c ≠ 'e' := by
  rcases mem_leadingText h with h | rfl
  · exact ne_e_of_isDigit h
  · decide

theorem readDecimal_leadingText (h : digits ≠ []) : readDecimal (leadingText digits) =
    some (readDigits (digitsText digits) / 10 ^ (digits.length - 1)) := by
  match digits, h with
  | [d], _ =>
      have hdigit : ∀ c ∈ [d.val], c.isDigit = true := by simp [d.property]
      simpa [leadingText, digitsText] using readDecimal_whole (by simp) hdigit
  | d :: d' :: rest, _ =>
      have hdigit : ∀ c ∈ [d.val], c.isDigit = true := by simp [d.property]
      have hread := readDecimal_fraction (by simp) hdigit fun c hc =>
        @mem_digitsText (d' :: rest) c hc
      simpa [leadingText, digitsText] using hread

theorem readNumber_positiveText (h : digits ≠ []) : readNumber (positiveText digits point) =
    some (readDigits (digitsText digits) * 10 ^ (point - digits.length)) := by
  have hten : (10 : ℚ) ≠ 0 := by norm_num
  have hdigits : ∀ {digits : List Digit}, ∀ c ∈ digitsText digits, c.isDigit = true :=
    fun c hc => mem_digitsText hc
  unfold positiveText
  dsimp only
  split
  · next hshort =>
      have hall : ∀ c ∈ digitsText digits ++ zeros (point - digits.length).toNat,
          c.isDigit = true := by
        intro c hc
        rcases List.mem_append.1 hc with hc | hc
        · exact mem_digitsText hc
        · exact mem_zeros hc
      rw [readNumber_of_decimal (fun c hc => ne_e_of_isDigit (hall c hc))
        (readDecimal_whole (by simp [digitsText_ne_nil h]) hall), readDigits_append,
        readDigits_zeros, add_zero]
      have hlength : ((zeros (point - digits.length).toNat).length : ℤ) = point - digits.length := by
        rw [zeros, List.length_replicate]
        omega
      rw [← zpow_natCast, hlength]
  split
  · next hwithin =>
      have hwhole : digitsText (digits.take point.toNat) ≠ [] := by
        refine digitsText_ne_nil fun hnil => ?_
        rw [List.take_eq_nil_iff] at hnil
        rcases hnil with hnil | hnil
        · omega
        · exact h hnil
      have hchars : ∀ c ∈ digitsText (digits.take point.toNat) ++
          '.' :: digitsText (digits.drop point.toNat), c ≠ 'e' := by
        simp only [List.mem_append, List.mem_cons]
        rintro c (hc | rfl | hc)
        · exact ne_e_of_isDigit (mem_digitsText hc)
        · decide
        · exact ne_e_of_isDigit (mem_digitsText hc)
      rw [readNumber_of_decimal hchars (readDecimal_fraction hwhole hdigits hdigits),
        ← digitsText_append, List.take_append_drop, length_digitsText, List.length_drop,
        div_eq_mul_inv, ← zpow_natCast, ← zpow_neg]
      have hpoint : -((digits.length - point.toNat : ℕ) : ℤ) = point - digits.length := by omega
      rw [hpoint]
  split
  · next hsmall =>
      have hchars : ∀ c ∈ ['0'] ++ '.' :: (zeros (-point).toNat ++ digitsText digits), c ≠ 'e' := by
        simp only [List.mem_append, List.mem_cons, List.not_mem_nil, or_false]
        rintro c (rfl | rfl | hc | hc)
        · decide
        · decide
        · exact ne_e_of_isDigit (mem_zeros hc)
        · exact ne_e_of_isDigit (mem_digitsText hc)
      have hfraction : ∀ c ∈ zeros (-point).toNat ++ digitsText digits, c.isDigit = true := by
        intro c hc
        rcases List.mem_append.1 hc with hc | hc
        · exact mem_zeros hc
        · exact mem_digitsText hc
      refine (readNumber_of_decimal hchars (readDecimal_fraction (by simp) (by simp)
        hfraction)).trans ?_
      have hzeros : readDigits (['0'] ++ zeros (-point).toNat) = 0 :=
        readDigits_zeros ((-point).toNat + 1)
      rw [← List.append_assoc, readDigits_append, hzeros, zero_mul, zero_add, div_eq_mul_inv,
        ← zpow_natCast, ← zpow_neg]
      have hpoint : -((zeros (-point).toNat ++ digitsText digits).length : ℤ) =
          point - digits.length := by
        rw [List.length_append, zeros, List.length_replicate, length_digitsText]
        omega
      rw [hpoint]
  · rw [readNumber_of_exponent (fun c hc => ne_e_of_leadingText hc) (readDecimal_leadingText h),
      div_eq_mul_inv, ← zpow_natCast, ← zpow_neg, mul_assoc, ← zpow_add₀ hten]
    have hlength : 0 < digits.length := List.length_pos_iff.2 h
    have hpoint : -((digits.length - 1 : ℕ) : ℤ) + (point - 1) = point - digits.length := by omega
    rw [hpoint]

/-! ## Whole numbers of a decimal unit -/

def decimalDigits (n : ℕ) : List Digit :=
  (Nat.toDigits 10 n).attach.map fun c => ⟨c.1, mem_toDigits c.2⟩

def trimZeros (digits : List Digit) : List Digit := digits.rdropWhile fun d => d.val == '0'

/-- The number `n / 10 ^ scale`. -/
def Number.ofDecimal (n : ℤ) (scale : ℕ) : Number :=
  if n = 0 then .zero
  else .finite (n < 0) (trimZeros (decimalDigits n.natAbs))
    ((decimalDigits n.natAbs).length - scale)

/-- `(n / 100).toFixed(2)`, which from 10²¹ on is `String(n / 100)`. -/
def toFixed2 (n : ℤ) : Chars :=
  if 10 ^ 23 ≤ n.natAbs then (Number.ofDecimal n 2).toText
  else
    let m := Nat.toDigits 10 n.natAbs
    let padded := zeros (3 - m.length) ++ m
    signText (n < 0) ++ (padded.take (padded.length - 2) ++ '.' :: padded.drop (padded.length - 2))

@[simp] theorem digitsText_decimalDigits (n : ℕ) :
    digitsText (decimalDigits n) = Nat.toDigits 10 n := by
  simp [digitsText, decimalDigits]

theorem trimZeros_append (digits : List Digit) : ∃ n, digits.length = (trimZeros digits).length + n ∧
    digitsText digits = digitsText (trimZeros digits) ++ zeros n := by
  have hsplit := List.rdropWhile_append_rtakeWhile (p := fun d : Digit => d.val == '0') (l := digits)
  refine ⟨(digits.rtakeWhile fun d => d.val == '0').length, ?_, ?_⟩
  · rw [trimZeros, ← List.length_append, hsplit]
  · have hzeros : digitsText (digits.rtakeWhile fun d => d.val == '0') =
        zeros (digits.rtakeWhile fun d => d.val == '0').length := by
      rw [← length_digitsText, zeros, List.eq_replicate_length]
      intro c hc
      obtain ⟨d, hd, rfl⟩ := List.mem_map.1 hc
      simpa using List.mem_rtakeWhile_imp hd
    rw [← hzeros, trimZeros, ← digitsText_append, hsplit]

theorem trimZeros_ne_nil {n : ℕ} (h : n ≠ 0) : trimZeros (decimalDigits n) ≠ [] := by
  intro hnil
  obtain ⟨k, -, hdigits⟩ := trimZeros_append (decimalDigits n)
  rw [digitsText_decimalDigits, hnil] at hdigits
  have hvalue : n = Nat.ofDigitChars 10 (zeros k) 0 := by
    rw [← Nat.ofDigitChars_ten_toDigits (n := n), hdigits]
    rfl
  exact h (hvalue.trans (by simp [zeros]))

theorem readNumber_ofDecimal {n : ℤ} (h : 0 ≤ n) (scale : ℕ) :
    readNumber (Number.ofDecimal n scale).toText = some ((n : ℚ) / 10 ^ scale) := by
  by_cases hn : n = 0
  · subst hn
    have hread : readNumber ['0'] = some (readDigits ['0']) :=
      readNumber_of_decimal (by simp) (readDecimal_whole (by simp) (by simp))
    have hzero : readDigits ['0'] = 0 := readDigits_zeros 1
    rw [Number.ofDecimal, if_pos rfl, Number.toText, hread, hzero, Int.cast_zero, zero_div]
  · have hpositive : decide (n < 0) = false := decide_eq_false (by omega)
    obtain ⟨k, hlength, hdigits⟩ := trimZeros_append (decimalDigits n.natAbs)
    have hvalue : readDigits (digitsText (trimZeros (decimalDigits n.natAbs))) * 10 ^ k = n := by
      have hall : readDigits (digitsText (decimalDigits n.natAbs)) = n := by
        rw [digitsText_decimalDigits, readDigits, Nat.ofDigitChars_ten_toDigits,
          Nat.cast_natAbs, abs_of_nonneg h]
      rw [← hall, hdigits, readDigits_append, readDigits_zeros, add_zero, zeros,
        List.length_replicate]
    rw [Number.ofDecimal, if_neg hn, Number.toText, hpositive]
    refine (readNumber_positiveText (trimZeros_ne_nil (by omega))).trans ?_
    have hpoint : ((decimalDigits n.natAbs).length : ℤ) - scale -
        (trimZeros (decimalDigits n.natAbs)).length = k - scale := by omega
    rw [hpoint, zpow_sub₀ (by norm_num), zpow_natCast, zpow_natCast, ← mul_div_assoc, hvalue]

/-- Below 10²¹ a whole number is printed with all its digits. -/
theorem toText_ofDecimal_zero {n : ℤ} (h : 0 ≤ n) (hlt : n < 10 ^ 21) :
    (Number.ofDecimal n 0).toText = Nat.toDigits 10 n.natAbs := by
  by_cases hn : n = 0
  · subst hn
    rfl
  · have hpositive : decide (n < 0) = false := decide_eq_false (by omega)
    obtain ⟨k, hlength, hdigits⟩ := trimZeros_append (decimalDigits n.natAbs)
    have hshort : (Nat.toDigits 10 n.natAbs).length ≤ 21 :=
      (Nat.length_toDigits_le_iff (by decide) (by decide)).2 (by omega)
    rw [← digitsText_decimalDigits, length_digitsText] at hshort
    rw [Number.ofDecimal, if_neg hn, Number.toText, hpositive]
    have hpoint : ((decimalDigits n.natAbs).length : ℤ) - (0 : ℕ) -
        (trimZeros (decimalDigits n.natAbs)).length = k := by omega
    rw [positiveText, if_pos (by omega), hpoint, Int.toNat_natCast, ← hdigits,
      digitsText_decimalDigits]
    rfl

end WhatStore.Text
