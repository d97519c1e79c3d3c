import WhatStore.Arithmetic.Numbering
import WhatStore.Text.Units
import Mathlib.Data.Nat.Digits.Defs

/-!
# Slugs of category templates

`slugify` over arbitrary strings: normal form, case and diacritics are those of the
Unicode tables, and what is left of them beside small letters and digits becomes
dashes. `uniqueSlug` numbers a slug until it is free.
-/

namespace WhatStore.Slugs

open Text Numbering

def isWordUnit (u : UInt16) : Bool :=
  (unit 'a' ≤ u ∧ u ≤ unit 'z') ∨ (unit '0' ≤ u ∧ u ≤ unit '9')

def isAscii (value : Units) : Prop := ∀ u ∈ value, u < 128

def asciiLower (u : UInt16) : UInt16 := if unit 'A' ≤ u ∧ u ≤ unit 'Z' then u + 32 else u

def isAsciiDiacritic (u : UInt16) : Bool := u = 0x5E ∨ u = 0x60

/-- What the Unicode tables do to a string, and that they do to ASCII what ASCII says. -/
structure Unicode where
  /-- `value.normalize('NFD')`. -/
  normalize : Units → Units
  /-- `value.replace(/\p{Diacritic}/gu, '')`. -/
  dropDiacritics : Units → Units
  toLowerCase : Units → Units
  normalize_ascii : ∀ value, isAscii value → normalize value = value
  dropDiacritics_ascii : ∀ value, isAscii value →
    dropDiacritics value = value.filter fun u => !isAsciiDiacritic u
  toLowerCase_ascii : ∀ value, isAscii value → toLowerCase value = value.map asciiLower

/-- `value.replace(/[^a-z0-9]+/g, '-')`. -/
def dashes : Units → Units
  | [] => []
  | u :: rest =>
      if isWordUnit u then u :: dashes rest
      else if rest.head?.any (fun v => !isWordUnit v) then dashes rest
      else unit '-' :: dashes rest

/-- `value.replace(/^-+|-+$/g, '')`. -/
def stripDashes (value : Units) : Units :=
  ((value.dropWhile fun u => u = unit '-').reverse.dropWhile fun u => u = unit '-').reverse

def slugify (unicode : Unicode) (value : Units) : Units :=
  stripDashes (dashes (trimUnits (unicode.toLowerCase
    (unicode.dropDiacritics (unicode.normalize value)))))

def decimal (n : ℕ) : Units := (Nat.toDigits 10 n).map unit

/-- The slug of the first turn of the loop, and of those that follow. -/
def firstFree (stored : Finset Units) (base : Units) : ℕ → ℕ → Units → Option Units
  | 0, _, _ => none
  | turns + 1, suffix, slug =>
      if slug ∈ stored then
        firstFree stored base turns (suffix + 1) (base ++ unit '-' :: decimal suffix)
      else some slug

def uniqueSlug (unicode : Unicode) (stored : Finset Units) (name : Units) (turns : ℕ) :
    Option Units :=
  let slug := slugify unicode name
  let base := if slug = [] then unitsOf "category" else slug
  firstFree stored base turns 2 base

/-! ## The form of a slug -/

/-- `[a-z0-9]+(-[a-z0-9]+)*`, from its first character on. -/
inductive IsSlug : Units → Prop
  | last {u : UInt16} : isWordUnit u = true → IsSlug [u]
  | word {u : UInt16} {rest : Units} : isWordUnit u = true → IsSlug rest → IsSlug (u :: rest)
  | dash {u : UInt16} {rest : Units} : isWordUnit u = true → IsSlug rest →
      IsSlug (u :: unit '-' :: rest)

theorem IsSlug.append {slug more : Units} (h : IsSlug slug) (hmore : IsSlug more) :
    IsSlug (slug ++ unit '-' :: more) := by
  induction h with
  | last hu => exact .dash hu hmore
  | word hu _ ih => exact .word hu ih
  | dash hu _ ih => exact .dash hu ih

theorem isSlug_of_words {value : Units} (hne : value ≠ []) (h : ∀ u ∈ value, isWordUnit u = true) :
    IsSlug value := by
  induction value with
  | nil => exact absurd rfl hne
  | cons u rest ih =>
      have hu := h u List.mem_cons_self
      cases rest with
      | nil => exact .last hu
      | cons v rest =>
          exact .word hu (ih (by simp) fun w hw => h w (List.mem_cons_of_mem _ hw))

theorem isWordUnit_dash : isWordUnit (unit '-') = false := by decide

theorem IsSlug.head {slug : Units} (h : IsSlug slug) :
    ∃ u rest, slug = u :: rest ∧ isWordUnit u = true := by
  cases h with
  | last hu => exact ⟨_, _, rfl, hu⟩
  | word hu _ => exact ⟨_, _, rfl, hu⟩
  | dash hu _ => exact ⟨_, _, rfl, hu⟩

theorem IsSlug.reverse_head {slug : Units} (h : IsSlug slug) :
    ∃ u rest, slug.reverse = u :: rest ∧ isWordUnit u = true := by
  induction h with
  | last hu => exact ⟨_, _, rfl, hu⟩
  | word _ _ ih =>
      obtain ⟨v, rest, heq, hv⟩ := ih
      exact ⟨v, _, by rw [List.reverse_cons, heq, List.cons_append], hv⟩
  | dash _ _ ih =>
      obtain ⟨v, rest, heq, hv⟩ := ih
      exact ⟨v, _, by rw [List.reverse_cons, List.reverse_cons, heq, List.cons_append,
        List.cons_append], hv⟩

theorem IsSlug.units {slug : Units} (h : IsSlug slug) :
    ∀ u ∈ slug, isWordUnit u = true ∨ u = unit '-' := by
  induction h with
  | last hu => simp [hu]
  | word hu _ ih => simpa [hu] using ih
  | dash hu _ ih => simpa [hu] using ih

/-! ## Replacing and stripping -/

theorem dropWhile_cons {p : UInt16 → Bool} {u : UInt16} {rest : Units} (h : p u = false) :
    (u :: rest).dropWhile p = u :: rest :=
  List.dropWhile_cons_of_neg (by simp [h])

/-- Nothing is taken off a slug that is no part of words. -/
theorem IsSlug.strip {p : UInt16 → Bool} (hp : ∀ u, isWordUnit u = true → p u = false)
    {slug : Units} (h : IsSlug slug) : ((slug.dropWhile p).reverse.dropWhile p).reverse = slug := by
  obtain ⟨u, rest, hslug, hu⟩ := h.head
  obtain ⟨v, rest', hreverse, hv⟩ := h.reverse_head
  have hfirst : slug.dropWhile p = slug := by
    rw [hslug, dropWhile_cons (hp u hu)]
  rw [hfirst, hreverse, dropWhile_cons (hp v hv), ← hreverse, List.reverse_reverse]

theorem ne_dash_of_word {u : UInt16} (h : isWordUnit u = true) : u ≠ unit '-' := by
  rintro rfl
  rw [isWordUnit_dash] at h
  cases h

theorem IsSlug.stripDashes {slug : Units} (h : IsSlug slug) : stripDashes slug = slug :=
  h.strip fun u hu => by simpa using ne_dash_of_word hu

inductive Dashed : Units → Prop
  | empty : Dashed []
  | single : Dashed [unit '-']
  | slug {lead slug trail : Units} : lead = [] ∨ lead = [unit '-'] → IsSlug slug →
      trail = [] ∨ trail = [unit '-'] → Dashed (lead ++ (slug ++ trail))

theorem Dashed.word {u : UInt16} {value : Units} (hu : isWordUnit u = true) (h : Dashed value) :
    Dashed (u :: value) := by
  cases h with
  | empty => exact @Dashed.slug [] _ _ (.inl rfl) (.last hu) (.inl rfl)
  | single => exact @Dashed.slug [] _ _ (.inl rfl) (.last hu) (.inr rfl)
  | slug hlead hslug htrail =>
      rcases hlead with rfl | rfl
      · exact @Dashed.slug [] _ _ (.inl rfl) (.word hu hslug) htrail
      · exact @Dashed.slug [] _ _ (.inl rfl) (.dash hu hslug) htrail

theorem Dashed.dash {u : UInt16} {value : Units} (hu : isWordUnit u = true)
    (h : Dashed (u :: value)) : Dashed (unit '-' :: u :: value) := by
  generalize hsame : u :: value = whole at h ⊢
  cases h with
  | empty => cases hsame
  | single => exact absurd (List.cons.inj hsame).1 (ne_dash_of_word hu)
  | slug hlead hslug htrail =>
      rcases hlead with rfl | rfl
      · exact @Dashed.slug [unit '-'] _ _ (.inr rfl) hslug htrail
      · exact absurd (List.cons.inj hsame).1 (ne_dash_of_word hu)

theorem dashed_dashes (value : Units) : Dashed (dashes value) := by
  induction value with
  | nil => exact .empty
  | cons u rest ih =>
      rw [dashes]
      split
      · next hu => exact ih.word hu
      · split
        · exact ih
        · next hnext =>
            cases rest with
            | nil => exact .single
            | cons v rest =>
                have hv : isWordUnit v = true := by simpa using hnext
                rw [dashes, if_pos hv] at ih ⊢
                exact ih.dash hv

theorem Dashed.strip {value : Units} (h : Dashed value) :
    stripDashes value = [] ∨ IsSlug (stripDashes value) := by
  cases h with
  | empty => exact .inl rfl
  | single => exact .inl rfl
  | @slug lead slug trail hlead hslug htrail =>
      right
      have hdash : ∀ u, isWordUnit u = true → decide (u = unit '-') = false := fun u hu => by
        simpa using ne_dash_of_word hu
      obtain ⟨u, rest, heq, hu⟩ := hslug.head
      obtain ⟨v, rest', hreverse, hv⟩ := hslug.reverse_head
      have hfirst : (lead ++ (slug ++ trail)).dropWhile (fun u => u = unit '-') = slug ++ trail := by
        rw [heq, List.cons_append]
        rcases hlead with rfl | rfl
        · exact dropWhile_cons (hdash u hu)
        · rw [List.singleton_append, List.dropWhile_cons_of_pos (by simp), dropWhile_cons (hdash u hu)]
      have hlast : (slug ++ trail).reverse.dropWhile (fun u => u = unit '-') = slug.reverse := by
        rw [List.reverse_append, hreverse]
        rcases htrail with rfl | rfl
        · exact dropWhile_cons (hdash v hv)
        · rw [List.reverse_singleton, List.singleton_append, List.dropWhile_cons_of_pos (by simp),
            dropWhile_cons (hdash v hv)]
      rwa [stripDashes, hfirst, hlast, List.reverse_reverse]

theorem slugify_form (unicode : Unicode) (value : Units) :
    slugify unicode value = [] ∨ IsSlug (slugify unicode value) :=
  (dashed_dashes _).strip

/-! ## A slug is its own slug -/

/-- Words and dashes are ASCII, are no capitals, no diacritics and no white space. -/
theorem plain_unit {u : UInt16} (h : isWordUnit u = true ∨ u = unit '-') :
    u < 128 ∧ asciiLower u = u ∧ isAsciiDiacritic u = false ∧ isSpaceUnit u = false := by
  have hall : ∀ n < 128, isWordUnit (UInt16.ofNat n) = true ∨ UInt16.ofNat n = unit '-' →
      UInt16.ofNat n < 128 ∧ asciiLower (UInt16.ofNat n) = UInt16.ofNat n ∧
        isAsciiDiacritic (UInt16.ofNat n) = false ∧ isSpaceUnit (UInt16.ofNat n) = false := by
    decide +kernel
  have hlt : u.toNat < 128 := by
    rcases h with h | rfl
    · simp only [isWordUnit, decide_eq_true_eq, UInt16.le_iff_toNat_le] at h
      have hz : (unit 'z').toNat = 122 := by decide
      have hnine : (unit '9').toNat = 57 := by decide
      omega
    · decide
  have hu := hall u.toNat hlt
  rw [UInt16.ofNat_toNat] at hu
  exact hu h

theorem dashes_slug {slug : Units} (h : IsSlug slug) : dashes slug = slug := by
  induction h with
  | last hu => simp [dashes, hu]
  | word hu _ ih => rw [dashes, if_pos hu, ih]
  | dash hu hrest ih =>
      obtain ⟨v, rest, rfl, hv⟩ := hrest.head
      have hnext : ¬ (v :: rest).head?.any (fun v => !isWordUnit v) = true := by
        simp [hv]
      rw [dashes, if_pos hu, dashes, if_neg (by simp [isWordUnit_dash]), if_neg hnext, ih]

theorem slugify_slug (unicode : Unicode) {slug : Units} (h : IsSlug slug) :
    slugify unicode slug = slug := by
  have hplain : ∀ u ∈ slug, u < 128 ∧ asciiLower u = u ∧ isAsciiDiacritic u = false ∧
      isSpaceUnit u = false := fun u hu => plain_unit (h.units u hu)
  have hascii : isAscii slug := fun u hu => (hplain u hu).1
  have hfilter : slug.filter (fun u => !isAsciiDiacritic u) = slug := by
    rw [List.filter_eq_self]
    exact fun u hu => by simp [hplain u hu]
  have hlower : slug.map asciiLower = slug := by
    rw [List.map_congr_left fun u hu => (hplain u hu).2.1, List.map_id']
  have htrim : trimUnits slug = slug := h.strip fun u hu => (plain_unit (.inl hu)).2.2.2
  rw [slugify, unicode.normalize_ascii slug hascii, unicode.dropDiacritics_ascii slug hascii,
    hfilter, unicode.toLowerCase_ascii slug hascii, hlower, htrim, dashes_slug h, h.stripDashes]

theorem slugify_nil (unicode : Unicode) : slugify unicode [] = [] := by
  have hascii : isAscii [] := nofun
  rw [slugify, unicode.normalize_ascii [] hascii, unicode.dropDiacritics_ascii [] hascii,
    List.filter_nil, unicode.toLowerCase_ascii [] hascii]
  rfl

theorem slugify_idempotent (unicode : Unicode) (value : Units) :
    slugify unicode (slugify unicode value) = slugify unicode value := by
  rcases slugify_form unicode value with h | h
  · rw [h, slugify_nil]
  · exact slugify_slug unicode h

/-! ## Numbered slugs -/

theorem digit_unit {c : Char} (h : c.isDigit = true) :
    isWordUnit (unit c) = true ∧ Char.ofNat (unit c).toNat = c := by
  have hall : ∀ n < 58, 48 ≤ n → isWordUnit (unit (Char.ofNat n)) = true ∧
      Char.ofNat (unit (Char.ofNat n)).toNat = Char.ofNat n := by
    decide +kernel
  obtain ⟨hlow, hhigh⟩ := Char.isDigit_iff_toNat.1 h
  have hnine : '9'.toNat = 57 := rfl
  have hc := hall c.toNat (by omega) hlow
  rwa [Char.ofNat_toNat] at hc

theorem isDigit_of_mem {n : ℕ} {c : Char} (h : c ∈ Nat.toDigits 10 n) : c.isDigit = true :=
  Nat.isDigit_of_mem_toDigits (by decide) (by decide) h

theorem decimal_isSlug (n : ℕ) : IsSlug (decimal n) := by
  apply isSlug_of_words
  · simp [decimal, Nat.toDigits_ne_nil]
  · intro u hu
    obtain ⟨c, hc, rfl⟩ := List.mem_map.1 hu
    exact (digit_unit (isDigit_of_mem hc)).1

theorem decimal_injective : Function.Injective decimal := by
  intro n m h
  have hback : ∀ n, (decimal n).map (fun u => Char.ofNat u.toNat) = Nat.toDigits 10 n := by
    intro n
    have hsame : (Nat.toDigits 10 n).map ((fun u => Char.ofNat u.toNat) ∘ unit) =
        (Nat.toDigits 10 n).map id :=
      List.map_congr_left fun c hc => (digit_unit (isDigit_of_mem hc)).2
    rw [decimal, List.map_map, hsame, List.map_id]
  have hdigits := congrArg (List.map fun u => Char.ofNat u.toNat) h
  rw [hback, hback] at hdigits
  have hvalue := congrArg (fun cs => Nat.ofDigitChars 10 cs 0) hdigits
  simpa using hvalue

def candidate (base : Units) : ℕ → Units := numbered base fun n => base ++ unit '-' :: decimal n

theorem candidate_injective (base : Units) : Function.Injective (candidate base) := by
  refine numbered_injective (fun n m h => ?_) fun n => by simp
  exact decimal_injective (List.cons.inj (List.append_cancel_left h)).2

theorem candidate_isSlug {base : Units} (h : IsSlug base) (k : ℕ) : IsSlug (candidate base k) := by
  cases k with
  | zero => exact h
  | succ k => exact h.append (decimal_isSlug _)

/-- The loop stops at the first candidate that is free. -/
theorem firstFree_eq {stored : Finset Units} {base : Units} {k : ℕ}
    (hfree : candidate base k ∉ stored) (htaken : ∀ j < k, candidate base j ∈ stored)
    {turns start : ℕ} (hstart : start ≤ k) (hturns : k < start + turns) :
    firstFree stored base turns (start + 2) (candidate base start) = some (candidate base k) := by
  induction turns generalizing start with
  | zero => omega
  | succ turns ih =>
      rw [firstFree]
      split
      · next hmem =>
          have hlt : start < k := by
            rcases hstart.lt_or_eq with hlt | rfl
            · exact hlt
            · exact absurd hmem hfree
          exact ih hlt (by omega)
      · next hnot =>
          have heq : start = k := by
            by_contra hne
            exact hnot (htaken start (by omega))
          rw [heq]

theorem uniqueSlug_free (unicode : Unicode) (stored : Finset Units) (name : Units) :
    ∃ slug, (∀ turns, stored.card < turns → uniqueSlug unicode stored name turns = some slug) ∧
      slug ∉ stored ∧ IsSlug slug := by
  classical
  generalize hbase : (if slugify unicode name = [] then unitsOf "category" else slugify unicode name) = base
  have hslug : IsSlug base := by
    rw [← hbase]
    split
    · exact isSlug_of_words (by decide) (by decide)
    · next hne => exact (slugify_form unicode name).resolve_left hne
  obtain ⟨k, hk, hfree⟩ := exists_free (candidate_injective base) stored
  have hexists : ∃ k, candidate base k ∉ stored := ⟨k, hfree⟩
  refine ⟨candidate base (Nat.find hexists), fun turns hturns => ?_, Nat.find_spec hexists,
    candidate_isSlug hslug _⟩
  have hle := Nat.find_le (h := hexists) hfree
  rw [uniqueSlug]
  simp only [hbase]
  apply firstFree_eq (Nat.find_spec hexists) _ (Nat.zero_le _) (by omega)
  intro j hj
  exact not_not.1 (Nat.find_min hexists hj)

/-- A slug is nothing or words between single dashes, and is its own slug; and the loop ends
with one of that form that is not stored yet. -/
theorem slugs_normal (unicode : Unicode) :
    (∀ value, slugify unicode value = [] ∨ IsSlug (slugify unicode value)) ∧
      (∀ value, slugify unicode (slugify unicode value) = slugify unicode value) ∧
      (∀ slug, IsSlug slug → slugify unicode slug = slug) ∧
      ∀ (stored : Finset Units) (name : Units), ∃ slug,
        (∀ turns, stored.card < turns → uniqueSlug unicode stored name turns = some slug) ∧
          slug ∉ stored ∧ IsSlug slug :=
  ⟨slugify_form unicode, slugify_idempotent unicode, fun _ h => slugify_slug unicode h,
    uniqueSlug_free unicode⟩

def asciiTables : Unicode where
  normalize := id
  dropDiacritics := List.filter fun u => !isAsciiDiacritic u
  toLowerCase := List.map asciiLower
  normalize_ascii := fun _ _ => rfl
  dropDiacritics_ascii := fun _ _ => rfl
  toLowerCase_ascii := fun _ _ => rfl

theorem slugs_normal_ascii :
    slugify asciiTables (unitsOf " Mugs & Cups ") = unitsOf "mugs-cups" ∧
      slugify asciiTables (unitsOf "mugs-cups") = unitsOf "mugs-cups" := by
  have hslug : slugify asciiTables (unitsOf " Mugs & Cups ") = unitsOf "mugs-cups" := by
    decide +kernel
  refine ⟨hslug, ?_⟩
  have hform := (slugs_normal asciiTables).1 (unitsOf " Mugs & Cups ")
  rw [hslug] at hform
  exact (slugs_normal asciiTables).2.2.1 _ (hform.resolve_left (by decide +kernel))

end WhatStore.Slugs
