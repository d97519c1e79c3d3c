import WhatStore.Text.Numbers

/-!
# Strings as the language handles them

White space and `parseInt`.
-/

namespace WhatStore.Text

/-- White space and line terminators: what `\s` matches and `trim` removes. -/
def isWhiteSpace (c : Char) : Bool :=
  let n := c.toNat
  (9 ≤ n && n ≤ 13) || n == 32 || n == 0xA0 || n == 0x1680 || (0x2000 ≤ n && n ≤ 0x200A) ||
    n == 0x2028 || n == 0x2029 || n == 0x202F || n == 0x205F || n == 0x3000 || n == 0xFEFF

def splitSign : Chars → Bool × Chars
  | '-' :: str => (true, str)
  | '+' :: str => (false, str)
  | str => (false, str)

/-- `parseInt(str, 10)`, and none when that is not a number. -/
def parseInt (str : Chars) : Option ℤ :=
  let (negative, rest) := splitSign (str.dropWhile isWhiteSpace)
  let digits := rest.takeWhile Char.isDigit
  if digits.isEmpty then none
  else
    let n : ℤ := Nat.ofDigitChars 10 digits 0
    some (if negative then -n else n)

theorem intercalate_append {α : Type*} {sep : List α} {pieces more : List (List α)}
    (hpieces : pieces ≠ []) (hmore : more ≠ []) :
    sep.intercalate (pieces ++ more) = sep.intercalate pieces ++ (sep ++ sep.intercalate more) := by
  induction pieces with
  | nil => exact absurd rfl hpieces
  | cons piece pieces ih =>
      cases pieces with
      | nil => simp [List.intercalate_cons_of_ne_nil hmore]
      | cons piece' pieces =>
          have hrest := ih (by simp)
          rw [List.cons_append] at hrest ⊢
          rw [List.cons_append, List.intercalate_cons_cons, hrest, List.intercalate_cons_cons]
          simp

theorem mem_of_mem_intercalate {α : Type*} {sep a : α} {pieces : List (List α)} (hne : a ≠ sep)
    (h : a ∈ [sep].intercalate pieces) : ∃ piece ∈ pieces, a ∈ piece := by
  induction pieces with
  | nil => simp at h
  | cons piece pieces ih =>
      cases pieces with
      | nil => exact ⟨piece, List.mem_cons_self, by simpa using h⟩
      | cons piece' pieces =>
          rw [List.intercalate_cons_cons, List.mem_append, List.mem_append, List.mem_singleton] at h
          rcases h with (h | h) | h
          · exact ⟨piece, List.mem_cons_self, h⟩
          · exact absurd h hne
          · obtain ⟨found, hfound, hmem⟩ := ih h
            exact ⟨found, List.mem_cons_of_mem _ hfound, hmem⟩

theorem notMem_of_mem_splitOn {α : Type*} [BEq α] [LawfulBEq α] {sep : α} {text piece : List α}
    (h : piece ∈ text.splitOn sep) : sep ∉ piece := by
  induction text generalizing piece with
  | nil =>
      rw [List.splitOn_nil, List.mem_singleton] at h
      simp [h]
  | cons a text ih =>
      rw [List.splitOn_cons_eq_if_modifyHead] at h
      split at h
      · rcases List.mem_cons.1 h with rfl | h
        · simp
        · exact ih h
      · next hne =>
          obtain ⟨first, pieces, hsplit⟩ := List.exists_cons_of_ne_nil (List.splitOn_ne_nil sep text)
          rw [hsplit, List.modifyHead_cons] at h
          rcases List.mem_cons.1 h with rfl | h
          · have hfirst := ih (hsplit ▸ List.mem_cons_self)
            rw [List.mem_cons, not_or]
            exact ⟨fun heq => hne (by simp [heq]), hfirst⟩
          · exact ih (hsplit ▸ List.mem_cons_of_mem _ h)

example : parseInt " 14 backups".toList = some 14 := by decide

end WhatStore.Text
