import WhatStore.Text.Strings
import Mathlib.Data.List.Basic

/-!
# Addresses as text

What a text denotes: four decimal octets, or eight groups of hexadecimal digits
of which a run of zeros may be left out and the last two may be written as
octets. An IPv6 address that maps an IPv4 address denotes that address.
-/

namespace WhatStore.Text

inductive IpAddress where
  | v4 (a b c d : ℕ)
  | v6 (groups : List ℕ)
  deriving DecidableEq

/-! ## Octets and groups -/

def isHexDigit (c : Char) : Bool :=
  c.isDigit || ('a' ≤ c && c ≤ 'f') || ('A' ≤ c && c ≤ 'F')

def hexDigitValue (c : Char) : ℕ :=
  if c.isDigit then c.toNat - '0'.toNat
  else if 'a' ≤ c then c.toNat - 'a'.toNat + 10
  else c.toNat - 'A'.toNat + 10

def hexValue (s : Chars) : ℕ := s.foldl (fun n c => 16 * n + hexDigitValue c) 0

def IsGroup (s : Chars) : Prop := s ≠ [] ∧ s.length ≤ 4 ∧ s.all isHexDigit = true

instance (s : Chars) : Decidable (IsGroup s) :=
  inferInstanceAs (Decidable (s ≠ [] ∧ s.length ≤ 4 ∧ s.all isHexDigit = true))

def readGroup (s : Chars) : Option ℕ := if IsGroup s then some (hexValue s) else none

/-- A decimal number up to 255 without leading zeros. -/
def IsOctet (s : Chars) : Prop :=
  s ≠ [] ∧ s.all Char.isDigit = true ∧ (s.length = 1 ∨ s.head? ≠ some '0') ∧
    Nat.ofDigitChars 10 s 0 ≤ 255

instance (s : Chars) : Decidable (IsOctet s) :=
  inferInstanceAs (Decidable (s ≠ [] ∧ s.all Char.isDigit = true ∧
    (s.length = 1 ∨ s.head? ≠ some '0') ∧ Nat.ofDigitChars 10 s 0 ≤ 255))

def readOctet (s : Chars) : Option ℕ :=
  if IsOctet s then some (Nat.ofDigitChars 10 s 0) else none

/-! ## Reading -/

def readQuad (s : Chars) : Option (ℕ × ℕ × ℕ × ℕ) :=
  match s.splitOn '.' with
  | [a, b, c, d] => do
      let a ← readOctet a
      let b ← readOctet b
      let c ← readOctet c
      let d ← readOctet d
      some (a, b, c, d)
  | _ => none

def quadGroups (q : ℕ × ℕ × ℕ × ℕ) : List ℕ := [256 * q.1 + q.2.1, 256 * q.2.2.1 + q.2.2.2]

/-- Groups, the last two of which may be octets. -/
def readPieces : List Chars → Option (List ℕ)
  | [] => some []
  | [last] => if '.' ∈ last then (readQuad last).map quadGroups else (readGroup last).map fun g => [g]
  | piece :: pieces => do
      let g ← readGroup piece
      let gs ← readPieces pieces
      some (g :: gs)

def readSide (s : Chars) : Option (List ℕ) := if s = [] then some [] else readPieces (s.splitOn ':')

/-- The text before and behind the first `::`. -/
def cut : Chars → Option (Chars × Chars)
  | ':' :: ':' :: rest => some ([], rest)
  | c :: rest => (cut rest).map fun sides => (c :: sides.1, sides.2)
  | [] => none

def readGroups (s : Chars) : Option (List ℕ) :=
  match cut s with
  | none => (readPieces (s.splitOn ':')).filter fun gs => gs.length = 8
  | some (left, right) =>
    if '.' ∈ left then none
    else
      match readSide left, readSide right with
      | some before, some after =>
        if before.length + after.length ≤ 7 then
          some (before ++ List.replicate (8 - before.length - after.length) 0 ++ after)
        else none
      | _, _ => none

/-- An IPv6 address that maps an IPv4 address stands for that address. -/
def canonical : List ℕ → IpAddress
  | [0, 0, 0, 0, 0, 0xffff, g, h] => .v4 (g / 256) (g % 256) (h / 256) (h % 256)
  | groups => .v6 groups

def readAddress (s : Chars) : Option IpAddress :=
  match readQuad s with
  | some (a, b, c, d) => some (.v4 a b c d)
  | none => (readGroups s).map canonical

example : readAddress "2001:db8::7".toList = some (.v6 [0x2001, 0xdb8, 0, 0, 0, 0, 0, 7]) ∧
    readAddress "0::ffff:10.0.0.1".toList = some (.v4 10 0 0 1) := by decide

/-! ## Pieces -/

def joinPieces (pieces : List Chars) : Chars := [':'].intercalate pieces

@[simp] theorem join_nil : joinPieces [] = [] := rfl

@[simp] theorem join_singleton (p : Chars) : joinPieces [p] = p := by simp [joinPieces]

theorem join_cons_cons (p q : Chars) (ps : List Chars) :
    joinPieces (p :: q :: ps) = p ++ ':' :: joinPieces (q :: ps) := by
  simp [joinPieces]

theorem IsGroup.notMem {s : Chars} (h : IsGroup s) {c : Char} (hc : isHexDigit c = false) :
    c ∉ s := by
  intro hmem
  exact absurd (List.all_eq_true.1 h.2.2 c hmem) (by simp [hc])

theorem IsOctet.notMem {s : Chars} (h : IsOctet s) {c : Char} (hc : c.isDigit = false) :
    c ∉ s := by
  intro hmem
  exact absurd (List.all_eq_true.1 h.2.1 c hmem) (by simp [hc])

theorem readGroup_eq_some {s : Chars} {g : ℕ} :
    readGroup s = some g ↔ IsGroup s ∧ g = hexValue s := by
  rw [readGroup]
  split
  · next h => simp [h, eq_comm]
  · next h => simp [h]

theorem readOctet_eq_some {s : Chars} {n : ℕ} :
    readOctet s = some n ↔ IsOctet s ∧ n = Nat.ofDigitChars 10 s 0 := by
  rw [readOctet]
  split
  · next h => simp [h, eq_comm]
  · next h => simp [h]

def quadText (a b c d : Chars) : Chars := a ++ '.' :: (b ++ '.' :: (c ++ '.' :: d))

theorem splitOn_quadText {a b c d : Chars} (ha : '.' ∉ a) (hb : '.' ∉ b) (hc : '.' ∉ c)
    (hd : '.' ∉ d) : (quadText a b c d).splitOn '.' = [a, b, c, d] := by
  rw [quadText, List.splitOn_append_cons_self_of_not_mem ha,
    List.splitOn_append_cons_self_of_not_mem hb, List.splitOn_append_cons_self_of_not_mem hc,
    List.splitOn_eq_singleton hd]

theorem readQuad_quadText {a b c d : Chars} (ha : IsOctet a) (hb : IsOctet b) (hc : IsOctet c)
    (hd : IsOctet d) : readQuad (quadText a b c d) = some (Nat.ofDigitChars 10 a 0,
      Nat.ofDigitChars 10 b 0, Nat.ofDigitChars 10 c 0, Nat.ofDigitChars 10 d 0) := by
  rw [readQuad, splitOn_quadText (ha.notMem rfl) (hb.notMem rfl) (hc.notMem rfl) (hd.notMem rfl)]
  simp [readOctet, ha, hb, hc, hd]

theorem exists_of_readQuad {s : Chars} {q : ℕ × ℕ × ℕ × ℕ} (h : readQuad s = some q) :
    ∃ a b c d, s = quadText a b c d ∧ IsOctet a ∧ IsOctet b ∧ IsOctet c ∧ IsOctet d ∧
      q = (Nat.ofDigitChars 10 a 0, Nat.ofDigitChars 10 b 0, Nat.ofDigitChars 10 c 0,
        Nat.ofDigitChars 10 d 0) := by
  rw [readQuad] at h
  split at h
  · next a b c d hsplit =>
      simp only [Option.bind_eq_bind, Option.bind_eq_some_iff, readOctet_eq_some] at h
      obtain ⟨_, ⟨ha, rfl⟩, _, ⟨hb, rfl⟩, _, ⟨hc, rfl⟩, _, ⟨hd, rfl⟩, hq⟩ := h
      refine ⟨a, b, c, d, ?_, ha, hb, hc, hd, (Option.some.inj hq).symm⟩
      have hjoin : ['.'].intercalate (s.splitOn '.') = s := List.intercalate_splitOn '.'
      rw [hsplit] at hjoin
      rw [← hjoin]
      simp [quadText]
  · cases h

theorem dot_mem_of_readQuad {s : Chars} {q : ℕ × ℕ × ℕ × ℕ} (h : readQuad s = some q) :
    '.' ∈ s := by
  obtain ⟨a, b, c, d, rfl, -⟩ := exists_of_readQuad h
  simp [quadText]

theorem readPieces_cons_cons (p q : Chars) (ps : List Chars) :
    readPieces (p :: q :: ps) =
      (readGroup p).bind fun g => (readPieces (q :: ps)).map fun gs => g :: gs := by
  rw [readPieces]
  · cases readGroup p with
    | none => rfl
    | some g => cases readPieces (q :: ps) <;> rfl
  · simp

theorem readPieces_groups {ps : List Chars} (h : ∀ p ∈ ps, IsGroup p) :
    readPieces ps = some (ps.map hexValue) := by
  induction ps with
  | nil => rfl
  | cons p ps ih =>
      have hp := h p List.mem_cons_self
      cases ps with
      | nil => simp [readPieces, hp.notMem (c := '.') rfl, readGroup, hp]
      | cons q ps =>
          rw [readPieces_cons_cons, ih fun p' hp' => h p' (List.mem_cons_of_mem _ hp'),
            readGroup_eq_some.2 ⟨hp, rfl⟩]
          rfl

theorem readPieces_quad {ps : List Chars} (h : ∀ p ∈ ps, IsGroup p) {last : Chars}
    {q : ℕ × ℕ × ℕ × ℕ} (hlast : readQuad last = some q) :
    readPieces (ps ++ [last]) = some (ps.map hexValue ++ quadGroups q) := by
  induction ps with
  | nil => simp [readPieces, dot_mem_of_readQuad hlast, hlast]
  | cons p ps ih =>
      have hrest := ih fun p' hp' => h p' (List.mem_cons_of_mem _ hp')
      have hne : ps ++ [last] ≠ [] := by simp
      obtain ⟨p', ps', hcons⟩ := List.exists_cons_of_ne_nil hne
      rw [List.cons_append, hcons, readPieces_cons_cons, ← hcons, hrest,
        readGroup_eq_some.2 ⟨h p List.mem_cons_self, rfl⟩]
      rfl

theorem readPieces_eq_some {ps : List Chars} {gs : List ℕ} (h : readPieces ps = some gs) :
    ((∀ p ∈ ps, IsGroup p) ∧ gs = ps.map hexValue) ∨
      ∃ init last q, ps = init ++ [last] ∧ (∀ p ∈ init, IsGroup p) ∧ readQuad last = some q ∧
        gs = init.map hexValue ++ quadGroups q := by
  induction ps generalizing gs with
  | nil =>
      left
      cases h
      simp
  | cons p ps ih =>
      cases ps with
      | nil =>
          rw [readPieces] at h
          split at h
          · obtain ⟨q, hq, rfl⟩ := Option.map_eq_some_iff.1 h
            exact .inr ⟨[], p, q, rfl, nofun, hq, rfl⟩
          · obtain ⟨g, hg, rfl⟩ := Option.map_eq_some_iff.1 h
            obtain ⟨hp, rfl⟩ := readGroup_eq_some.1 hg
            exact .inl ⟨by simpa using hp, rfl⟩
      | cons p' ps =>
          rw [readPieces_cons_cons] at h
          obtain ⟨g, hg, hrest⟩ := Option.bind_eq_some_iff.1 h
          obtain ⟨gs, hgs, rfl⟩ := Option.map_eq_some_iff.1 hrest
          obtain ⟨hp, rfl⟩ := readGroup_eq_some.1 hg
          rcases ih hgs with ⟨hgroups, rfl⟩ | ⟨init, last, q, heq, hinit, hlast, rfl⟩
          · left
            refine ⟨?_, rfl⟩
            simpa [hp] using hgroups
          · right
            refine ⟨p :: init, last, q, by rw [heq, List.cons_append], ?_, hlast, rfl⟩
            simpa [hp] using hinit

theorem piece_of_readPieces {ps : List Chars} {gs : List ℕ} (h : readPieces ps = some gs) :
    ∀ p ∈ ps, p ≠ [] ∧ ':' ∉ p := by
  have hgroup : ∀ p, IsGroup p → p ≠ [] ∧ ':' ∉ p := fun p hp => ⟨hp.1, hp.notMem rfl⟩
  rcases readPieces_eq_some h with ⟨hgroups, -⟩ | ⟨init, last, q, rfl, hinit, hlast, -⟩
  · exact fun p hp => hgroup p (hgroups p hp)
  · intro p hp
    rcases List.mem_append.1 hp with hp | hp
    · exact hgroup p (hinit p hp)
    · rw [List.mem_singleton.1 hp]
      obtain ⟨a, b, c, d, rfl, ha, hb, hc, hd, -⟩ := exists_of_readQuad hlast
      have hcolon : ∀ s, IsOctet s → ':' ∉ s := fun s hs => hs.notMem rfl
      constructor
      · simp [quadText]
      · simp [quadText, hcolon, ha, hb, hc, hd]

/-! ## The gap -/

theorem splitOn_join {ps : List Chars} (hps : ps ≠ []) (h : ∀ p ∈ ps, p ≠ [] ∧ ':' ∉ p) :
    (joinPieces ps).splitOn ':' = ps :=
  List.splitOn_intercalate ':' (fun p hp => (h p hp).2) hps

theorem cut_cons {c : Char} {rest : Chars} (h : c = ':' → rest.head? ≠ some ':') :
    cut (c :: rest) = (cut rest).map fun sides => (c :: sides.1, sides.2) := by
  rw [cut]
  rintro rest' rfl rfl
  exact h rfl rfl

/-- The first gap is the one behind what has none, not even with a colon added. -/
theorem cut_append {u : Chars} (h : cut (u ++ [':']) = none) (v : Chars) :
    cut (u ++ ':' :: ':' :: v) = some (u, v) := by
  induction u with
  | nil => rfl
  | cons c u ih =>
      have hhead : c = ':' → (u ++ [':']).head? ≠ some ':' := by
        rintro rfl hhead
        cases u with
        | nil => simp [cut] at h
        | cons d u =>
            rw [List.cons_append, List.head?_cons] at hhead
            cases hhead
            simp [cut] at h
      have hsame : (u ++ ':' :: ':' :: v).head? = (u ++ [':']).head? := by
        cases u <;> rfl
      rw [List.cons_append, cut_cons hhead, Option.map_eq_none_iff] at h
      rw [List.cons_append, cut_cons (hsame ▸ hhead), ih h]
      rfl

theorem cut_piece {p : Chars} (hp : ':' ∉ p) (s : Chars) :
    cut (p ++ s) = (cut s).map fun sides => (p ++ sides.1, sides.2) := by
  induction p with
  | nil => simp
  | cons c p ih =>
      rw [List.mem_cons, not_or] at hp
      rw [List.cons_append, cut_cons fun hc => (hp.1 hc.symm).elim, ih hp.2, Option.map_map]
      rfl

theorem cut_join_append {ps : List Chars} (h : ∀ p ∈ ps, p ≠ [] ∧ ':' ∉ p) :
    cut (joinPieces ps ++ [':']) = none := by
  induction ps with
  | nil => rfl
  | cons p ps ih =>
      have hp := h p List.mem_cons_self
      have hrest := ih fun p' hp' => h p' (List.mem_cons_of_mem _ hp')
      cases ps with
      | nil =>
          rw [join_singleton, cut_piece hp.2]
          rfl
      | cons q ps =>
          obtain ⟨hq, hcolon⟩ := h q (by simp)
          obtain ⟨c, q', rfl⟩ := List.exists_cons_of_ne_nil hq
          have hhead : (joinPieces ((c :: q') :: ps) ++ [':']).head? ≠ some ':' := by
            intro hhead
            cases ps with
            | nil => simp_all
            | cons q ps => simp_all [join_cons_cons]
          rw [join_cons_cons, List.append_assoc, cut_piece hp.2, List.cons_append,
            cut_cons fun _ => hhead, hrest]
          rfl

theorem eq_of_cut {s left right : Chars} (h : cut s = some (left, right)) :
    s = left ++ ':' :: ':' :: right := by
  induction s generalizing left with
  | nil => cases h
  | cons c s ih =>
      by_cases hgap : c = ':' ∧ s.head? = some ':'
      · obtain ⟨rfl, hhead⟩ := hgap
        obtain ⟨s, rfl⟩ := List.head?_eq_some_iff.1 hhead
        simp only [cut, Option.some.injEq, Prod.mk.injEq] at h
        obtain ⟨rfl, rfl⟩ := h
        rfl
      · rw [cut_cons fun hc hhead => hgap ⟨hc, hhead⟩] at h
        obtain ⟨⟨left', right'⟩, hcut, heq⟩ := Option.map_eq_some_iff.1 h
        obtain ⟨rfl, rfl⟩ := Prod.mk.inj heq
        rw [ih hcut, List.cons_append]

theorem cut_append_of_some {s left right : Chars} (h : cut s = some (left, right)) (t : Chars) :
    cut (s ++ t) = some (left, right ++ t) := by
  induction s generalizing left with
  | nil => cases h
  | cons c s ih =>
      by_cases hgap : c = ':' ∧ s.head? = some ':'
      · obtain ⟨rfl, hhead⟩ := hgap
        obtain ⟨s, rfl⟩ := List.head?_eq_some_iff.1 hhead
        simp only [cut, Option.some.injEq, Prod.mk.injEq] at h
        obtain ⟨rfl, rfl⟩ := h
        rfl
      · rw [cut_cons fun hc hhead => hgap ⟨hc, hhead⟩] at h
        obtain ⟨⟨left', right'⟩, hcut, heq⟩ := Option.map_eq_some_iff.1 h
        obtain ⟨rfl, rfl⟩ := Prod.mk.inj heq
        have hne : s ≠ [] := by
          rintro rfl
          cases hcut
        have hhead : c = ':' → (s ++ t).head? ≠ some ':' := by
          rw [List.head?_append_of_ne_nil _ hne]
          exact fun hc hhead => hgap ⟨hc, hhead⟩
        rw [List.cons_append, cut_cons hhead, ih hcut]
        rfl

theorem cut_join {ps : List Chars} (h : ∀ p ∈ ps, p ≠ [] ∧ ':' ∉ p) : cut (joinPieces ps) = none := by
  cases hcut : cut (joinPieces ps) with
  | none => rfl
  | some sides =>
      have hlong := cut_append_of_some (show cut (joinPieces ps) = some (sides.1, sides.2) from hcut) [':']
      rw [cut_join_append h] at hlong
      cases hlong

/-! ## The two forms of an IPv6 address -/

theorem readSide_join {ps : List Chars} {gs : List ℕ} (h : readPieces ps = some gs) :
    readSide (joinPieces ps) = some gs := by
  cases ps with
  | nil => exact h
  | cons p ps =>
      have hpieces := piece_of_readPieces h
      have hsplit := splitOn_join (List.cons_ne_nil p ps) hpieces
      have hne : joinPieces (p :: ps) ≠ [] := by
        intro hempty
        rw [hempty, List.splitOn_nil, List.cons.injEq] at hsplit
        exact (hpieces p List.mem_cons_self).1 hsplit.1.symm
      rw [readSide, if_neg hne, hsplit, h]

theorem readSide_eq_some {s : Chars} {gs : List ℕ} (h : readSide s = some gs) :
    ∃ ps, s = joinPieces ps ∧ readPieces ps = some gs := by
  rw [readSide] at h
  split at h
  · next hs =>
      cases h
      exact ⟨[], hs, rfl⟩
  · exact ⟨s.splitOn ':', (List.intercalate_splitOn ':').symm, h⟩

inductive Form (s : Chars) (gs : List ℕ) : Prop where
  | full (ps : List Chars) (hps : readPieces ps = some gs) (hlength : gs.length = 8)
      (hs : s = joinPieces ps)
  | short (left right : List Chars) (after : List ℕ) (hleft : ∀ p ∈ left, IsGroup p)
      (hright : readPieces right = some after) (hlength : left.length + after.length ≤ 7)
      (hs : s = joinPieces left ++ ':' :: ':' :: joinPieces right)
      (hgs : gs = left.map hexValue ++ List.replicate (8 - left.length - after.length) 0 ++ after)

theorem mem_join {ps : List Chars} {c : Char} (hc : c ≠ ':') : c ∈ joinPieces ps ↔ ∃ p ∈ ps, c ∈ p := by
  induction ps with
  | nil => simp
  | cons p ps ih =>
      cases ps with
      | nil => simp
      | cons q ps => simp_all [join_cons_cons]

theorem dot_notMem_join {ps : List Chars} (h : ∀ p ∈ ps, IsGroup p) : '.' ∉ joinPieces ps := by
  rw [mem_join (by decide)]
  rintro ⟨p, hp, hdot⟩
  exact (h p hp).notMem rfl hdot

theorem readGroups_iff {s : Chars} {gs : List ℕ} : readGroups s = some gs ↔ Form s gs := by
  constructor
  · intro h
    rw [readGroups] at h
    split at h
    · obtain ⟨hps, hlength⟩ := Option.filter_eq_some_iff.1 h
      exact .full _ hps (by simpa using hlength) (List.intercalate_splitOn ':').symm
    · next left right hcut =>
        split at h
        · cases h
        · next hdot =>
            split at h
            · next before after hbefore hafter =>
                obtain ⟨L, rfl, hL⟩ := readSide_eq_some hbefore
                obtain ⟨R, rfl, hR⟩ := readSide_eq_some hafter
                split at h
                · next hlength =>
                    rcases readPieces_eq_some hL with ⟨hgroups, rfl⟩ | ⟨init, last, q, rfl, -, hlast, -⟩
                    · rw [List.length_map] at h hlength
                      exact .short L R after hgroups hR hlength (eq_of_cut hcut)
                        (Option.some.inj h).symm
                    · refine (hdot ((mem_join (by decide)).2 ⟨last, ?_, ?_⟩)).elim
                      · simp
                      · exact dot_mem_of_readQuad hlast
                · cases h
            · cases h
  · rintro (⟨ps, hps, hlength, rfl⟩ | ⟨L, R, after, hL, hR, hlength, rfl, rfl⟩)
    · have hpieces := piece_of_readPieces hps
      have hne : ps ≠ [] := by
        rintro rfl
        cases hps
        cases hlength
      rw [readGroups, cut_join hpieces]
      simp only [splitOn_join hne hpieces, hps]
      simp [hlength]
    · have hread := readPieces_groups hL
      have hcut := cut_append (cut_join_append (piece_of_readPieces hread)) (joinPieces R)
      rw [readGroups, hcut]
      simp [dot_notMem_join hL, readSide_join hread, readSide_join hR, hlength]

theorem Form.length_eq {s : Chars} {gs : List ℕ} (h : Form s gs) : gs.length = 8 := by
  cases h with
  | full ps hps hlength hs => exact hlength
  | short L R after hL hR hlength hs hgs =>
      rw [hgs]
      simp only [List.length_append, List.length_map, List.length_replicate]
      omega

end WhatStore.Text
