import WhatStore.Accounts.Kinds
import WhatStore.ReadCommitted.Sweeps
import WhatStore.ReadCommitted.Names

/-!
# Tokens and links

What every write keeps of a refresh token, of a mobile refresh token and of a
reset link: they stay with their account and their hash, and once revoked or used
they stay so. The random numbers behind links and mobile tokens are drawn right
before they are stored.
-/

namespace WhatStore.Accounts

open ReadCommitted ReadCommitted.Prog

/-! ## How tokens change -/

structure SameRefresh (t t' : RefreshToken) : Prop where
  accountId : t'.accountId = t.accountId
  tokenHash : t'.tokenHash = t.tokenHash
  revoked : t.revokedAt.isSome = true → t'.revokedAt.isSome = true

structure SameMobile (t t' : MobileRefreshToken) : Prop where
  accountId : t'.accountId = t.accountId
  familyId : t'.familyId = t.familyId
  tokenHash : t'.tokenHash = t.tokenHash
  revoked : t.revokedAt.isSome = true → t'.revokedAt.isSome = true

structure SameLink (l l' : PasswordResetToken) : Prop where
  accountId : l'.accountId = l.accountId
  tokenHash : l'.tokenHash = l.tokenHash
  used : l.usedAt.isSome = true → l'.usedAt.isSome = true

def Persists {α : Type} (same : α → α → Prop) (v v' : Option α) : Prop :=
  ∀ x, v = some x → ∃ y, v' = some y ∧ same x y

theorem Persists.refl {α : Type} {same : α → α → Prop} (h : ∀ x, same x x) (v : Option α) :
    Persists same v v := fun x hx => ⟨x, hx, h x⟩

theorem Persists.trans {α : Type} {same : α → α → Prop}
    (h : ∀ x y z, same x y → same y z → same x z) {u v w : Option α} (huv : Persists same u v)
    (hvw : Persists same v w) : Persists same u w := by
  intro x hx
  obtain ⟨y, hy, hxy⟩ := huv x hx
  obtain ⟨z, hz, hyz⟩ := hvw y hy
  exact ⟨z, hz, h x y z hxy hyz⟩

theorem Persists.map {α : Type} {same : α → α → Prop} {f : α → α} (h : ∀ x, same x (f x))
    (v : Option α) : Persists same v (v.map f) := by
  rintro x rfl
  exact ⟨f x, rfl, h x⟩

theorem Persists.insert {α : Type} {same : α → α → Prop} {v v' : Option α}
    (h : v.isNone = true) : Persists same v v' := by
  rintro x rfl
  cases h

def TokenMove : (k : Key) → Option (Row k) → Option (Row k) → Prop
  | .refresh _ _, v, v' => Persists SameRefresh v v'
  | .mobile _ _, v, v' => Persists SameMobile v v'
  | .link _ _, v, v' => Persists SameLink v v'
  | _, _, _ => True

theorem TokenMove.refl (k : Key) (v : Option (Row k)) : TokenMove k v v := by
  cases k with
  | refresh realm id => exact Persists.refl (fun _ => ⟨rfl, rfl, fun h => h⟩) v
  | mobile realm id => exact Persists.refl (fun _ => ⟨rfl, rfl, rfl, fun h => h⟩) v
  | link realm id => exact Persists.refl (fun _ => ⟨rfl, rfl, fun h => h⟩) v
  | _ => trivial

theorem TokenMove.trans (k : Key) (u v w : Option (Row k)) (h : TokenMove k u v)
    (h' : TokenMove k v w) : TokenMove k u w := by
  cases k with
  | refresh realm id =>
      exact Persists.trans (fun _ _ _ hxy hyz => ⟨hyz.accountId.trans hxy.accountId,
        hyz.tokenHash.trans hxy.tokenHash, hyz.revoked ∘ hxy.revoked⟩) h h'
  | mobile realm id =>
      exact Persists.trans (fun _ _ _ hxy hyz => ⟨hyz.accountId.trans hxy.accountId,
        hyz.familyId.trans hxy.familyId, hyz.tokenHash.trans hxy.tokenHash,
        hyz.revoked ∘ hxy.revoked⟩) h h'
  | link realm id =>
      exact Persists.trans (fun _ _ _ hxy hyz => ⟨hyz.accountId.trans hxy.accountId,
        hyz.tokenHash.trans hxy.tokenHash, hyz.used ∘ hxy.used⟩) h h'
  | _ => trivial

def tokenDiscipline : Discipline accounts :=
  .ofRows (fun _ _ => True) TokenMove TokenMove.refl TokenMove.trans

theorem tokenDiscipline_kept {P : Protocol accounts Request}
    {allow : AccountWorld → ℕ → Request → Ev → Prop} : tokenDiscipline.Kept P allow := by
  intro w i r u _ _ _ _ hguard
  refine Discipline.respects_ofRows trivial ?_
  cases u with
  | insertRefresh realm id row => exact Persists.insert hguard
  | insertMobile realm id row => exact Persists.insert hguard
  | insertLink realm id row => exact Persists.insert hguard
  | rotateRefresh realm id time => exact Persists.map (fun _ => ⟨rfl, rfl, fun _ => rfl⟩) _
  | revokeRefresh realm id time => exact Persists.map (fun _ => ⟨rfl, rfl, fun _ => rfl⟩) _
  | rotateMobile realm id time => exact Persists.map (fun _ => ⟨rfl, rfl, rfl, fun _ => rfl⟩) _
  | retireMobile realm id time => exact Persists.map (fun _ => ⟨rfl, rfl, rfl, fun _ => rfl⟩) _
  | revokeMobile realm id time => exact Persists.map (fun _ => ⟨rfl, rfl, rfl, fun _ => rfl⟩) _
  | useLink realm id time => exact Persists.map (fun _ => ⟨rfl, rfl, fun _ => rfl⟩) _
  | _ => trivial

theorem tokenDiscipline_good (db : Database) : tokenDiscipline.Good db := fun _ => trivial

theorem tokenDiscipline_inv {P : Protocol accounts Request}
    {allow : AccountWorld → ℕ → Request → Ev → Prop} {db : Database} {w : AccountWorld}
    (htrace : World.Trace P allow (World.initial db) w) : tokenDiscipline.Inv w :=
  tokenDiscipline_kept.inv (World.initial_tidy db)
    (Discipline.inv_initial (tokenDiscipline_good db)) htrace

/-! ## The random numbers behind tokens -/

/-- A table of rows that are found by the hash of a random number. -/
inductive TokenTable where
  | mobile (realm : Realm)
  | link (realm : Realm)
  deriving DecidableEq

def Update.stores : Update → Option (TokenTable × TokenHash)
  | .insertMobile realm _ row => some (.mobile realm, row.tokenHash)
  | .insertLink realm _ row => some (.link realm, row.tokenHash)
  | _ => none

/-- The table and the hash of a row that is found by it. -/
def storedAs : (k : Key) → Row k → Option (TokenTable × TokenHash)
  | .mobile realm _, row => some (.mobile realm, row.tokenHash)
  | .link realm _, row => some (.link realm, row.tokenHash)
  | _, _ => none

def rawIn (table : TokenTable) (stored : TokenTable × TokenHash) : Option Id :=
  if stored.1 = table then some stored.2.ofToken else none

theorem storedAs_change {u : Update} {v : Option (Row u.key)} {x : Row u.key}
    (hx : u.change v = some x) {stored : TokenTable × TokenHash}
    (hstored : storedAs u.key x = some stored) :
    u.stores = some stored ∨ ∃ y, v = some y ∧ storedAs u.key y = some stored := by
  cases u with
  | insertMobile realm id row =>
      cases hx
      exact .inl hstored
  | insertLink realm id row =>
      cases hx
      exact .inl hstored
  | rotateMobile realm id time =>
      obtain ⟨y, hy, rfl⟩ := Option.map_eq_some_iff.1 hx
      exact .inr ⟨y, hy, hstored⟩
  | retireMobile realm id time =>
      obtain ⟨y, hy, rfl⟩ := Option.map_eq_some_iff.1 hx
      exact .inr ⟨y, hy, hstored⟩
  | revokeMobile realm id time =>
      obtain ⟨y, hy, rfl⟩ := Option.map_eq_some_iff.1 hx
      exact .inr ⟨y, hy, hstored⟩
  | useLink realm id time =>
      obtain ⟨y, hy, rfl⟩ := Option.map_eq_some_iff.1 hx
      exact .inr ⟨y, hy, hstored⟩
  | _ => cases hstored

/-- The random numbers behind the rows of a table. -/
def tokenNames (table : TokenTable) : Naming accounts Id Id where
  mark k x := (storedAs k x).bind (rawIn table)
  gives u := u.stores.bind (rawIn table)
  name := fun raw => raw
  draws
    | .randomBytes, raw => some raw
    | _, _ => none
  change u v x raw _ hx hmark := by
    obtain ⟨stored, hstored, hraw⟩ := Option.bind_eq_some_iff.1 hmark
    rcases storedAs_change hx hstored with hgives | ⟨y, hy, hsame⟩
    · exact .inl (by rw [hgives]; exact hraw)
    · exact .inr ⟨y, hy, by rw [hsame]; exact hraw⟩

/-- Each hash of a table is that of one row. -/
def DistinctHashes (table : TokenTable) (db : Database) : Prop := ∀ k k' raw,
  (tokenNames table).Bears db k raw → (tokenNames table).Bears db k' raw → k = k'

def randomDrawn : Ev → Option Id
  | .call .randomBytes raw => some raw
  | _ => none

/-- A random number that is drawn was not drawn before and is behind no row at the
start. -/
def freshRandom (db : Database) (w : AccountWorld) : Ev → Bool
  | .call .randomBytes raw =>
      (w.log.all fun entry => randomDrawn entry.event != some raw) &&
      db.keys.all fun k => (db.row k).all fun x =>
        (storedAs k x).all fun stored => stored.2.ofToken != raw
  | _ => true

/-- What is stored under a hash was drawn right before. -/
def DrawLaw (h : List Ev) : Ev → Prop
  | .update u _ => ∀ stored, u.stores = some stored →
      h.head? = some (.call .randomBytes stored.2.ofToken)
  | _ => True

theorem drawn_eq {table : TokenTable} {e : Ev} : (tokenNames table).drawn e = randomDrawn e := by
  cases e with
  | call c a => cases c <;> rfl
  | _ => rfl

theorem fresh_of_freshRandom {table : TokenTable} {db : Database} {w : AccountWorld} {e : Ev}
    (h : freshRandom db w e = true) : (tokenNames table).Fresh db w.log e := by
  intro raw hdrawn
  cases e with
  | call c a =>
      cases c with
      | randomBytes =>
          cases hdrawn
          obtain ⟨hlog, hstart⟩ := Bool.and_eq_true_iff.1 h
          constructor
          · rintro ⟨entry, hmem, hn⟩
            have hentry := List.all_eq_true.1 hlog entry hmem
            rw [drawn_eq] at hn
            simp [hn] at hentry
          · rintro k raw' ⟨x, hx, hmark⟩ heq
            have hrow := List.all_eq_true.1 hstart k (db.mem_keys_of_row hx)
            obtain ⟨stored, hstored, hraw⟩ := Option.bind_eq_some_iff.1 hmark
            rw [hx, Option.all_some, hstored, Option.all_some] at hrow
            have hsame : stored.2.ofToken = raw' := by
              rw [rawIn, Option.ite_none_right_eq_some] at hraw
              exact Option.some.inj hraw.2
            rw [hsame] at hrow
            exact bne_iff_ne.1 hrow heq
      | _ => cases hdrawn
  | _ => cases hdrawn

theorem tokenNames_kept {P : Protocol accounts Request}
    {allow : AccountWorld → ℕ → Request → Ev → Prop} {db : Database} {table : TokenTable}
    (hP : ∀ r h e, P r h e → DrawLaw h e)
    (hallow : ∀ w i r e, allow w i r e → freshRandom db w e = true)
    (hdb : DistinctHashes table db) : (tokenNames table).Kept P allow db where
  draws r h u raw hlaw hgives := by
    obtain ⟨stored, hstored, hraw⟩ := Option.bind_eq_some_iff.1 hgives
    rw [rawIn, Option.ite_none_right_eq_some] at hraw
    have hhead := hP r h _ hlaw stored hstored
    rw [Option.some.inj hraw.2] at hhead
    exact ⟨_, hhead, rfl⟩
  fresh w i r e h := fresh_of_freshRandom (hallow w i r e h)
  unique k k' raw raw' hraw hraw' heq := by
    cases heq
    exact ⟨hdb k k' raw hraw hraw', rfl⟩

end WhatStore.Accounts
