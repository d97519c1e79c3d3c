import WhatStore.Accounts.Throttle
import WhatStore.ReadCommitted.Schedule

/-!
# The budget holds

Over a run in which requests are let through only while there is room for them,
the failures on record and the requests in flight stay within the limit, and the
checks that failed since the counter was set back are on record or still owed.
-/

namespace WhatStore.Accounts

open ReadCommitted ReadCommitted.Prog

def failuresOf (c : Counter) (db : Database) : Nat := Query.eval (.failures c) db

def Bounded (limits : Limits) (c : Counter) (w : AccountWorld) : Prop :=
  (failedSince limits c w.log = 0 ∧ w.tally (inFlight limits c) = 0) ∨
    (failuresOf c w.db + w.tally (inFlight limits c) ≤ limits.of c ∧
      failedSince limits c w.log ≤ failuresOf c w.db + w.tally (owing limits c))

/-- What holds of the processes in a run in which Redis answers. -/
structure Commands (w : AccountWorld) : Prop where
  unfailing : ∀ i, Unfailing (w.own i)
  alone : ∀ i, ∀ u ∈ w.tx i, u.kind = .count → w.tx i = [u]

variable {limits : Limits} {c : Counter} {w w' : AccountWorld} {i : ℕ} {r : Request} {e : Ev}
  {tx : List Update} {db : Database}

/-! ## What a transaction does to a counter -/

theorem failuresOf_congr {db' : Database} (hrow : db'.row (.counter c) = db.row (.counter c)) :
    failuresOf c db' = failuresOf c db := by
  rw [failuresOf, failuresOf, Query.eval, Query.eval, hrow]

inductive Acts (c : Counter) (db : Database) (tx : List Update) : Prop where
  | counts (hmem : .incr c ∈ tx) (hdrops : tx.any (Update.drops c) = false)
      (hrow : failuresOf c (replay (S := accounts) tx db) = failuresOf c db + 1)
  | drops (hmem : .incr c ∉ tx) (hdrops : tx.any (Update.drops c) = true)
      (hrow : failuresOf c (replay (S := accounts) tx db) = 0)
  | leaves (hmem : .incr c ∉ tx) (hdrops : tx.any (Update.drops c) = false)
      (hrow : failuresOf c (replay (S := accounts) tx db) = failuresOf c db)

theorem kind_of_drops {u : Update} (hu : u.drops c = true) : u.kind = .count := by
  cases u <;> first | rfl | cases hu

theorem acts_of_single {u : Update} (hu : u.kind = .count) : Acts c db [u] := by
  have hother : ∀ c', c' ≠ c → u.key = .counter c' →
      failuresOf c (applyUpdate (S := accounts) u db) = failuresOf c db := by
    intro c' hne hkey
    refine failuresOf_congr (applyUpdate_row_of_ne (S := accounts) u db ?_)
    intro heq
    exact hne (Key.counter.inj (hkey.symm.trans heq.symm))
  have hself : ∀ {v}, (applyUpdate (S := accounts) u db).row (.counter c) = v →
      failuresOf c (applyUpdate (S := accounts) u db) = (v.map Failures.count).getD 0 := by
    intro v hrow
    rw [failuresOf, Query.eval, hrow]
  cases u with
  | incr c' =>
      by_cases hc : c' = c
      · subst hc
        refine .counts (by simp) rfl ((hself (applyUpdate_row_self (S := accounts) _ _)).trans ?_)
        rw [failuresOf, Query.eval]
        cases hrow : db.row (.counter c') <;> simp [accounts, Update.change, Update.key, hrow]
      · exact .leaves (by simp [Ne.symm hc]) rfl (hother c' hc rfl)
  | expire c' =>
      by_cases hc : c' = c
      · subst hc
        refine .leaves (by simp) rfl ((hself (applyUpdate_row_self (S := accounts) _ _)).trans ?_)
        rw [failuresOf, Query.eval]
        cases hrow : db.row (.counter c') <;> simp [accounts, Update.change, Update.key, hrow]
      · exact .leaves (by simp) rfl (hother c' hc rfl)
  | del c' =>
      by_cases hc : c' = c
      · subst hc
        exact .drops (by simp) (by simp [Update.drops])
          (hself (applyUpdate_row_self (S := accounts) _ _))
      · exact .leaves (by simp) (by simpa [Update.drops] using hc) (hother c' hc rfl)
  | lapse c' =>
      by_cases hc : c' = c
      · subst hc
        exact .drops (by simp) (by simp [Update.drops])
          (hself (applyUpdate_row_self (S := accounts) _ _))
      · exact .leaves (by simp) (by simpa [Update.drops] using hc) (hother c' hc rfl)
  | _ => cases hu

theorem kind_of_key {u : Update} (hu : u.key = .counter c) : u.kind = .count := by
  cases u <;> first | rfl | cases hu

theorem acts_of_alone (halone : ∀ u ∈ tx, u.kind = .count → tx = [u]) : Acts c db tx := by
  by_cases hcount : ∃ u ∈ tx, u.kind = .count
  · obtain ⟨u, hmem, hkind⟩ := hcount
    rw [halone u hmem hkind]
    exact acts_of_single hkind
  · push Not at hcount
    have hdrops : tx.any (Update.drops c) = false := by
      rw [List.any_eq_false]
      intro u hu hdrops
      exact hcount u hu (kind_of_drops hdrops)
    refine .leaves (fun hmem => hcount _ hmem rfl) hdrops (failuresOf_congr ?_)
    refine replay_row_of_notMem (S := accounts) db fun hlock => ?_
    obtain ⟨u, hu, hkey⟩ := List.mem_map.1 hlock
    exact hcount u hu (kind_of_key hkey)

/-! ## One step -/

/-- Redis answers, and a request is let through only while there is room for it. -/
def WithinBudget (limits : Limits) (w : AccountWorld) (_ : ℕ) (_ : Request) (e : Ev) : Prop :=
  redisUp e = true ∧ admits limits w e = true

theorem unfailing_cons (hup : Unfailing (w.own i)) (hact : w.Act i r e w')
    (hredis : redisUp e = true) : Unfailing (e :: w.own i) := by
  constructor
  · intro hmem
    rcases List.mem_cons.1 hmem with heq | hmem
    · subst heq
      cases hredis
    · exact hup.up hmem
  · intro c hmem
    rcases List.mem_cons.1 hmem with heq | hmem
    · subst heq
      cases hact with
      | miss u hguard => cases hguard
    · exact hup.incr c hmem

theorem Commands.move (hw : w.Tidy) (hI : Commands w)
    (hm : w.Move (GuessLaw limits) (WithinBudget limits) i r e w') : Commands w' := by
  constructor
  · intro j
    by_cases hj : j = i
    · subst hj
      rw [hm.act.own_self]
      exact unfailing_cons (hI.unfailing j) hm.act hm.allowed.1
    · rw [hm.act.own_of_ne hj]
      exact hI.unfailing j
  · intro j u hu hkind
    by_cases hj : j = i
    · subst hj
      have htx := (hw.act hm.act).tx_eq j
      rw [hm.act.own_self] at htx
      have hsame : openTx (e :: w.own j) = openTx (w.own j) → w'.tx j = [u] := by
        intro heq
        rw [htx, heq, ← hw.tx_eq j] at hu ⊢
        exact hI.alone j u hu hkind
      cases e with
      | query q x => exact hsame rfl
      | call x a => exact hsame rfl
      | update v hit =>
          cases hit with
          | false => exact hsame rfl
          | true =>
              rw [htx, openTx_hit] at hu ⊢
              rcases List.mem_cons.1 hu with rfl | hu
              · rw [hm.lawful.1 hkind]
              · exact absurd hkind (hm.lawful.2 u hu)
      | _ => simp [htx] at hu
    · rw [hm.act.tx_of_ne hj] at hu ⊢
      exact hI.alone j u hu hkind

theorem commands_initial : Commands (World.initial db) where
  unfailing i := ⟨by simp [World.own, World.initial], by simp [World.own, World.initial]⟩
  alone i := by simp [World.initial]

/-- A failed check is noted against the counter the request guesses against. -/
theorem failedSince_cons (hresets : resets c e = false) (hact : w.Act i r e w') :
    failedSince limits c w'.log =
      failedSince limits c w.log + (failedCheck e && decide (r.guesses limits = some c)).toNat := by
  rw [hact.log_eq, failedSince]
  simp [hresets]

theorem failedSince_quiet (hresets : resets c e = false) (hchecked : checked e = none)
    (hact : w.Act i r e w') : failedSince limits c w'.log = failedSince limits c w.log := by
  rw [failedSince_cons hresets hact]
  simp [failedCheck, hchecked]

theorem letThrough_of_endsTx (he : endsTx e = true) : letThrough limits c e = false := by
  cases e <;> first | rfl | cases he

/-- The end of a transaction settles what its process owes. -/
theorem Bounded.settle (hI : Bounded limits c w) (hact : w.Act i r e w')
    (hsettles : Settles limits (w.own i)) (htx : w.tx i = openTx (w.own i))
    (hends : endsTx e = true) (halone : ∀ u ∈ w.tx i, u.kind = .count → w.tx i = [u])
    (hdb : w'.db = replay (w.tx i) w.db) (hresets : resets c e = (w.tx i).any (Update.drops c))
    (hchecked : checked e = none) : Bounded limits c w' := by
  have hA := hact.tally_add (f := inFlight limits c) rfl
  have hE := hact.tally_add (f := owing limits c) rfl
  have hflight : inFlight limits c (e :: w.own i) = false := by
    rw [inFlight_cons, letThrough_of_endsTx hends, hends]
    rfl
  have howing : owing limits c (e :: w.own i) = false := by rw [owing, hflight, Bool.false_and]
  rw [hflight, Bool.toNat_false] at hA
  rw [howing, Bool.toNat_false] at hE
  rw [Bounded, hdb]
  have hacts : Acts c w.db (w.tx i) := acts_of_alone halone
  cases hacts with
  | counts hmem hdrops hrow =>
      have hlog : failedSince limits c w'.log = failedSince limits c w.log :=
        failedSince_quiet (hresets.trans hdrops) hchecked hact
      have hle := Bool.toNat_le (owing limits c (w.own i))
      rw [(hsettles c).2 (htx ▸ hmem), Bool.toNat_true] at hA
      rw [hlog, hrow]
      rcases hI with hI | hI <;> omega
  | drops hmem hdrops hrow =>
      have hlog : failedSince limits c w'.log = 0 := by
        simp [hact.log_eq, failedSince, hresets, hdrops]
      rw [hlog, hrow]
      rcases hI with hI | hI <;> omega
  | leaves hmem hdrops hrow =>
      have hlog : failedSince limits c w'.log = failedSince limits c w.log :=
        failedSince_quiet (hresets.trans hdrops) hchecked hact
      have hnone : owing limits c (w.own i) = false := by
        rw [Bool.eq_false_iff]
        intro howing
        exact hmem (htx ▸ (hsettles c).1 howing)
      rw [hnone, Bool.toNat_false] at hE
      rw [hlog, hrow]
      rcases hI with hI | hI <;> omega

theorem Bounded.same (hI : Bounded limits c w) (hact : w.Act i r e w') (hdb : w'.db = w.db)
    (hresets : resets c e = false) (hchecked : checked e = none)
    (hlet : letThrough limits c e = false) (hends : endsTx e = false) : Bounded limits c w' := by
  have hflight : inFlight limits c (e :: w.own i) = inFlight limits c (w.own i) := by
    rw [inFlight_cons, hlet, hends]
    rfl
  have howing : owing limits c (e :: w.own i) = owing limits c (w.own i) := by
    rw [owing, hflight, missed_cons, hchecked]
    rfl
  rw [Bounded, hdb, failedSince_quiet hresets hchecked hact, hact.tally_same rfl hflight,
    hact.tally_same rfl howing]
  exact hI

theorem Bounded.guess (hI : Bounded limits c w) (hact : w.Act i r e w') (hdb : w'.db = w.db)
    (hresets : resets c e = false) (hchecked : checked e = none)
    (hroom : failuresOf c w.db + w.tally (inFlight limits c) < limits.of c)
    (hlet : letThrough limits c e = true) : Bounded limits c w' := by
  have hA := hact.tally_add (f := inFlight limits c) rfl
  have hE := hact.tally_add (f := owing limits c) rfl
  have hflight : inFlight limits c (e :: w.own i) = true := by rw [inFlight_cons, hlet, Bool.true_or]
  have howing : (owing limits c (w.own i)).toNat ≤ (owing limits c (e :: w.own i)).toNat := by
    rw [owing, owing, hflight, missed_cons, hchecked]
    cases inFlight limits c (w.own i) <;> simp
  rw [hflight, Bool.toNat_true] at hA
  rw [Bounded, hdb, failedSince_quiet hresets hchecked hact]
  rcases hI with hI | hI <;> omega

theorem Bounded.check (hI : Bounded limits c w) (hact : w.Act i r e w') (hdb : w'.db = w.db)
    (hresets : resets c e = false) (hlet : letThrough limits c e = false) (hends : endsTx e = false)
    {valid : Bool} (hchecked : checked e = some valid) (hpoised : Poised limits r (w.own i)) :
    Bounded limits c w' := by
  have hA := hact.tally_add (f := inFlight limits c) rfl
  have hE := hact.tally_add (f := owing limits c) rfl
  have hflight : inFlight limits c (e :: w.own i) = inFlight limits c (w.own i) := by
    rw [inFlight_cons, hlet, hends]
    rfl
  obtain ⟨c', hr, hin, hmissed, hothers⟩ := hpoised
  rw [hflight] at hA
  rw [owing, owing, hflight, missed_cons, hchecked, hmissed] at hE
  rw [Bounded, hdb, failedSince_cons hresets hact, failedCheck, hchecked, hr]
  by_cases hc : c' = c
  · subst hc
    have hone := World.one_le_tally hin rfl
    rw [hin] at hE
    cases valid <;> simp at hE ⊢ <;> rcases hI with hI | hI <;> omega
  · rw [hothers c (Ne.symm hc)] at hE
    simp [hc] at hE ⊢
    rcases hI with hI | hI <;> omega

theorem of_letThrough (he : letThrough limits c e = true) :
    ∃ n : Nat, e = .query (.failures c) n ∧ n < limits.of c := by
  cases e with
  | query q n =>
      cases q with
      | failures c' =>
          obtain ⟨rfl, hn⟩ := of_decide_eq_true he
          exact ⟨n, rfl, hn⟩
      | _ => cases he
  | _ => cases he

theorem Bounded.drop (hI : Bounded limits c w) {err : Err} (hact : w.Act i r (.threw err) w')
    (howing : owing limits c (w.own i) = false) : Bounded limits c w' := by
  have hdb : w'.db = w.db := by
    cases hact
    rfl
  have hA := hact.tally_add (f := inFlight limits c) rfl
  have hE := hact.tally_same (f := owing limits c) rfl (howing ▸ rfl)
  have hflight : inFlight limits c (.threw err :: w.own i) = false := rfl
  rw [hflight, Bool.toNat_false] at hA
  rw [Bounded, hdb, failedSince_quiet rfl rfl hact, hE]
  rcases hI with hI | hI <;> omega

theorem Bounded.move (hw : w.Tidy) (hC : Commands w) (hI : Bounded limits c w)
    (hm : w.Move (GuessLaw limits) (WithinBudget limits) i r e w') : Bounded limits c w' := by
  have hact := hm.act
  have hup := hC.unfailing i
  have hlaw := hm.lawful
  by_cases hlet : letThrough limits c e = true
  · obtain ⟨n, rfl, hn⟩ := of_letThrough hlet
    have hdb : w'.db = w.db := by
      cases hact
      rfl
    have hroom : limits.of c ≤ n ∨
        failuresOf c w.db + w.tally (inFlight limits c) < limits.of c :=
      (Bool.or_eq_true_iff.1 hm.allowed.2).imp of_decide_eq_true of_decide_eq_true
    exact hI.guess hm.act hdb rfl rfl (hroom.resolve_left (not_le.2 hn)) hlet
  rw [Bool.not_eq_true] at hlet
  cases hact with
  | query q => exact hI.same hm.act rfl rfl rfl hlet rfl
  | hit u hguard hfree => exact hI.same hm.act rfl rfl rfl rfl rfl
  | miss u hguard => exact hI.same hm.act rfl rfl rfl rfl rfl
  | call x a =>
      cases hchecked : checked (.call x a) with
      | none => exact hI.same hm.act rfl rfl hchecked rfl rfl
      | some valid =>
          exact hI.check hm.act rfl rfl rfl rfl hchecked (hlaw (by simp [hchecked]) hup)
  | commit =>
      exact hI.settle hm.act (hlaw hup) (hw.tx_eq i) rfl (hC.alone i) rfl rfl rfl
  | rollback => exact absurd hlaw id
  | done => exact hI.settle hm.act (hlaw hup) (hw.tx_eq i) rfl (hC.alone i) rfl rfl rfl
  | throw err => exact hI.drop hm.act (hlaw hup c)

theorem bounded_of_trace (htrace : World.Trace (GuessLaw limits) (WithinBudget limits)
    (World.initial db) w) (c : Counter) : Bounded limits c w := by
  have hboth : Commands w ∧ Bounded limits c w := by
    refine htrace.induct (I := fun w => Commands w ∧ Bounded limits c w)
      (World.initial_tidy (S := accounts) db) ⟨?_, .inl ⟨rfl, rfl⟩⟩ ?_
    · exact commands_initial
    · intro w i r e w' hw hI hm
      exact ⟨hI.1.move hw hm, hI.2.move hw hI.1 hm⟩
  exact hboth.2

/-! ## Runs -/

/-- **The budget of guesses**: as long as requests are let through only while there is
room for them, no more guesses fail than the limit allows between two resets. -/
theorem guess_budget {limits : Limits} {db : Database} {s : AccountSystem}
    (hrun : System.Runs (handler limits) (fun _ => True) (WithinBudget limits)
      (System.initial db) s) (c : Counter) : failedSince limits c s.world.log ≤ limits.of c := by
  have hbounded := bounded_of_trace (trace_of_runs (fun r _ => handler_guesses limits r) hrun) c
  have howing : s.world.tally (owing limits c) ≤ s.world.tally (inFlight limits c) :=
    World.tally_le fun h howing => (Bool.and_eq_true_iff.1 howing).1
  rcases hbounded with hbounded | hbounded <;> omega

def guarded : Database :=
  Store.empty.set (.user 7) (some
    { email := "ana@mugs.test", name := "Ana", passwordHash := "cobalt", globalRole := .user
      isActive := true, totpSecret := some "JBSWY3DP", twoFactorEnabled := true })

/-- Redis and the clock answer, and every code is wrong. -/
def wrongCodes : (c : Call) → c.Answer
  | .redis => true
  | .now => 7000
  | .issuedAt => 7
  | .uuid => 0
  | .randomBytes => 0
  | .generateSecret => ""
  | .comparePassword _ _ => false
  | .hashPassword password => password
  | .checkTotp _ _ => false
  | .sendResetMail _ => true
  | .respondMobileRefresh _ => ()

def guessCode : Request :=
  .verifyTwoFactor false (.signed ⟨.access .staff, .challenge 7, 7, 7 + challengeExpiresIn, none⟩)
    "000000" none

/-- As many requests as given guess the code, each up to its check. -/
def guesses : ℕ → List (Turn accounts Request)
  | 0 => []
  | n + 1 => .start n guessCode :: .steps n 5 wrongCodes :: guesses n

/-- One guess. -/
theorem guess_budget_once : ∃ s : AccountSystem,
    failedSince throttleLimits (.twoFactor 7) s.world.log = 1 ∧
      failedSince throttleLimits (.twoFactor 7) s.world.log ≤ throttleLimits.of (.twoFactor 7) := by
  obtain ⟨s, hs, hfailed⟩ := System.exists_run_of_play (handler throttleLimits) (fun _ => true)
    (fun w _ _ e => redisUp e && admits throttleLimits w e) (System.initial guarded) (guesses 1)
    (fun s => failedSince throttleLimits (.twoFactor 7) s.world.log)
    (by decide +kernel : _ = some 1)
  refine ⟨s, hfailed, guess_budget (hs.mono (fun _ _ => trivial) fun w i r e h => ?_) _⟩
  exact Bool.and_eq_true_iff.1 h

/-- Six requests are let through before any of them has recorded its failure. -/
theorem guesses_cross : ¬ ∀ (limits : Limits) (db : Database) (s : AccountSystem) (c : Counter),
    System.Runs (handler limits) (fun _ => True) (fun _ _ _ e => redisUp e = true)
      (System.initial db) s →
    failedSince limits c s.world.log ≤ limits.of c := by
  intro hall
  obtain ⟨s, hs, hfailed⟩ := System.exists_run_of_play (handler throttleLimits) (fun _ => true)
    (fun _ _ _ e => redisUp e) (System.initial guarded) (guesses 6)
    (fun s => failedSince throttleLimits (.twoFactor 7) s.world.log)
    (by decide +kernel : _ = some 6)
  have hle := hall throttleLimits guarded s (.twoFactor 7)
    (hs.mono (fun _ _ => trivial) fun _ _ _ _ h => h)
  rw [hfailed] at hle
  exact absurd hle (by decide)

end WhatStore.Accounts
