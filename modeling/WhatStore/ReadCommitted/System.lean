import WhatStore.ReadCommitted.Program
import Mathlib.Logic.Relation

/-!
# Transactions under READ COMMITTED

Any number of processes run programs against one store. A transaction is the
list of the updates it has applied, newest first: `replay` applies them to the
committed store and gives the transaction's own `view`, so a statement sees
every commit made before it and the transaction's own writes on top. An update
that changes a row holds the lock of that row until its transaction ends, and
an update whose condition holds on a row locked by another transaction waits.
An update whose condition fails on the visible row waits for nobody.

`Step` is one statement of one process. A run may be restricted by the requests
that are started and by `allow`, a condition on a step and the state before it.
Nothing else is assumed about the order of steps.
-/

namespace ReadCommitted

/-! ## Transactions as lists of updates -/

/-- The store after an update whose condition holds. -/
def applyUpdate {S : Schema} (u : S.Update) (s : Store S.Key S.Row) : Store S.Key S.Row :=
  s.set (S.key u) (S.change u (s.row (S.key u)))

/-- The store after the updates of a transaction, which are listed newest first. -/
def replay {S : Schema} : List S.Update → Store S.Key S.Row → Store S.Key S.Row
  | [], s => s
  | u :: tx, s => applyUpdate u (replay tx s)

/-- The rows a transaction has written, which are the rows it has locked. -/
def locks {S : Schema} (tx : List S.Update) : List S.Key := tx.map S.key

@[simp] theorem applyUpdate_row_self {S : Schema} (u : S.Update) (s : Store S.Key S.Row) :
    (applyUpdate u s).row (S.key u) = S.change u (s.row (S.key u)) :=
  Store.set_row_self s _ _

theorem applyUpdate_row_of_ne {S : Schema} (u : S.Update) (s : Store S.Key S.Row)
    {k : S.Key} (h : k ≠ S.key u) : (applyUpdate u s).row k = s.row k :=
  Store.set_row_of_ne s _ h

@[simp] theorem replay_nil {S : Schema} (s : Store S.Key S.Row) :
    replay (S := S) [] s = s := rfl

@[simp] theorem replay_cons {S : Schema} (u : S.Update) (tx : List S.Update)
    (s : Store S.Key S.Row) : replay (u :: tx) s = applyUpdate u (replay tx s) := rfl

theorem replay_append {S : Schema} (tx tx' : List S.Update) (s : Store S.Key S.Row) :
    replay (tx ++ tx') s = replay tx (replay tx' s) := by
  induction tx with
  | nil => rfl
  | cons u tx ih => rw [List.cons_append, replay_cons, replay_cons, ih]

theorem replay_row_of_notMem {S : Schema} {tx : List S.Update} (s : Store S.Key S.Row)
    {k : S.Key} (h : k ∉ locks tx) : (replay tx s).row k = s.row k := by
  induction tx with
  | nil => rfl
  | cons u tx ih =>
      rw [locks, List.map_cons, List.mem_cons, not_or] at h
      rw [replay_cons, applyUpdate_row_of_ne u _ h.1, ih h.2]

theorem replay_row_congr {S : Schema} (tx : List S.Update) {s s' : Store S.Key S.Row}
    {k : S.Key} (h : s.row k = s'.row k) : (replay tx s).row k = (replay tx s').row k := by
  induction tx with
  | nil => exact h
  | cons u tx ih =>
      rw [replay_cons, replay_cons]
      by_cases hk : k = S.key u
      · subst hk
        rw [applyUpdate_row_self, applyUpdate_row_self, ih]
      · rw [applyUpdate_row_of_ne u _ hk, applyUpdate_row_of_ne u _ hk, ih]

/-- How far a transaction moves a measure depends only on the rows it has
locked. -/
theorem total_replay_sub {S : Schema} (f : (k : S.Key) → Option (S.Row k) → ℤ)
    (hf : ∀ k, f k none = 0) (tx : List S.Update) {s s' : Store S.Key S.Row}
    (h : ∀ k ∈ locks tx, s'.row k = s.row k) :
    Store.total f (replay tx s') - Store.total f s' =
      Store.total f (replay tx s) - Store.total f s := by
  induction tx with
  | nil => simp
  | cons u tx ih =>
      have hu : (replay tx s').row (S.key u) = (replay tx s).row (S.key u) :=
        replay_row_congr tx (h _ (by simp [locks]))
      have htx := ih fun k hk => h k (List.mem_cons_of_mem _ hk)
      simp only [replay_cons, applyUpdate, Store.total_set f hf, hu]
      omega

/-! ## Worlds -/

inductive Event (S : Schema) where
  | query (q : S.Query) (r : S.Result q)
  | update (u : S.Update) (hit : Bool)
  | call (c : S.Call) (a : S.Answer c)
  | committed (tx : List S.Update)
  | rolledBack
  | returned (tx : List S.Update)
  | threw (e : S.Err)

/-- An event with the process that caused it and the request it works on. -/
structure Entry (S : Schema) (R : Type) where
  pid : ℕ
  request : R
  event : Event S

/-- The committed store, the open transaction of each process and the events
so far, newest first. -/
structure World (S : Schema) (R : Type) where
  db : Store S.Key S.Row
  tx : ℕ → List S.Update
  log : List (Entry S R)

namespace World

variable {S : Schema} {R : Type}

/-- What the statements of process `i` see. -/
def view (w : World S R) (i : ℕ) : Store S.Key S.Row := replay (w.tx i) w.db

/-- Records an event of process `i`. -/
def note (w : World S R) (i : ℕ) (r : R) (e : Event S) : World S R :=
  { w with log := ⟨i, r, e⟩ :: w.log }

/-- Applies an update inside the transaction of process `i`. -/
def push (w : World S R) (i : ℕ) (r : R) (u : S.Update) : World S R :=
  { w with tx := Function.update w.tx i (u :: w.tx i), log := ⟨i, r, .update u true⟩ :: w.log }

/-- Ends the transaction of process `i` and keeps its writes. -/
def commit (w : World S R) (i : ℕ) (r : R) (e : Event S) : World S R :=
  { db := w.view i, tx := Function.update w.tx i [], log := ⟨i, r, e⟩ :: w.log }

/-- Ends the transaction of process `i` and drops its writes. -/
def abort (w : World S R) (i : ℕ) (r : R) (e : Event S) : World S R :=
  { w with tx := Function.update w.tx i [], log := ⟨i, r, e⟩ :: w.log }

/-- No row is locked by two transactions. -/
def Exclusive (w : World S R) : Prop :=
  ∀ i j, i ≠ j → ∀ k ∈ locks (w.tx i), k ∉ locks (w.tx j)

/-- No other process holds the lock of the row `k`. -/
def Free (w : World S R) (i : ℕ) (k : S.Key) : Prop :=
  ∀ j, j ≠ i → k ∉ locks (w.tx j)

@[simp] theorem note_db (w : World S R) (i r e) : (w.note i r e).db = w.db := rfl
@[simp] theorem note_tx (w : World S R) (i r e) : (w.note i r e).tx = w.tx := rfl
@[simp] theorem note_view (w : World S R) (i r e) (j : ℕ) :
    (w.note i r e).view j = w.view j := rfl
@[simp] theorem push_db (w : World S R) (i r u) : (w.push i r u).db = w.db := rfl
@[simp] theorem push_tx_self (w : World S R) (i r u) : (w.push i r u).tx i = u :: w.tx i := by
  simp [push]
@[simp] theorem commit_db (w : World S R) (i r e) : (w.commit i r e).db = w.view i := rfl
@[simp] theorem commit_tx_self (w : World S R) (i r e) : (w.commit i r e).tx i = [] := by
  simp [commit]
@[simp] theorem abort_db (w : World S R) (i r e) : (w.abort i r e).db = w.db := rfl
@[simp] theorem abort_tx_self (w : World S R) (i r e) : (w.abort i r e).tx i = [] := by
  simp [abort]

theorem push_tx_of_ne (w : World S R) {i j : ℕ} (r u) (h : j ≠ i) :
    (w.push i r u).tx j = w.tx j := by
  simp [push, h]

theorem commit_tx_of_ne (w : World S R) {i j : ℕ} (r e) (h : j ≠ i) :
    (w.commit i r e).tx j = w.tx j := by
  simp [commit, h]

theorem abort_tx_of_ne (w : World S R) {i j : ℕ} (r e) (h : j ≠ i) :
    (w.abort i r e).tx j = w.tx j := by
  simp [abort, h]

@[simp] theorem push_view_self (w : World S R) (i r u) :
    (w.push i r u).view i = applyUpdate u (w.view i) := by
  simp [view]

theorem push_view_of_ne (w : World S R) {i j : ℕ} (r u) (h : j ≠ i) :
    (w.push i r u).view j = w.view j := by
  simp [view, push_tx_of_ne w r u h]

@[simp] theorem commit_view_self (w : World S R) (i r e) :
    (w.commit i r e).view i = w.view i := by
  simp [view]

@[simp] theorem abort_view_self (w : World S R) (i r e) : (w.abort i r e).view i = w.db := by
  simp [view]

theorem abort_view_of_ne (w : World S R) {i j : ℕ} (r e) (h : j ≠ i) :
    (w.abort i r e).view j = w.view j := by
  simp [view, abort_tx_of_ne w r e h]

theorem view_of_tx_nil {w : World S R} {i : ℕ} (h : w.tx i = []) : w.view i = w.db := by
  simp [view, h]

theorem commit_row_of_mem {w : World S R} (hw : w.Exclusive) {i j : ℕ} (r e) (h : j ≠ i)
    {k : S.Key} (hk : k ∈ locks (w.tx j)) : (w.commit i r e).db.row k = w.db.row k :=
  replay_row_of_notMem w.db (hw j i h k hk)

/-- After the commit of another process, a row of a view is what it was when
the view's transaction has locked it, and the committer's row otherwise. -/
theorem commit_view_row {w : World S R} (hw : w.Exclusive) {i j : ℕ} (r e) (h : j ≠ i)
    (k : S.Key) :
    ((w.commit i r e).view j).row k = (w.view j).row k ∨
      (k ∉ locks (w.tx j) ∧ (w.view j).row k = w.db.row k ∧
        ((w.commit i r e).view j).row k = (w.view i).row k) := by
  have htx : (w.commit i r e).tx j = w.tx j := commit_tx_of_ne w r e h
  by_cases hk : k ∈ locks (w.tx j)
  · left
    rw [view, view, htx]
    exact replay_row_congr _ (commit_row_of_mem hw r e h hk)
  · right
    refine ⟨hk, replay_row_of_notMem w.db hk, ?_⟩
    rw [view, htx]
    exact replay_row_of_notMem _ hk

theorem commit_view_locked {w : World S R} (hw : w.Exclusive) {i j : ℕ} (r e) (h : j ≠ i)
    {k : S.Key} (hk : k ∈ locks (w.tx j)) :
    ((w.commit i r e).view j).row k = (w.view j).row k := by
  rcases commit_view_row hw r e h k with heq | ⟨hnot, -, -⟩
  · exact heq
  · exact absurd hk hnot

theorem Exclusive.note {w : World S R} (hw : w.Exclusive) (i r e) : (w.note i r e).Exclusive := hw

theorem Exclusive.push {w : World S R} (hw : w.Exclusive) {i : ℕ} (r) {u : S.Update}
    (hfree : w.Free i (S.key u)) : (w.push i r u).Exclusive := by
  intro a b hab k hka hkb
  by_cases ha : a = i
  · subst ha
    rw [push_tx_of_ne w r u hab.symm] at hkb
    rw [push_tx_self, locks, List.map_cons, List.mem_cons] at hka
    rcases hka with rfl | hka
    · exact hfree b hab.symm hkb
    · exact hw a b hab k hka hkb
  · rw [push_tx_of_ne w r u ha] at hka
    by_cases hb : b = i
    · subst hb
      rw [push_tx_self, locks, List.map_cons, List.mem_cons] at hkb
      rcases hkb with rfl | hkb
      · exact hfree a ha hka
      · exact hw a b hab k hka hkb
    · rw [push_tx_of_ne w r u hb] at hkb
      exact hw a b hab k hka hkb

private theorem exclusive_of_dropped {w w' : World S R} (hw : w.Exclusive) {i : ℕ}
    (hself : w'.tx i = []) (hne : ∀ j, j ≠ i → w'.tx j = w.tx j) : w'.Exclusive := by
  intro a b hab k hka hkb
  by_cases ha : a = i
  · rw [ha, hself] at hka
    cases hka
  · by_cases hb : b = i
    · rw [hb, hself] at hkb
      cases hkb
    · rw [hne a ha] at hka
      rw [hne b hb] at hkb
      exact hw a b hab k hka hkb

theorem Exclusive.commit {w : World S R} (hw : w.Exclusive) (i r e) :
    (w.commit i r e).Exclusive :=
  exclusive_of_dropped hw (commit_tx_self w i r e) fun _ h => commit_tx_of_ne w r e h

theorem Exclusive.abort {w : World S R} (hw : w.Exclusive) (i r e) :
    (w.abort i r e).Exclusive :=
  exclusive_of_dropped hw (abort_tx_self w i r e) fun _ h => abort_tx_of_ne w r e h

end World

/-! ## Systems and their runs -/

/-- A process: not started, at some point of its program, or finished. -/
inductive Proc (S : Schema) (R : Type) where
  | idle
  | running (r : R) (p : Prog S Unit)
  | done (r : R)

/-- The world together with the processes and the numbers of those started. -/
structure System (S : Schema) (R : Type) where
  world : World S R
  pids : List ℕ
  proc : ℕ → Proc S R

namespace System

variable {S : Schema} {R : Type}

def initial (db : Store S.Key S.Row) : System S R where
  world := { db := db, tx := fun _ => [], log := [] }
  pids := []
  proc _ := .idle

/-- No other started process holds the lock of `k`. -/
def free (s : System S R) (i : ℕ) (k : S.Key) : Bool :=
  s.pids.all fun j => j == i || !(locks (s.world.tx j)).contains k

/-- One statement of process `i`: the event, the world after it and what
remains of the process. A statement that has to wait for a lock does not step. -/
def advance (s : System S R) (i : ℕ) (r : R) (answer : (c : S.Call) → S.Answer c) :
    Prog S Unit → Option (Event S × World S R × Proc S R)
  | .ret _ =>
      let e := .returned (s.world.tx i)
      some (e, s.world.commit i r e, .done r)
  | .throw err =>
      let e := .threw err
      some (e, s.world.abort i r e, .done r)
  | .query q k =>
      let x := S.eval q (s.world.view i)
      let e := .query q x
      some (e, s.world.note i r e, .running r (k x))
  | .update u k =>
      if S.guard u ((s.world.view i).row (S.key u)) then
        if s.free i (S.key u) then
          some (.update u true, s.world.push i r u, .running r (k true))
        else none
      else
        let e := .update u false
        some (e, s.world.note i r e, .running r (k false))
  | .call c k =>
      let e := .call c (answer c)
      some (e, s.world.note i r e, .running r (k (answer c)))
  | .commit k =>
      let e := .committed (s.world.tx i)
      some (e, s.world.commit i r e, .running r k)
  | .rollback k =>
      let e := .rolledBack
      some (e, s.world.abort i r e, .running r k)

/-- Process `i` starts as `q`. -/
def spawn (s : System S R) (i : ℕ) (q : Proc S R) : System S R :=
  { s with pids := i :: s.pids, proc := Function.update s.proc i q }

/-- Process `i` goes on as `q` in the world `w`. -/
def resume (s : System S R) (i : ℕ) (w : World S R) (q : Proc S R) : System S R :=
  { s with world := w, proc := Function.update s.proc i q }

@[simp] theorem spawn_world (s : System S R) (i q) : (s.spawn i q).world = s.world := rfl
@[simp] theorem spawn_pids (s : System S R) (i q) : (s.spawn i q).pids = i :: s.pids := rfl
@[simp] theorem spawn_proc_self (s : System S R) (i q) : (s.spawn i q).proc i = q := by
  simp [spawn]
@[simp] theorem resume_world (s : System S R) (i w q) : (s.resume i w q).world = w := rfl
@[simp] theorem resume_pids (s : System S R) (i w q) : (s.resume i w q).pids = s.pids := rfl
@[simp] theorem resume_proc_self (s : System S R) (i w q) : (s.resume i w q).proc i = q := by
  simp [resume]

theorem spawn_proc_of_ne (s : System S R) {i j : ℕ} (q) (h : j ≠ i) :
    (s.spawn i q).proc j = s.proc j := by
  simp [spawn, h]

theorem resume_proc_of_ne (s : System S R) {i j : ℕ} (w q) (h : j ≠ i) :
    (s.resume i w q).proc j = s.proc j := by
  simp [resume, h]

/-- One move of a system: a request arrives, or a process makes a step. -/
inductive Step (handler : R → Prog S Unit) (starts : R → Prop)
    (allow : World S R → ℕ → R → Event S → Prop) : System S R → System S R → Prop where
  | start {s : System S R} (i : ℕ) (r : R) (hidle : s.proc i = .idle) (hr : starts r) :
      Step handler starts allow s (s.spawn i (.running r (handler r)))
  | run {s : System S R} (i : ℕ) (r : R) (p : Prog S Unit)
      (answer : (c : S.Call) → S.Answer c) (e : Event S) (w : World S R) (q : Proc S R)
      (hproc : s.proc i = .running r p) (hstep : s.advance i r answer p = some (e, w, q))
      (hallow : allow s.world i r e) :
      Step handler starts allow s (s.resume i w q)

def Runs (handler : R → Prog S Unit) (starts : R → Prop)
    (allow : World S R → ℕ → R → Event S → Prop) : System S R → System S R → Prop :=
  Relation.ReflTransGen (Step handler starts allow)

theorem Runs.mono {handler : R → Prog S Unit} {starts starts' : R → Prop}
    {allow allow' : World S R → ℕ → R → Event S → Prop} {s t : System S R}
    (h : Runs handler starts allow s t) (hstarts : ∀ r, starts r → starts' r)
    (hallow : ∀ w i r e, allow w i r e → allow' w i r e) : Runs handler starts' allow' s t := by
  refine Relation.ReflTransGen.mono (fun s t hst => ?_) _ _ h
  cases hst with
  | start i r hidle hr => exact .start i r hidle (hstarts r hr)
  | run i r p answer e w q hproc hstep ha =>
      exact .run i r p answer e w q hproc hstep (hallow _ _ _ _ ha)

/-- No process is in the middle of its program. -/
def Quiescent (s : System S R) : Prop := ∀ i r p, s.proc i ≠ .running r p

/-- The bookkeeping every reachable system satisfies: locks are exclusive, and
a process that is not at work in its program has no open transaction. -/
structure Sane (s : System S R) : Prop where
  exclusive : s.world.Exclusive
  started : ∀ i, s.proc i ≠ .idle → i ∈ s.pids
  closed : ∀ i, (∀ r p, s.proc i ≠ .running r p) → s.world.tx i = []

theorem initial_sane (db : Store S.Key S.Row) : (initial db : System S R).Sane where
  exclusive := by
    intro i j _ k hk
    cases hk
  started i h := absurd rfl h
  closed _ _ := rfl

theorem Sane.free_of {s : System S R} (hs : s.Sane) {i : ℕ} {k : S.Key}
    (h : s.free i k = true) : s.world.Free i k := by
  intro j hj hk
  have hrun : s.proc j ≠ .idle := by
    intro hidle
    rw [hs.closed j (by simp [hidle])] at hk
    cases hk
  have := List.all_eq_true.1 h j (hs.started j hrun)
  simp [hj, hk] at this

end System

end ReadCommitted
