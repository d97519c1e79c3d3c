import WhatStore.ReadCommitted.Protocol

/-!
# Row disciplines

Most invariants of a database are about one row at a time (`ok`), about how a
row may change (`rel`), or are sums over rows (`measure`) that each update
moves by an amount (`flow`) that is read off the row it leaves and that later
changes of the row do not touch. A
`Discipline` collects the three. `Discipline.Kept` asks of a protocol that
every update it admits keeps the discipline on the row the update finds. What
the process has read helps: a row it `Saw` has since moved along `rel`, and a
row of its own transaction that it `Sees` is still the same.

Along a trace of such a protocol the committed rows satisfy `ok`, move along
`rel`, and each sum is its first value plus the flows of the committed updates.
-/

namespace ReadCommitted

variable {S : Schema} {R : Type}

/-! ## What a process has read -/

/-- The event shows that the row of `k` is `v`. -/
def Event.Shows (k : S.Key) (v : Option (S.Row k)) : Event S → Prop
  | .query q x => ∀ s : Store S.Key S.Row, S.eval q s = x → s.row k = v
  | _ => False

/-- At some point of the history the process read the row of `k`, which its
open transaction had not written, and found `v`. -/
def Saw (k : S.Key) (v : Option (S.Row k)) : List (Event S) → Prop
  | [] => False
  | e :: h => (e.Shows k v ∧ k ∉ locks (openTx h)) ∨ Saw k v h

theorem Saw.cons {k : S.Key} {v : Option (S.Row k)} {h : List (Event S)} (e : Event S)
    (hs : Saw k v h) : Saw k v (e :: h) := .inr hs

@[simp] theorem saw_nil (k : S.Key) (v : Option (S.Row k)) : ¬ Saw k v [] := id

/-- The event cannot change the view of its own process at `k`. -/
def Event.Spares (k : S.Key) : Event S → Prop
  | .query _ _ => True
  | .call _ _ => True
  | .update u hit => hit = true → S.key u ≠ k
  | _ => False

/-- The process has read the row of `k` after its open transaction wrote it,
found `v`, and has not written it since. -/
def Sees (k : S.Key) (v : Option (S.Row k)) : List (Event S) → Prop
  | [] => False
  | e :: h => (e.Shows k v ∧ k ∈ locks (openTx h)) ∨ (e.Spares k ∧ Sees k v h)

theorem Sees.extends {k : S.Key} {v : Option (S.Row k)} {h h' : List (Event S)}
    {A : S.Update → Prop} (hs : Sees k v h) (he : Prog.Extends A h h')
    (hA : ∀ u, A u → S.key u ≠ k) : Sees k v h' := by
  obtain ⟨es, rfl, hin⟩ := he
  induction es with
  | nil => exact hs
  | cons e es ih =>
      have hs' := ih fun x hx => hin x (List.mem_cons_of_mem _ hx)
      have he := hin e List.mem_cons_self
      refine .inr ⟨?_, hs'⟩
      cases e with
      | query q x => exact trivial
      | call c a => exact trivial
      | update u hit => exact fun _ => hA u he
      | committed tx => exact he.elim
      | rolledBack => exact he.elim
      | returned tx => exact he.elim
      | threw err => exact he.elim

/-- The last write of the open transaction to the row of `u` is `u` itself. -/
def Wrote (u : S.Update) (h : List (Event S)) : Prop :=
  ∃ later earlier, openTx h = later ++ u :: earlier ∧ S.key u ∉ locks later

theorem wrote_self (u : S.Update) (h : List (Event S)) : Wrote u (.update u true :: h) :=
  ⟨[], openTx h, rfl, by simp [locks]⟩

theorem Wrote.extends {u : S.Update} {h h' : List (Event S)} {A : S.Update → Prop}
    (hu : Wrote u h) (he : Prog.Extends A h h') (hA : ∀ v, A v → S.key v ≠ S.key u) :
    Wrote u h' := by
  obtain ⟨later, earlier, htx, hlater⟩ := hu
  obtain ⟨us, hus, hall⟩ := he.tx
  refine ⟨us ++ later, earlier, by rw [hus, htx, List.append_assoc], ?_⟩
  rw [locks, List.map_append, List.mem_append, not_or]
  refine ⟨fun hmem => ?_, hlater⟩
  obtain ⟨v, hv, hkey⟩ := List.mem_map.1 hmem
  exact hA v (hall v hv) hkey

theorem Wrote.row {u : S.Update} {h : List (Event S)} (hu : Wrote u h)
    (s : Store S.Key S.Row) :
    ∃ v, (replay (openTx h) s).row (S.key u) = S.change u v := by
  obtain ⟨later, earlier, heq, hk⟩ := hu
  refine ⟨(replay earlier s).row (S.key u), ?_⟩
  rw [heq, replay_append, replay_row_of_notMem _ hk, replay_cons, applyUpdate_row_self]

/-- The updates committed in a log, newest first. -/
def committed : List (Entry S R) → List S.Update
  | [] => []
  | ⟨_, _, .committed tx⟩ :: log => tx ++ committed log
  | ⟨_, _, .returned tx⟩ :: log => tx ++ committed log
  | ⟨_, _, .query _ _⟩ :: log => committed log
  | ⟨_, _, .update _ _⟩ :: log => committed log
  | ⟨_, _, .call _ _⟩ :: log => committed log
  | ⟨_, _, .rolledBack⟩ :: log => committed log
  | ⟨_, _, .threw _⟩ :: log => committed log

/-- The committed store is the first store with the committed updates applied
to it: a transaction that was rolled back leaves nothing behind. -/
theorem World.Trace.db_eq {P : Protocol S R} {allow : World S R → ℕ → R → Event S → Prop}
    {db : Store S.Key S.Row} {w : World S R} (h : World.Trace P allow (World.initial db) w) :
    w.db = replay (committed w.log) db := by
  refine h.induct (I := fun w => w.db = replay (committed w.log) db) (initial_tidy db) rfl ?_
  rintro w i r e w' - hI ⟨hact, -⟩
  cases hact with
  | query q => exact hI
  | hit u hguard hfree => exact hI
  | miss u hguard => exact hI
  | call c a => exact hI
  | commit =>
      rw [World.commit_db, World.view, World.commit, committed, replay_append, ← hI]
  | rollback => exact hI
  | done =>
      rw [World.commit_db, World.view, World.commit, committed, replay_append, ← hI]
  | throw err => exact hI

/-! ## Disciplines -/

/-- Row invariants, row relations, and sums with the amount by which an update
moves them, read off the row after it. -/
structure Discipline (S : Schema) where
  ok : (k : S.Key) → Option (S.Row k) → Prop
  rel : (k : S.Key) → Option (S.Row k) → Option (S.Row k) → Prop
  rel_refl : ∀ k v, rel k v v
  rel_trans : ∀ k u v w, rel k u v → rel k v w → rel k u w
  Index : Type
  measure : Index → (k : S.Key) → Option (S.Row k) → ℤ
  measure_none : ∀ x k, measure x k none = 0
  flow : Index → (u : S.Update) → Option (S.Row (S.key u)) → ℤ
  flow_rel : ∀ x u v w, S.guard u v = true → rel (S.key u) (S.change u v) w →
    flow x u (S.change u v) = flow x u w

namespace Discipline

def ofRows (ok : (k : S.Key) → Option (S.Row k) → Prop)
    (rel : (k : S.Key) → Option (S.Row k) → Option (S.Row k) → Prop)
    (refl : ∀ k v, rel k v v) (trans : ∀ k u v w, rel k u v → rel k v w → rel k u w) :
    Discipline S where
  ok := ok
  rel := rel
  rel_refl := refl
  rel_trans := trans
  Index := Empty
  measure x := x.elim
  measure_none x := x.elim
  flow x := x.elim
  flow_rel x := x.elim

variable (D : Discipline S)

def Good (s : Store S.Key S.Row) : Prop := ∀ k, D.ok k (s.row k)

/-- An update that keeps the discipline on the row it finds. -/
structure Respects (u : S.Update) (s : Store S.Key S.Row) : Prop where
  ok : D.ok (S.key u) (S.change u (s.row (S.key u)))
  rel : D.rel (S.key u) (s.row (S.key u)) (S.change u (s.row (S.key u)))
  flow : ∀ x, D.measure x (S.key u) (S.change u (s.row (S.key u))) =
    D.measure x (S.key u) (s.row (S.key u)) +
      D.flow x u (S.change u (s.row (S.key u)))

/-- What a process has read is still good, and its rows have moved along `rel`
since. -/
def Knows (h : List (Event S)) (s : Store S.Key S.Row) : Prop :=
  ∀ k v, Saw k v h → D.ok k v ∧ D.rel k v (s.row k)

/-- The sum of the flows of a list of updates, read off the rows of a store. -/
def flows (x : D.Index) (tx : List S.Update) (s : Store S.Key S.Row) : ℤ :=
  (tx.map fun u => D.flow x u (s.row (S.key u))).sum

@[simp] theorem flows_nil (x : D.Index) (s : Store S.Key S.Row) : D.flows x [] s = 0 := rfl

@[simp] theorem flows_cons (x : D.Index) (u : S.Update) (tx : List S.Update)
    (s : Store S.Key S.Row) :
    D.flows x (u :: tx) s = D.flow x u (s.row (S.key u)) + D.flows x tx s := rfl

@[simp] theorem flows_append (x : D.Index) (tx tx' : List S.Update) (s : Store S.Key S.Row) :
    D.flows x (tx ++ tx') s = D.flows x tx s + D.flows x tx' s := by
  simp [flows]

/-- The row of `u` has moved along `rel` since `u` wrote it. -/
def Stands (u : S.Update) (s : Store S.Key S.Row) : Prop :=
  ∃ v, S.guard u v = true ∧ D.rel (S.key u) (S.change u v) (s.row (S.key u))

theorem flows_congr (x : D.Index) (tx : List S.Update) {s s' : Store S.Key S.Row}
    (hs : ∀ u ∈ tx, D.Stands u s) (h : ∀ k ∈ locks tx, D.rel k (s.row k) (s'.row k)) :
    D.flows x tx s = D.flows x tx s' := by
  induction tx with
  | nil => rfl
  | cons u tx ih =>
      obtain ⟨v, hguard, hrel⟩ := hs u List.mem_cons_self
      have hrel' := D.rel_trans _ _ _ _ hrel (h _ List.mem_cons_self)
      rw [flows_cons, flows_cons, ih (fun u' hu' => hs u' (List.mem_cons_of_mem _ hu'))
        fun k hk => h k (List.mem_cons_of_mem _ hk), ← D.flow_rel x u v _ hguard hrel,
        ← D.flow_rel x u v _ hguard hrel']

/-- The discipline as an invariant of the committed store, of every open
transaction and of everything that was read. -/
structure Inv (w : World S R) : Prop where
  view_good : ∀ i, D.Good (w.view i)
  view_rel : ∀ i k, D.rel k (w.db.row k) ((w.view i).row k)
  view_total : ∀ i x, Store.total (D.measure x) (w.view i) =
    Store.total (D.measure x) w.db + D.flows x (w.tx i) (w.view i)
  stands : ∀ i u, u ∈ w.tx i → D.Stands u (w.view i)
  good : D.Good w.db
  saw : ∀ i k v, Saw k v (w.own i) → D.ok k v ∧ D.rel k v (w.db.row k)
  sees : ∀ i k v, Sees k v (w.own i) → k ∈ locks (w.tx i) ∧ (w.view i).row k = v

/-- Every update the protocol admits in a run restricted by `allow` keeps the
discipline on the row it finds. -/
def Kept (P : Protocol S R) (allow : World S R → ℕ → R → Event S → Prop) : Prop :=
  ∀ w i r u, w.Tidy → D.Inv w → P r (w.own i) (.update u true) →
    allow w i r (.update u true) → S.guard u ((w.view i).row (S.key u)) = true →
    D.Respects u (w.view i)

variable {D}

theorem respects_ofRows {ok : (k : S.Key) → Option (S.Row k) → Prop}
    {rel : (k : S.Key) → Option (S.Row k) → Option (S.Row k) → Prop}
    {refl : ∀ k v, rel k v v} {trans : ∀ k u v w, rel k u v → rel k v w → rel k u w}
    {u : S.Update} {s : Store S.Key S.Row}
    (hok : ok (S.key u) (S.change u (s.row (S.key u))))
    (hrel : rel (S.key u) (s.row (S.key u)) (S.change u (s.row (S.key u)))) :
    (ofRows ok rel refl trans).Respects u s :=
  ⟨hok, hrel, fun x => x.elim⟩

theorem Respects.of_row {u : S.Update} {s : Store S.Key S.Row} {k : S.Key} (hk : S.key u = k)
    (hok : D.ok k ((applyUpdate u s).row k)) (hrel : D.rel k (s.row k) ((applyUpdate u s).row k))
    (hflow : ∀ x, D.measure x k ((applyUpdate u s).row k) = D.measure x k (s.row k) +
      D.flow x u (S.change u (s.row (S.key u)))) : D.Respects u s := by
  subst hk
  rw [applyUpdate_row_self] at hok hrel
  refine ⟨hok, hrel, fun x => ?_⟩
  have h := hflow x
  rwa [applyUpdate_row_self] at h

theorem Respects.good {u : S.Update} {s : Store S.Key S.Row} (h : D.Respects u s)
    (hs : D.Good s) : D.Good (applyUpdate u s) := by
  intro k
  by_cases hk : k = S.key u
  · subst hk
    rw [applyUpdate_row_self]
    exact h.ok
  · rw [applyUpdate_row_of_ne u s hk]
    exact hs k

theorem Respects.rel_row {u : S.Update} {s : Store S.Key S.Row} (h : D.Respects u s)
    (k : S.Key) : D.rel k (s.row k) ((applyUpdate u s).row k) := by
  by_cases hk : k = S.key u
  · subst hk
    rw [applyUpdate_row_self]
    exact h.rel
  · rw [applyUpdate_row_of_ne u s hk]
    exact D.rel_refl k _

theorem Respects.total {u : S.Update} {s : Store S.Key S.Row} (h : D.Respects u s)
    (x : D.Index) : Store.total (D.measure x) (applyUpdate u s) =
      Store.total (D.measure x) s + D.flow x u (S.change u (s.row (S.key u))) := by
  rw [applyUpdate, Store.total_set (D.measure x) (D.measure_none x), h.flow x]
  ring

theorem Stands.moved {u : S.Update} {s s' : Store S.Key S.Row} (h : D.Stands u s)
    (hrel : D.rel (S.key u) (s.row (S.key u)) (s'.row (S.key u))) : D.Stands u s' := by
  obtain ⟨v, hguard, hv⟩ := h
  exact ⟨v, hguard, D.rel_trans _ _ _ _ hv hrel⟩

theorem Inv.knows {w : World S R} (hw : D.Inv w) (i : ℕ) : D.Knows (w.own i) (w.view i) :=
  fun k v hs => ⟨(hw.saw i k v hs).1, D.rel_trans k _ _ _ (hw.saw i k v hs).2 (hw.view_rel i k)⟩

theorem inv_initial {db : Store S.Key S.Row} (hdb : D.Good db) :
    D.Inv (World.initial db : World S R) where
  view_good _ := hdb
  view_rel _ k := D.rel_refl k _
  view_total _ _ := by simp [World.initial, World.view]
  stands _ _ h := nomatch h
  good := hdb
  saw _ _ _ h := h.elim
  sees _ _ _ h := h.elim

variable {w w' : World S R} {i : ℕ} {r : R} {e : Event S}

/-- Reads and calls leave the rows alone; a read may add to what was read. -/
private theorem inv_note (htidy : w.Tidy) (hw : D.Inv w)
    (hshow : ∀ k v, e.Shows k v → (w.view i).row k = v) (hact : w.Act i r e (w.note i r e)) :
    D.Inv (w.note i r e) where
  view_good := hw.view_good
  view_rel := hw.view_rel
  view_total := hw.view_total
  stands := hw.stands
  good := hw.good
  saw j k v hs := by
    by_cases hj : j = i
    · subst hj
      rw [hact.own_self] at hs
      rcases hs with ⟨hk, hfree⟩ | hs
      · have hview : (w.view j).row k = w.db.row k :=
          replay_row_of_notMem w.db (htidy.tx_eq j ▸ hfree)
        have hv : w.db.row k = v := hview.symm.trans (hshow k v hk)
        subst hv
        exact ⟨hw.good k, D.rel_refl k _⟩
      · exact hw.saw j k v hs
    · rw [hact.own_of_ne hj] at hs
      exact hw.saw j k v hs
  sees j k v hs := by
    by_cases hj : j = i
    · subst hj
      rw [hact.own_self] at hs
      rcases hs with ⟨hk, hlock⟩ | ⟨-, hs⟩
      · exact ⟨htidy.tx_eq j ▸ hlock, hshow k v hk⟩
      · exact hw.sees j k v hs
    · rw [hact.own_of_ne hj] at hs
      exact hw.sees j k v hs

private theorem saw_of_silent (hact : w.Act i r e w') (hsilent : ∀ k v, ¬ e.Shows k v) {j : ℕ}
    {k : S.Key} {v : Option (S.Row k)} (hs : Saw k v (w'.own j)) : Saw k v (w.own j) := by
  by_cases hj : j = i
  · subst hj
    rw [hact.own_self] at hs
    rcases hs with ⟨hk, -⟩ | hs
    · exact absurd hk (hsilent k v)
    · exact hs
  · rwa [hact.own_of_ne hj] at hs

private theorem inv_push (hw : D.Inv w) {u : S.Update} (hu : D.Respects u (w.view i))
    (hguard : S.guard u ((w.view i).row (S.key u)) = true)
    (hact : w.Act i r (.update u true) (w.push i r u)) : D.Inv (w.push i r u) where
  view_good j := by
    by_cases hj : j = i
    · subst hj
      rw [World.push_view_self]
      exact hu.good (hw.view_good j)
    · rw [World.push_view_of_ne w r u hj]
      exact hw.view_good j
  view_rel j k := by
    by_cases hj : j = i
    · subst hj
      rw [World.push_view_self]
      exact D.rel_trans k _ _ _ (hw.view_rel j k) (hu.rel_row k)
    · rw [World.push_view_of_ne w r u hj]
      exact hw.view_rel j k
  view_total j x := by
    by_cases hj : j = i
    · subst hj
      have hflows := D.flows_congr x (w.tx j) (hw.stands j) fun k _ => hu.rel_row k
      rw [World.push_view_self, hu.total x, hw.view_total j x, World.push_tx_self, flows_cons,
        World.push_db, applyUpdate_row_self, hflows]
      ring
    · rw [World.push_view_of_ne w r u hj, World.push_tx_of_ne w r u hj]
      exact hw.view_total j x
  stands j u' hu' := by
    by_cases hj : j = i
    · subst hj
      rw [World.push_tx_self] at hu'
      rw [World.push_view_self]
      rcases List.mem_cons.1 hu' with rfl | hu'
      · refine ⟨_, hguard, ?_⟩
        rw [applyUpdate_row_self]
        exact D.rel_refl _ _
      · exact (hw.stands j u' hu').moved (hu.rel_row _)
    · rw [World.push_tx_of_ne w r u hj] at hu'
      rw [World.push_view_of_ne w r u hj]
      exact hw.stands j u' hu'
  good := hw.good
  saw j k v hs := hw.saw j k v (saw_of_silent hact (fun _ _ => id) hs)
  sees j k v hs := by
    by_cases hj : j = i
    · subst hj
      rw [hact.own_self] at hs
      rcases hs with ⟨hk, -⟩ | ⟨hspare, hs⟩
      · exact hk.elim
      · obtain ⟨hlock, hrow⟩ := hw.sees j k v hs
        rw [World.push_tx_self, World.push_view_self,
          applyUpdate_row_of_ne u _ (hspare rfl).symm]
        exact ⟨List.mem_cons_of_mem _ hlock, hrow⟩
    · rw [hact.own_of_ne hj] at hs
      rw [World.push_view_of_ne w r u hj, World.push_tx_of_ne w r u hj]
      exact hw.sees j k v hs

private theorem inv_abort (hw : D.Inv w) (hsilent : ∀ k v, ¬ e.Shows k v)
    (hend : ∀ k, ¬ e.Spares k) (hact : w.Act i r e (w.abort i r e)) :
    D.Inv (w.abort i r e) where
  view_good j := by
    by_cases hj : j = i
    · subst hj
      rw [World.abort_view_self]
      exact hw.good
    · rw [World.abort_view_of_ne w r e hj]
      exact hw.view_good j
  view_rel j k := by
    by_cases hj : j = i
    · subst hj
      rw [World.abort_view_self]
      exact D.rel_refl k _
    · rw [World.abort_view_of_ne w r e hj]
      exact hw.view_rel j k
  view_total j x := by
    by_cases hj : j = i
    · subst hj
      simp
    · rw [World.abort_view_of_ne w r e hj, World.abort_tx_of_ne w r e hj]
      exact hw.view_total j x
  stands j u hu := by
    by_cases hj : j = i
    · subst hj
      rw [World.abort_tx_self] at hu
      cases hu
    · rw [World.abort_tx_of_ne w r e hj] at hu
      rw [World.abort_view_of_ne w r e hj]
      exact hw.stands j u hu
  good := hw.good
  saw j k v hs := hw.saw j k v (saw_of_silent hact hsilent hs)
  sees j k v hs := by
    by_cases hj : j = i
    · subst hj
      rw [hact.own_self] at hs
      rcases hs with ⟨hk, -⟩ | ⟨hspare, -⟩
      · exact absurd hk (hsilent k v)
      · exact absurd hspare (hend k)
    · rw [hact.own_of_ne hj] at hs
      rw [World.abort_view_of_ne w r e hj, World.abort_tx_of_ne w r e hj]
      exact hw.sees j k v hs

/-- After a commit every other transaction has its own writes on top of the
committer's: the rows it has locked are its own, the others the committer's. -/
private theorem inv_commit (htidy : w.Tidy) (hw : D.Inv w) (hsilent : ∀ k v, ¬ e.Shows k v)
    (hend : ∀ k, ¬ e.Spares k) (hact : w.Act i r e (w.commit i r e)) :
    D.Inv (w.commit i r e) where
  view_good j k := by
    by_cases hj : j = i
    · subst hj
      rw [World.commit_view_self]
      exact hw.view_good j k
    · rcases World.commit_view_row htidy.exclusive r e hj k with heq | ⟨-, -, heq⟩
      · rw [heq]
        exact hw.view_good j k
      · rw [heq]
        exact hw.view_good i k
  view_rel j k := by
    by_cases hj : j = i
    · subst hj
      rw [World.commit_view_self, World.commit_db]
      exact D.rel_refl k _
    · by_cases hk : k ∈ locks (w.tx j)
      · have hdb : (w.commit i r e).db.row k = w.db.row k :=
          World.commit_row_of_mem htidy.exclusive r e hj hk
        rw [hdb, World.commit_view_locked htidy.exclusive r e hj hk]
        exact hw.view_rel j k
      · have hview : ((w.commit i r e).view j).row k = (w.commit i r e).db.row k := by
          rw [World.view, World.commit_tx_of_ne w r e hj]
          exact replay_row_of_notMem _ hk
        rw [hview]
        exact D.rel_refl k _
  view_total j x := by
    by_cases hj : j = i
    · subst hj
      simp
    · have htx : (w.commit i r e).tx j = w.tx j := World.commit_tx_of_ne w r e hj
      have hmoved := total_replay_sub (D.measure x) (D.measure_none x) (w.tx j)
        fun k hk => World.commit_row_of_mem htidy.exclusive r e hj hk
      have hflows : D.flows x (w.tx j) ((w.commit i r e).view j) =
          D.flows x (w.tx j) (w.view j) :=
        (D.flows_congr x _ (hw.stands j) fun k hk => by
          rw [World.commit_view_locked htidy.exclusive r e hj hk]
          exact D.rel_refl k _).symm
      have hbefore := hw.view_total j x
      rw [htx, hflows, World.view, htx]
      rw [World.view] at hbefore ⊢
      omega
  stands j u hu := by
    by_cases hj : j = i
    · subst hj
      rw [World.commit_tx_self] at hu
      cases hu
    · rw [World.commit_tx_of_ne w r e hj] at hu
      refine (hw.stands j u hu).moved ?_
      rw [World.commit_view_locked htidy.exclusive r e hj (List.mem_map_of_mem hu)]
      exact D.rel_refl _ _
  good := hw.view_good i
  saw j k v hs := by
    have hsaw := hw.saw j k v (saw_of_silent hact hsilent hs)
    exact ⟨hsaw.1, D.rel_trans k _ _ _ hsaw.2 (hw.view_rel i k)⟩
  sees j k v hs := by
    by_cases hj : j = i
    · subst hj
      rw [hact.own_self] at hs
      rcases hs with ⟨hk, -⟩ | ⟨hspare, -⟩
      · exact absurd hk (hsilent k v)
      · exact absurd hspare (hend k)
    · rw [hact.own_of_ne hj] at hs
      obtain ⟨hlock, hrow⟩ := hw.sees j k v hs
      rw [World.commit_tx_of_ne w r e hj, World.commit_view_locked htidy.exclusive r e hj hlock]
      exact ⟨hlock, hrow⟩

variable {P : Protocol S R} {allow : World S R → ℕ → R → Event S → Prop}

theorem Kept.move (hD : D.Kept P allow) (htidy : w.Tidy) (hw : D.Inv w)
    (hm : w.Move P allow i r e w') : D.Inv w' := by
  have hact := hm.act
  cases hm.act with
  | query q => exact inv_note htidy hw (fun k v hs => hs _ rfl) hact
  | hit u hguard hfree =>
      exact inv_push hw (hD w i r u htidy hw hm.lawful hm.allowed hguard) hguard hact
  | miss u hguard => exact inv_note htidy hw (fun _ _ => False.elim) hact
  | call c a => exact inv_note htidy hw (fun _ _ => False.elim) hact
  | commit => exact inv_commit htidy hw (fun _ _ => id) (fun _ => id) hact
  | rollback => exact inv_abort hw (fun _ _ => id) (fun _ => id) hact
  | done => exact inv_commit htidy hw (fun _ _ => id) (fun _ => id) hact
  | throw err => exact inv_abort hw (fun _ _ => id) (fun _ => id) hact

theorem Kept.inv (hD : D.Kept P allow) (htidy : w.Tidy) (hw : D.Inv w)
    (h : World.Trace P allow w w') : D.Inv w' :=
  h.induct htidy hw fun _ _ _ _ _ ht hI hm => hD.move ht hI hm

private theorem rel_db_of_act (hw : D.Inv w) (hact : w.Act i r e w') (k : S.Key) :
    D.rel k (w.db.row k) (w'.db.row k) := by
  cases hact with
  | query q => exact D.rel_refl k _
  | hit u hguard hfree => exact D.rel_refl k _
  | miss u hguard => exact D.rel_refl k _
  | call c a => exact D.rel_refl k _
  | commit => exact hw.view_rel i k
  | rollback => exact D.rel_refl k _
  | done => exact hw.view_rel i k
  | throw err => exact D.rel_refl k _

/-- Between any two states of a trace the committed rows move along `rel`. -/
theorem Kept.rel (hD : D.Kept P allow) (htidy : w.Tidy) (hw : D.Inv w)
    (h : World.Trace P allow w w') (k : S.Key) : D.rel k (w.db.row k) (w'.db.row k) := by
  have hboth : D.Inv w' ∧ D.rel k (w.db.row k) (w'.db.row k) := by
    refine h.induct (I := fun v => D.Inv v ∧ D.rel k (w.db.row k) (v.db.row k)) htidy
      ⟨hw, D.rel_refl k _⟩ ?_
    intro v i r e v' ht hI hm
    exact ⟨hD.move ht hI.1 hm, D.rel_trans k _ _ _ hI.2 (rel_db_of_act hI.1 hm.act k)⟩
  exact hboth.2

/-- What was committed stands: its rows have moved along `rel` since. -/
theorem Kept.stands (hD : D.Kept P allow) {db : Store S.Key S.Row} (hdb : D.Good db)
    (h : World.Trace P allow (World.initial db) w) : ∀ u ∈ committed w.log, D.Stands u w.db := by
  have hall : D.Inv w ∧ ∀ u ∈ committed w.log, D.Stands u w.db := by
    refine h.induct (I := fun v => D.Inv v ∧ ∀ u ∈ committed v.log, D.Stands u v.db)
      (World.initial_tidy db) ⟨inv_initial hdb, fun _ hu => (nomatch hu)⟩ ?_
    rintro v i r e v' ht ⟨hI, hstands⟩ hm
    -- a commit adds the updates of its transaction to those committed before
    have hcommit : ∀ u ∈ v.tx i ++ committed v.log, D.Stands u (v.view i) := by
      intro u hu
      rcases List.mem_append.1 hu with hu | hu
      · exact hI.stands i u hu
      · exact (hstands u hu).moved (hI.view_rel i _)
    refine ⟨hD.move ht hI hm, ?_⟩
    cases hm.act with
    | query q => exact hstands
    | hit u hguard hfree => exact hstands
    | miss u hguard => exact hstands
    | call c a => exact hstands
    | commit => exact hcommit
    | rollback => exact hstands
    | done => exact hcommit
    | throw err => exact hstands
  exact hall.2

/-- Each sum is its first value plus the flows of the committed updates. -/
theorem Kept.total (hD : D.Kept P allow) {db : Store S.Key S.Row} (hdb : D.Good db)
    (h : World.Trace P allow (World.initial db) w) (x : D.Index) :
    Store.total (D.measure x) w.db =
      Store.total (D.measure x) db + D.flows x (committed w.log) w.db := by
  induction h with
  | refl => simp [World.initial, committed]
  | @tail v v' htr hm ih =>
      obtain ⟨i, r, e, hm⟩ := hm
      have hI := hD.inv (World.initial_tidy db) (inv_initial hdb) htr
      have hview := hI.view_total i x
      have hpast := D.flows_congr x (committed v.log) (hD.stands hdb htr) fun k _ =>
        hI.view_rel i k
      have hcommit : Store.total (D.measure x) (v.view i) = Store.total (D.measure x) db +
          D.flows x (v.tx i ++ committed v.log) (v.view i) := by
        rw [flows_append]
        omega
      cases hm.act with
      | query q => exact ih
      | hit u hguard hfree => exact ih
      | miss u hguard => exact ih
      | call c a => exact ih
      | commit => exact hcommit
      | rollback => exact ih
      | done => exact hcommit
      | throw err => exact ih

/-- A sum that no transaction as a whole moves is constant. Why none does may
rest on a further invariant `J` of the processes, which may rest on the sum. -/
theorem Kept.conserved (hD : D.Kept P allow) {x : D.Index} {db : Store S.Key S.Row}
    {J : World S R → Prop} (hJ : J (World.initial db))
    (hmove : ∀ w i r e w', w.Tidy → D.Inv w →
      Store.total (D.measure x) w.db = Store.total (D.measure x) db → J w →
      w.Move P allow i r e w' → J w')
    (hlevel : ∀ w i r e, w.Tidy → D.Inv w → J w → P r (w.own i) e →
      e = .committed (w.tx i) ∨ e = .returned (w.tx i) → D.flows x (w.tx i) (w.view i) = 0)
    (hdb : D.Good db) (h : World.Trace P allow (World.initial db) w) :
    Store.total (D.measure x) w.db = Store.total (D.measure x) db := by
  have hall : D.Inv w ∧ J w ∧ Store.total (D.measure x) w.db = Store.total (D.measure x) db := by
    refine h.induct (I := fun v => D.Inv v ∧ J v ∧ Store.total (D.measure x) v.db =
      Store.total (D.measure x) db) (World.initial_tidy db) ⟨inv_initial hdb, hJ, rfl⟩ ?_
    rintro v i r e v' ht ⟨hI, hJv, htotal⟩ hm
    refine ⟨hD.move ht hI hm, hmove v i r e v' ht hI htotal hJv hm, ?_⟩
    cases hm.act with
    | query q => exact htotal
    | hit u hguard hfree => exact htotal
    | miss u hguard => exact htotal
    | call c a => exact htotal
    | commit =>
        rw [World.commit_db, hI.view_total i x,
          hlevel v i r _ ht hI hJv hm.lawful (.inl rfl), htotal, add_zero]
    | rollback => exact htotal
    | done =>
        rw [World.commit_db, hI.view_total i x,
          hlevel v i r _ ht hI hJv hm.lawful (.inr rfl), htotal, add_zero]
    | throw err => exact htotal
  exact hall.2.2

end Discipline

end ReadCommitted
