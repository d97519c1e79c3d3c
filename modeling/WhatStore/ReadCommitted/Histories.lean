import WhatStore.ReadCommitted.Discipline

/-!
# Histories of rows

The history of a row in a view are the committed updates of the row with those
of the view's own transaction on top. Locks keep it one sequence: what another
transaction commits goes below the updates of an open transaction only on rows
that transaction has not written.

So an invariant of a row with its history, which each update keeps on the row
it finds, holds of the committed rows with their committed histories. It may
also speak of the log, as long as it stays true when the log grows.
-/

namespace ReadCommitted

variable {S : Schema} {R : Type}

/-- The updates of the row `k`. -/
def rowLog (k : S.Key) (us : List S.Update) : List S.Update :=
  us.filter fun u => decide (S.key u = k)

@[simp] theorem rowLog_nil (k : S.Key) : rowLog k ([] : List S.Update) = [] := rfl

@[simp] theorem rowLog_append (k : S.Key) (us us' : List S.Update) :
    rowLog k (us ++ us') = rowLog k us ++ rowLog k us' := List.filter_append us us'

theorem rowLog_cons_self (u : S.Update) (us : List S.Update) :
    rowLog (S.key u) (u :: us) = u :: rowLog (S.key u) us := by
  simp [rowLog]

theorem rowLog_cons_of_ne {k : S.Key} {u : S.Update} (us : List S.Update) (h : k ≠ S.key u) :
    rowLog k (u :: us) = rowLog k us := by
  simp [rowLog, h.symm]

theorem rowLog_eq_nil {k : S.Key} {us : List S.Update} (h : k ∉ locks us) : rowLog k us = [] := by
  refine List.filter_eq_nil_iff.2 fun u hu hk => h ?_
  rw [← of_decide_eq_true hk]
  exact List.mem_map_of_mem hu

namespace World

variable {P : Protocol S R} {allow : World S R → ℕ → R → Event S → Prop}
  {w w' : World S R} {i : ℕ} {r : R} {e : Event S}
  {I : List (Entry S R) → (k : S.Key) → List S.Update → Option (S.Row k) → Prop}

/-- Every row, committed or in a view, satisfies `I` with its history. -/
structure AllRows (I : List (Entry S R) → (k : S.Key) → List S.Update → Option (S.Row k) → Prop)
    (w : World S R) : Prop where
  db : ∀ k, I w.log k (rowLog k (committed w.log)) (w.db.row k)
  view : ∀ i k, I w.log k (rowLog k (w.tx i ++ committed w.log)) ((w.view i).row k)

theorem AllRows.initial {db : Store S.Key S.Row} (h : ∀ k, I [] k [] (db.row k)) :
    (World.initial db : World S R).AllRows I :=
  ⟨h, fun _ => h⟩

private theorem AllRows.note
    (hI : ∀ entry log k us v, I log k us v → I (entry :: log) k us v) (hw : w.AllRows I)
    (hsilent : committed (⟨i, r, e⟩ :: w.log) = committed w.log) : (w.note i r e).AllRows I := by
  constructor
  · intro k
    rw [World.note_db, World.note, hsilent]
    exact hI _ _ _ _ _ (hw.db k)
  · intro j k
    rw [World.note_view, World.note_tx, World.note, hsilent]
    exact hI _ _ _ _ _ (hw.view j k)

/-- A commit puts the transaction's updates below those of the open ones. -/
private theorem AllRows.commit
    (hI : ∀ entry log k us v, I log k us v → I (entry :: log) k us v) (htidy : w.Tidy)
    (hw : w.AllRows I)
    (hend : committed (⟨i, r, e⟩ :: w.log) = w.tx i ++ committed w.log) :
    (w.commit i r e).AllRows I := by
  constructor
  · intro k
    rw [commit_db, World.commit, hend]
    exact hI _ _ _ _ _ (hw.view i k)
  · intro j k
    have hlog : (w.commit i r e).log = ⟨i, r, e⟩ :: w.log := rfl
    rw [hlog, hend]
    by_cases hj : j = i
    · subst hj
      rw [commit_view_self, commit_tx_self, List.nil_append]
      exact hI _ _ _ _ _ (hw.view j k)
    · rw [commit_tx_of_ne w r e hj]
      by_cases hk : k ∈ locks (w.tx j)
      · rw [commit_view_locked htidy.exclusive r e hj hk, rowLog_append, rowLog_append,
          rowLog_eq_nil (htidy.exclusive j i hj k hk), List.nil_append, ← rowLog_append]
        exact hI _ _ _ _ _ (hw.view j k)
      · have hview : ((w.commit i r e).view j).row k = (w.view i).row k := by
          rw [World.view, commit_tx_of_ne w r e hj]
          exact replay_row_of_notMem _ hk
        rw [hview, rowLog_append, rowLog_eq_nil hk, List.nil_append]
        exact hI _ _ _ _ _ (hw.view i k)

private theorem AllRows.abort
    (hI : ∀ entry log k us v, I log k us v → I (entry :: log) k us v) (hw : w.AllRows I)
    (hend : committed (⟨i, r, e⟩ :: w.log) = committed w.log) : (w.abort i r e).AllRows I := by
  have hlog : (w.abort i r e).log = ⟨i, r, e⟩ :: w.log := rfl
  constructor
  · intro k
    rw [abort_db, hlog, hend]
    exact hI _ _ _ _ _ (hw.db k)
  · intro j k
    rw [hlog, hend]
    by_cases hj : j = i
    · subst hj
      rw [abort_view_self, abort_tx_self, List.nil_append]
      exact hI _ _ _ _ _ (hw.db k)
    · rw [abort_view_of_ne w r e hj, abort_tx_of_ne w r e hj]
      exact hI _ _ _ _ _ (hw.view j k)

/-- One event keeps an invariant of all rows that its update keeps on the row it
finds. -/
theorem AllRows.act (hI : ∀ entry log k us v, I log k us v → I (entry :: log) k us v)
    (htidy : w.Tidy) (hw : w.AllRows I) (hact : w.Act i r e w')
    (hnew : ∀ u, e = .update u true → S.guard u ((w.view i).row (S.key u)) = true → ∀ us,
      I w.log (S.key u) us ((w.view i).row (S.key u)) →
        I w'.log (S.key u) (u :: us) (S.change u ((w.view i).row (S.key u)))) :
    w'.AllRows I := by
  cases hact with
  | query q => exact hw.note hI rfl
  | miss u hguard => exact hw.note hI rfl
  | call c a => exact hw.note hI rfl
  | hit u hguard hfree =>
      have hlog : (w.push i r u).log = ⟨i, r, .update u true⟩ :: w.log := rfl
      have hcommitted : committed (w.push i r u).log = committed w.log := rfl
      constructor
      · intro k
        rw [hcommitted, push_db, hlog]
        exact hI _ _ _ _ _ (hw.db k)
      · intro j k
        rw [hcommitted]
        by_cases hj : j = i
        · subst hj
          rw [push_view_self, push_tx_self, List.cons_append]
          by_cases hk : k = S.key u
          · subst hk
            rw [applyUpdate_row_self, rowLog_cons_self]
            exact hnew u rfl hguard _ (hw.view j _)
          · rw [applyUpdate_row_of_ne u _ hk, rowLog_cons_of_ne _ hk, hlog]
            exact hI _ _ _ _ _ (hw.view j k)
        · rw [push_view_of_ne w r u hj, push_tx_of_ne w r u hj, hlog]
          exact hI _ _ _ _ _ (hw.view j k)
  | commit => exact hw.commit hI htidy rfl
  | rollback => exact hw.abort hI rfl
  | done => exact hw.commit hI htidy rfl
  | throw err => exact hw.abort hI rfl

/-- The rule of row histories: what holds of the first rows and is kept by every
update on the row it finds holds of the committed rows with their histories. -/
theorem Trace.rows {db : Store S.Key S.Row}
    {I : (k : S.Key) → List S.Update → Option (S.Row k) → Prop} (hstart : ∀ k, I k [] (db.row k))
    (hwrite : ∀ w i r u w', Trace P allow (World.initial db) w →
      w.Move P allow i r (.update u true) w' →
      S.guard u ((w.view i).row (S.key u)) = true → ∀ us, I (S.key u) us ((w.view i).row (S.key u)) →
        I (S.key u) (u :: us) (S.change u ((w.view i).row (S.key u))))
    (h : Trace P allow (World.initial db) w) (k : S.Key) :
    I k (rowLog k (committed w.log)) (w.db.row k) := by
  suffices hall : w.AllRows fun _ => I from hall.db k
  induction h with
  | refl => exact AllRows.initial hstart
  | tail htr hm ih =>
      obtain ⟨i, r, e, hm⟩ := hm
      refine ih.act (fun _ _ _ _ _ hI => hI) (Trace.tidy (initial_tidy db) htr) hm.act ?_
      rintro u rfl hguard us hI
      exact hwrite _ i r u _ htr hm hguard us hI

/-- The rule of open transactions: what relates a committed row to itself, and is
kept by every update on the row it finds, relates the committed rows to those of
a view, by the transaction's own updates of the row. -/
theorem Trace.views {db : Store S.Key S.Row}
    {K : (k : S.Key) → List S.Update → Option (S.Row k) → Option (S.Row k) → Prop}
    (hrefl : ∀ k v, K k [] v v)
    (hwrite : ∀ w i r u w', Trace P allow (World.initial db) w →
      w.Move P allow i r (.update u true) w' →
      S.guard u ((w.view i).row (S.key u)) = true → ∀ us v,
        K (S.key u) us v ((w.view i).row (S.key u)) →
          K (S.key u) (u :: us) v (S.change u ((w.view i).row (S.key u))))
    (h : Trace P allow (World.initial db) w) (i : ℕ) (k : S.Key) :
    K k (rowLog k (w.tx i)) (w.db.row k) ((w.view i).row k) := by
  induction h generalizing i k with
  | refl => exact hrefl k _
  | @tail v v' htr hm ih =>
      obtain ⟨j, r, e, hm⟩ := hm
      have htidy := Trace.tidy (initial_tidy db) htr
      have hcommit : ∀ e, K k (rowLog k ((v.commit j r e).tx i)) ((v.commit j r e).db.row k)
          (((v.commit j r e).view i).row k) := by
        intro e
        by_cases hi : i = j
        · subst hi
          rw [commit_tx_self, commit_db, commit_view_self]
          exact hrefl k _
        · by_cases hk : k ∈ locks (v.tx i)
          · rw [commit_tx_of_ne v r e hi, commit_row_of_mem htidy.exclusive r e hi hk,
              commit_view_locked htidy.exclusive r e hi hk]
            exact ih i k
          · have hview : ((v.commit j r e).view i).row k = (v.commit j r e).db.row k := by
              rw [World.view, commit_tx_of_ne v r e hi]
              exact replay_row_of_notMem _ hk
            rw [commit_tx_of_ne v r e hi, rowLog_eq_nil hk, hview]
            exact hrefl k _
      have habort : ∀ e, K k (rowLog k ((v.abort j r e).tx i)) ((v.abort j r e).db.row k)
          (((v.abort j r e).view i).row k) := by
        intro e
        by_cases hi : i = j
        · subst hi
          rw [abort_tx_self, abort_db, abort_view_self]
          exact hrefl k _
        · rw [abort_tx_of_ne v r e hi, abort_db, abort_view_of_ne v r e hi]
          exact ih i k
      cases hm.act with
      | query q => exact ih i k
      | miss u hguard => exact ih i k
      | call c a => exact ih i k
      | hit u hguard hfree =>
          by_cases hi : i = j
          · subst hi
            rw [push_tx_self, push_db, push_view_self]
            by_cases hk : k = S.key u
            · subst hk
              rw [applyUpdate_row_self, rowLog_cons_self]
              exact hwrite v i r u _ htr hm hguard _ _ (ih i _)
            · rw [applyUpdate_row_of_ne u _ hk, rowLog_cons_of_ne _ hk]
              exact ih i k
          · rw [push_tx_of_ne v r u hi, push_view_of_ne v r u hi]
            exact ih i k
      | commit => exact hcommit _
      | done => exact hcommit _
      | rollback => exact habort _
      | throw err => exact habort _

theorem Trace.exists_move (h : Trace P allow w w') {entry : Entry S R} (hmem : entry ∈ w'.log)
    (hnew : entry ∉ w.log) : ∃ v v', Trace P allow w v ∧
      v.Move P allow entry.pid entry.request entry.event v' ∧ Trace P allow v' w' := by
  induction h with
  | refl => exact absurd hmem hnew
  | @tail v v' htr hm ih =>
      obtain ⟨i, r, e, hm⟩ := hm
      rw [hm.act.log_eq] at hmem
      rcases List.mem_cons.1 hmem with rfl | hmem
      · exact ⟨v, v', htr, hm, .refl⟩
      · obtain ⟨u, u', htr', hm', hrest⟩ := ih hmem
        exact ⟨u, u', htr', hm', hrest.tail ⟨i, r, e, hm⟩⟩

/-- Each entry of the log was made in a move from the log before it. -/
theorem Trace.exists_move_at {db : Store S.Key S.Row} (h : Trace P allow (World.initial db) w) :
    ∀ later entry earlier, w.log = later ++ entry :: earlier →
      ∃ v v', Trace P allow (World.initial db) v ∧
        v.Move P allow entry.pid entry.request entry.event v' ∧ v.log = earlier ∧
          Trace P allow v' w := by
  induction h with
  | refl => exact fun later _ _ heq => absurd heq (by simp [World.initial])
  | @tail u u' htr hm ih =>
      obtain ⟨j, r, e, hm⟩ := hm
      intro later entry earlier heq
      rw [hm.act.log_eq] at heq
      cases later with
      | nil =>
          obtain ⟨rfl, rfl⟩ := List.cons.inj heq
          exact ⟨u, u', htr, hm, rfl, .refl⟩
      | cons entry' later =>
          obtain ⟨v, v', hv, hmove, hearlier, hrest⟩ := ih later entry earlier (List.cons.inj heq).2
          exact ⟨v, v', hv, hmove, hearlier, hrest.tail ⟨j, r, e, hm⟩⟩

theorem Trace.exists_later {db : Store S.Key S.Row} (h : Trace P allow (World.initial db) w)
    {a b : Entry S R} (ha : a ∈ w.log) (hb : b ∈ w.log) (hne : a ≠ b) :
    (∃ v v', Trace P allow (World.initial db) v ∧ v.Move P allow a.pid a.request a.event v' ∧
      b ∈ v.log ∧ Trace P allow v' w) ∨
    ∃ v v', Trace P allow (World.initial db) v ∧ v.Move P allow b.pid b.request b.event v' ∧
      a ∈ v.log ∧ Trace P allow v' w := by
  obtain ⟨later, earlier, heq⟩ := List.append_of_mem ha
  have hmem : b ∈ later ∨ b ∈ earlier := by
    rw [heq] at hb
    simpa [hne.symm] using hb
  rcases hmem with hlater | hearlier
  · obtain ⟨later', mid, rfl⟩ := List.append_of_mem hlater
    rw [List.append_assoc, List.cons_append] at heq
    obtain ⟨v, v', hv, hm, hlog, hrest⟩ := h.exists_move_at _ _ _ heq
    exact .inr ⟨v, v', hv, hm, by simp [hlog], hrest⟩
  · obtain ⟨v, v', hv, hm, hlog, hrest⟩ := h.exists_move_at _ _ _ heq
    exact .inl ⟨v, v', hv, hm, hlog ▸ hearlier, hrest⟩

theorem mem_own {w : World S R} {i : ℕ} {e : Event S} :
    e ∈ w.own i ↔ ∃ r, (⟨i, r, e⟩ : Entry S R) ∈ w.log := by
  rw [own, List.mem_map]
  constructor
  · rintro ⟨⟨j, r, e'⟩, hmem, rfl⟩
    obtain ⟨hlog, hpid⟩ := List.mem_filter.1 hmem
    exact ⟨r, by simpa [← beq_iff_eq.1 hpid] using hlog⟩
  · rintro ⟨r, hmem⟩
    exact ⟨_, List.mem_filter.2 ⟨hmem, beq_self_eq_true i⟩, rfl⟩

/-- Each event of a process happened in a move, after the history before it. -/
theorem Trace.exists_own_move {db : Store S.Key S.Row} (h : Trace P allow (World.initial db) w)
    (i : ℕ) : ∀ later e earlier, w.own i = later ++ e :: earlier →
      ∃ v r v', Trace P allow (World.initial db) v ∧ v.Move P allow i r e v' ∧ v.own i = earlier ∧
        Trace P allow v' w := by
  induction h with
  | refl => exact fun later _ _ heq => absurd heq (by simp [World.initial, own])
  | @tail u u' htr hm ih =>
      obtain ⟨j, r, e', hm⟩ := hm
      intro later e earlier heq
      have hrest : (∃ later', u.own i = later' ++ e :: earlier) →
          ∃ v r v', Trace P allow (World.initial db) v ∧ v.Move P allow i r e v' ∧
            v.own i = earlier ∧ Trace P allow v' u' := by
        rintro ⟨later', hown⟩
        obtain ⟨v, r', v', hv, hmove, hearlier, hlater⟩ := ih later' e earlier hown
        exact ⟨v, r', v', hv, hmove, hearlier, hlater.tail ⟨j, r, e', hm⟩⟩
      by_cases hi : i = j
      · subst hi
        rw [hm.act.own_self] at heq
        cases later with
        | nil =>
            obtain ⟨rfl, rfl⟩ := List.cons.inj heq
            exact ⟨u, r, u', htr, hm, rfl, .refl⟩
        | cons e'' later => exact hrest ⟨later, (List.cons.inj heq).2⟩
      · rw [hm.act.own_of_ne hi] at heq
        exact hrest ⟨later, heq⟩

theorem Trace.lawful_tx {db : Store S.Key S.Row} (h : Trace P allow (World.initial db) w)
    (hm : w.Move P allow i r e w') {u : S.Update} (hu : u ∈ w.tx i) :
    ∃ later earlier, w.own i = later ++ .update u true :: earlier ∧ openTx earlier <:+ w.tx i ∧
      P r earlier (.update u true) := by
  rw [(Trace.tidy (initial_tidy db) h).tx_eq i] at hu
  obtain ⟨later, earlier, heq, hsuffix⟩ := exists_of_mem_openTx hu
  obtain ⟨v, r', v', -, hmove, rfl, hlater⟩ := h.exists_own_move i later _ earlier heq
  have hmem : (⟨i, r', .update u true⟩ : Entry S R) ∈ w.log :=
    hlater.log_suffix.subset (by rw [hmove.act.log_eq]; exact List.mem_cons_self)
  have hr : r' = r := hm.request _ hmem rfl
  refine ⟨later, v.own i, heq, ?_, hr ▸ hmove.lawful⟩
  rw [(Trace.tidy (initial_tidy db) h).tx_eq i]
  exact hsuffix

theorem Trace.request_eq {db : Store S.Key S.Row} (h : Trace P allow (World.initial db) w) :
    ∀ a ∈ w.log, ∀ b ∈ w.log, a.pid = b.pid → a.request = b.request := by
  refine h.induct (I := fun w => ∀ a ∈ w.log, ∀ b ∈ w.log, a.pid = b.pid → a.request = b.request)
    (initial_tidy db) (fun a ha => absurd ha List.not_mem_nil) ?_
  intro w i r e w' _ hI hm a ha b hb hpid
  rw [hm.act.log_eq] at ha hb
  rcases List.mem_cons.1 ha with rfl | ha <;> rcases List.mem_cons.1 hb with rfl | hb
  · rfl
  · exact (hm.request b hb hpid.symm).symm
  · exact hm.request a ha hpid
  · exact hI a ha b hb hpid

theorem Trace.live_before {db : Store S.Key S.Row} (h : Trace P allow (World.initial db) w)
    {entry : Entry S R} {log : List (Entry S R)} (hlog : w.log = entry :: log) {v v' : World S R}
    {i : ℕ} {r : R} {e : Event S} (hact : v.Act i r e v') (hrest : Trace P allow v' w) :
    ∀ e ∈ v.own entry.pid, ¬ e.Final := by
  have hsuffix : v.log <:+ log := by
    have hall := hrest.log_suffix
    rw [hact.log_eq, hlog] at hall
    rcases List.suffix_cons_iff.1 hall with heq | hlater
    · rw [← (List.cons.inj heq).2]
    · exact (List.suffix_cons _ _).trans hlater
  have hfinal := h.not_final (initial_tidy db) (fun _ _ hmem => absurd hmem List.not_mem_nil)
    entry.pid
  intro e he
  refine hfinal e ?_
  rw [own, hlog, List.filter_cons, if_pos (beq_self_eq_true entry.pid), List.map_cons, List.tail_cons]
  exact ((hsuffix.filter _).map _).subset he

theorem Trace.own_suffix (h : Trace P allow w w') (i : ℕ) : w.own i <:+ w'.own i :=
  (h.log_suffix.filter _).map _

/-- The event that ends a process is the last of its history, and one the protocol
admits after the others. -/
theorem Trace.own_of_final {db : Store S.Key S.Row} (h : Trace P allow (World.initial db) w)
    {entry : Entry S R} (hmem : entry ∈ w.log) (hfinal : entry.event.Final) :
    ∃ earlier, w.own entry.pid = entry.event :: earlier ∧
      P entry.request earlier entry.event ∧ ∀ e ∈ earlier, ¬ e.Final := by
  obtain ⟨v, v', htr, hm, hrest⟩ := h.exists_move hmem List.not_mem_nil
  have hends := h.not_final (initial_tidy db) (fun _ _ hmem => absurd hmem List.not_mem_nil) entry.pid
  obtain ⟨later, hlater⟩ := hrest.own_suffix entry.pid
  rw [hm.act.own_self] at hlater
  rw [← hlater] at hends ⊢
  cases later with
  | nil => exact ⟨_, rfl, hm.lawful, hends⟩
  | cons e later => exact absurd hfinal (hends _ (by simp))

end World

end ReadCommitted
