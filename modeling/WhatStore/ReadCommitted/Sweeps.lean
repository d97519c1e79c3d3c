import WhatStore.ReadCommitted.Histories

/-!
# Sweeps

A process sweeps a class of rows: it lists those that are not retired yet and
retires each of them. Its list can miss a row in two ways. The row may be in a
transaction that is still open, or it may be inserted after the list was taken.
In a run in which neither happens every row of the class is retired at the end of
the sweep, in whatever view it is found.
-/

namespace ReadCommitted

variable {S : Schema} {R : Type}

/-- The event takes back what its process has written. -/
def Event.GivesUp : Event S → Prop
  | .rolledBack => True
  | .threw _ => True
  | _ => False

theorem exists_insert_of_replay {tx : List S.Update} {s : Store S.Key S.Row} {k : S.Key}
    {y : S.Row k} (hrow : (replay tx s).row k = some y) (hnone : s.row k = none) :
    ∃ u ∈ tx, S.key u = k ∧ ∃ z, S.change u none = some z := by
  induction tx generalizing y with
  | nil => cases hnone.symm.trans hrow
  | cons u tx ih =>
      by_cases hk : k = S.key u
      · subst hk
        cases hprev : (replay tx s).row (S.key u) with
        | none =>
            rw [replay_cons, applyUpdate_row_self, hprev] at hrow
            exact ⟨u, List.mem_cons_self, rfl, y, hrow⟩
        | some z =>
            obtain ⟨u', hu', hfound⟩ := ih hprev
            exact ⟨u', List.mem_cons_of_mem _ hu', hfound⟩
      · rw [replay_cons, applyUpdate_row_of_ne u _ hk] at hrow
        obtain ⟨u', hu', hfound⟩ := ih hrow
        exact ⟨u', List.mem_cons_of_mem _ hu', hfound⟩

namespace World

variable {P : Protocol S R} {allow : World S R → ℕ → R → Event S → Prop}
  {w w' : World S R} {i j b : ℕ} {r : R} {e : Event S}

/-- Along a trace a class of rows gets no member whose key is not in `E`, when no
update puts one there. -/
theorem Trace.members {C : (k : S.Key) → S.Row k → Prop} {E : S.Key → Prop} (htidy : w.Tidy)
    (hdb : ∀ k y, w.db.row k = some y → C k y → E k)
    (hview : ∀ j k y, (w.view j).row k = some y → C k y → E k)
    (hwrite : ∀ v i r u v', Trace P allow w v → v.Move P allow i r (.update u true) v' →
      Trace P allow v' w' → ∀ y, S.change u ((v.view i).row (S.key u)) = some y → C (S.key u) y →
        E (S.key u) ∨ ∃ z, (v.view i).row (S.key u) = some z ∧ C (S.key u) z)
    (h : Trace P allow w w') (j : ℕ) (k : S.Key) (y : S.Row k)
    (hrow : (w'.view j).row k = some y) (hC : C k y) : E k := by
  suffices hall : w'.AllRows fun _ k _ v => ∀ y, v = some y → C k y → E k from
    hall.view j k y hrow hC
  clear hrow hC
  induction h with
  | refl => exact ⟨fun k y => hdb k y, fun j k y => hview j k y⟩
  | @tail v v' htr hm ih =>
      obtain ⟨i, r, e, hm⟩ := hm
      have hrows := ih fun u i r x u' hu hmove hrest => hwrite u i r x u' hu hmove
        (hrest.tail ⟨_, _, _, hm⟩)
      refine hrows.act (fun _ _ _ _ _ hI => hI) (Trace.tidy htidy htr) hm.act ?_
      rintro u rfl hguard us hI y hy hC
      rcases hwrite v i r u v' htr hm .refl y hy hC with hE | ⟨z, hz, hCz⟩
      · exact hE
      · exact hI z hz hCz

end World

namespace Discipline

variable {D : Discipline S} {P : Protocol S R} {allow : World S R → ℕ → R → Event S → Prop}
  {w w' : World S R} {i j b : ℕ} {r : R} {e : Event S} {db : Store S.Key S.Row}

/-- A row that only a transaction has was inserted by it, and stands as the update
left it. -/
theorem Inv.exists_insert (hw : D.Inv w) {k : S.Key} {y : S.Row k}
    (hrow : (w.view j).row k = some y) (hnone : w.db.row k = none) :
    ∃ u ∈ w.tx j, S.key u = k ∧ (∃ z, S.change u none = some z) ∧ D.Stands u (w.view j) := by
  obtain ⟨u, hu, hk, hinsert⟩ := exists_insert_of_replay hrow hnone
  exact ⟨u, hu, hk, hinsert, hw.stands j u hu⟩

theorem Kept.rel_view_of_move (hD : D.Kept P allow) (htidy : w.Tidy) (hw : D.Inv w)
    (hm : w.Move P allow i r e w') (hkeeps : i = j → ¬ e.GivesUp) (k : S.Key) :
    D.rel k ((w.view j).row k) ((w'.view j).row k) := by
  have hcommit : ∀ e, D.rel k ((w.view j).row k) (((w.commit i r e).view j).row k) := by
    intro e
    by_cases hj : j = i
    · subst hj
      rw [World.commit_view_self]
      exact D.rel_refl k _
    · rcases World.commit_view_row htidy.exclusive r e hj k with heq | ⟨-, hdb, heq⟩
      · rw [heq]
        exact D.rel_refl k _
      · rw [heq, hdb]
        exact hw.view_rel i k
  have habort : ∀ e, (e : Event S).GivesUp → (i = j → ¬ e.GivesUp) →
      D.rel k ((w.view j).row k) (((w.abort i r e).view j).row k) := by
    intro e hgives hkeeps
    have hj : j ≠ i := fun heq => hkeeps heq.symm hgives
    rw [World.abort_view_of_ne w r e hj]
    exact D.rel_refl k _
  cases hact : hm.act with
  | query q => exact D.rel_refl k _
  | miss u hguard => exact D.rel_refl k _
  | call c a => exact D.rel_refl k _
  | hit u hguard hfree =>
      by_cases hj : j = i
      · subst hj
        rw [World.push_view_self]
        exact (hD w j r u htidy hw hm.lawful hm.allowed hguard).rel_row k
      · rw [World.push_view_of_ne w r u hj]
        exact D.rel_refl k _
  | commit => exact hcommit _
  | done => exact hcommit _
  | rollback => exact habort _ trivial hkeeps
  | throw err => exact habort _ trivial hkeeps

theorem Kept.rel_view (hD : D.Kept P allow) (htidy : w.Tidy) (hw : D.Inv w)
    (h : World.Trace P allow w w') (hkeeps : ∀ e ∈ w'.own j, ¬ e.GivesUp) (k : S.Key) :
    D.rel k ((w.view j).row k) ((w'.view j).row k) := by
  induction h with
  | refl => exact D.rel_refl k _
  | @tail v v' htr hm ih =>
      obtain ⟨i, r, e, hm⟩ := hm
      have hkeeps' : ∀ e ∈ v.own j, ¬ e.GivesUp := by
        intro e he
        refine hkeeps e ?_
        by_cases hj : j = i
        · subst hj
          rw [hm.act.own_self]
          exact List.mem_cons_of_mem _ he
        · rwa [hm.act.own_of_ne hj]
      refine D.rel_trans k _ _ _ (ih hkeeps') ?_
      refine hD.rel_view_of_move (World.Trace.tidy htidy htr) (hD.inv htidy hw htr) hm ?_ k
      rintro rfl
      exact hkeeps e (by rw [hm.act.own_self]; exact List.mem_cons_self)

/-- What holds of the view of a process after one of its events, and is kept along
`rel`, holds of its view as long as it gives nothing up. -/
theorem Kept.view_since (hD : D.Kept P allow) (hdb : D.Good db)
    (h : World.Trace P allow (World.initial db) w) (hkeeps : ∀ e ∈ w.own j, ¬ e.GivesUp)
    {T : Store S.Key S.Row → Prop}
    (hT : ∀ s s', (∀ k, D.rel k (s.row k) (s'.row k)) → T s → T s')
    {later earlier : List (Event S)} (hown : w.own j = later ++ e :: earlier)
    (hfact : ∀ v r v', World.Trace P allow (World.initial db) v → v.Move P allow j r e v' →
      v.own j = earlier → T (v'.view j)) : T (w.view j) := by
  obtain ⟨v, r, v', htr, hm, hearlier, hrest⟩ := h.exists_own_move j later e earlier hown
  have htr' : World.Trace P allow (World.initial db) v' := htr.tail ⟨j, r, e, hm⟩
  have htidy := World.Trace.tidy (World.initial_tidy db) htr'
  have hinv := hD.inv (World.initial_tidy db) (inv_initial hdb) htr'
  exact hT _ _ (hD.rel_view htidy hinv hrest hkeeps) (hfact v r v' htr hm hearlier)

/-- The rule of exclusive writes: when a write needs a row that is not retired, and
retires it, no two processes that keep what they write make it to one row. -/
theorem Kept.exclusive (hD : D.Kept P allow) (hdb : D.Good db)
    (h : World.Trace P allow (World.initial db) w) {k : S.Key} {T : Option (S.Row k) → Prop}
    (hT : ∀ v v', D.rel k v v' → T v → T v') {A : S.Update → Prop} (hkey : ∀ u, A u → S.key u = k)
    (hfresh : ∀ v i r u v', World.Trace P allow (World.initial db) v →
      v.Move P allow i r (.update u true) v' → A u → ¬ T ((v.view i).row k))
    (hretires : ∀ v i r u v', World.Trace P allow (World.initial db) v →
      v.Move P allow i r (.update u true) v' → A u → T ((v'.view i).row k))
    {ri rj : R} {ui uj : S.Update} (hi : ⟨i, ri, .update ui true⟩ ∈ w.log) (hui : A ui)
    (hj : ⟨j, rj, .update uj true⟩ ∈ w.log) (huj : A uj)
    (hkeepsi : ∀ e ∈ w.own i, ¬ e.GivesUp) (hkeepsj : ∀ e ∈ w.own j, ¬ e.GivesUp) : i = j := by
  by_contra hne
  have hclash : ∀ {i j : ℕ} {ri rj : R} {ui uj : S.Update} {v v' : World S R}, i ≠ j →
      World.Trace P allow (World.initial db) v → v.Move P allow i ri (.update ui true) v' → A ui →
        ⟨j, rj, .update uj true⟩ ∈ v.log → A uj → World.Trace P allow v' w →
          (∀ e ∈ w.own j, ¬ e.GivesUp) → False := by
    intro i j ri rj ui uj v v' hne hv hm hui hj huj hrest hkeeps
    have hsuffix : v.own j <:+ w.own j := by
      have hstep := hm.act.own_of_ne hne.symm
      rw [← hstep]
      exact hrest.own_suffix j
    have hmem : .update uj true ∈ v.own j := World.mem_own.2 ⟨rj, hj⟩
    obtain ⟨later, earlier, hown⟩ := List.append_of_mem hmem
    have hretired : T ((v.view j).row k) :=
      hD.view_since hdb hv (fun e he => hkeeps e (hsuffix.subset he))
        (T := fun s => T (s.row k)) (fun s s' hrel => hT _ _ (hrel k)) hown
        fun u r u' hu hmove _ => hretires u j r uj u' hu hmove huj
    have hinv := hD.inv (World.initial_tidy db) (inv_initial hdb) hv
    refine hfresh v i ri ui v' hv hm hui (hT _ _ (hinv.view_rel i k) ?_)
    cases hm.act with
    | hit u hguard hfree =>
        have hlock : k ∉ locks (v.tx j) := hkey ui hui ▸ hfree j hne.symm
        rwa [World.view, replay_row_of_notMem _ hlock] at hretired
  have hentries : (⟨i, ri, .update ui true⟩ : Entry S R) ≠ ⟨j, rj, .update uj true⟩ :=
    fun heq => hne (congrArg Entry.pid heq)
  rcases h.exists_later hi hj hentries with ⟨v, v', hv, hm, hmem, hrest⟩ | ⟨v, v', hv, hm, hmem, hrest⟩
  · exact hclash hne hv hm hui hmem huj hrest hkeepsj
  · exact hclash (Ne.symm hne) hv hm huj hmem hui hrest hkeepsi

/-! ## Sweeps -/

variable (D) in
/-- A class of rows, and those of them that are retired. A row leaves the class
never, and once retired it stays so. -/
structure Sweep where
  member : (k : S.Key) → S.Row k → Prop
  retired : (k : S.Key) → S.Row k → Prop
  stays : ∀ k x v, member k x → D.rel k (some x) v → ∃ y, v = some y ∧ member k y
  was : ∀ k x y, D.rel k (some x) (some y) → member k y → member k x
  keeps : ∀ k x y, D.rel k (some x) (some y) → retired k x → retired k y

namespace Sweep

variable (X : D.Sweep)

/-- The row of `k` is in the class. -/
def Has (k : S.Key) (s : Store S.Key S.Row) : Prop := ∃ x, s.row k = some x ∧ X.member k x

/-- The row of `k` is in the class and retired. -/
def Done (k : S.Key) (s : Store S.Key S.Row) : Prop :=
  ∃ x, s.row k = some x ∧ X.member k x ∧ X.retired k x

/-- The answer lists exactly the rows of the class that are not retired. -/
structure Lists (q : S.Query) (a : S.Result q) (keys : List S.Key) : Prop where
  all : ∀ s, S.eval q s = a → ∀ k x, s.row k = some x → X.member k x → X.retired k x ∨ k ∈ keys
  only : ∀ s, S.eval q s = a → ∀ k ∈ keys, X.Has k s

/-- The update retires the rows of the class, and misses only retired ones. -/
structure Retires (u : S.Update) : Prop where
  hit : ∀ v x, S.change u v = some x → X.retired (S.key u) x
  miss : ∀ x, S.guard u (some x) = false → X.retired (S.key u) x

/-- After the list was taken, each row on it was retired or found so. -/
def Swept (q : S.Query) (a : S.Result q) (keys : List S.Key) (h : List (Event S)) : Prop :=
  ∀ k ∈ keys, ∃ u hit late early, h = late ++ .update u hit :: early ∧ S.key u = k ∧
    .query q a ∈ early ∧ X.Retires u

variable {X} {k : S.Key}

theorem Has.moved {s s' : Store S.Key S.Row} (h : X.Has k s)
    (hrel : D.rel k (s.row k) (s'.row k)) : X.Has k s' := by
  obtain ⟨x, hx, hmember⟩ := h
  rw [hx] at hrel
  exact X.stays k x _ hmember hrel

theorem Done.moved {s s' : Store S.Key S.Row} (h : X.Done k s)
    (hrel : D.rel k (s.row k) (s'.row k)) : X.Done k s' := by
  obtain ⟨x, hx, hmember, hretired⟩ := h
  rw [hx] at hrel
  obtain ⟨y, hy, hmember'⟩ := X.stays k x _ hmember hrel
  exact ⟨y, hy, hmember', X.keeps k x y (hy ▸ hrel) hretired⟩

theorem exists_insert (hw : D.Inv w) (hhas : X.Has k (w.view j)) (hnot : ¬ X.Has k (w.view b)) :
    ∃ u ∈ w.tx j, S.key u = k ∧ (∃ z, S.change u none = some z) ∧ D.Stands u (w.view j) := by
  obtain ⟨y, hy, hmember⟩ := hhas
  refine hw.exists_insert hy (Option.eq_none_iff_forall_ne_some.2 fun x hx => hnot ?_)
  have hrel := hw.view_rel j k
  rw [hx, hy] at hrel
  exact Has.moved ⟨x, hx, X.was k x y hrel hmember⟩ (hw.view_rel b k)

theorem done_of_listed (hD : D.Kept P allow) (hdb : D.Good db)
    (h : World.Trace P allow (World.initial db) w) (hkeeps : ∀ e ∈ w.own b, ¬ e.GivesUp)
    {q : S.Query} {a : S.Result q} {keys : List S.Key} (hlists : X.Lists q a keys)
    (hswept : X.Swept q a keys (w.own b)) (hk : k ∈ keys) : X.Done k (w.view b) := by
  obtain ⟨u, hit, late, early, hown, rfl, hquery, hretires⟩ := hswept k hk
  have hmoved : ∀ s s', (∀ k, D.rel k (s.row k) (s'.row k)) → X.Done (S.key u) s →
      X.Done (S.key u) s' := fun s s' hrel hdone => hdone.moved (hrel _)
  refine hD.view_since hdb h hkeeps hmoved hown fun v r v' htr hm hearly => ?_
  have hsuffix : ∀ e ∈ v.own b, ¬ e.GivesUp := by
    intro e he
    refine hkeeps e ?_
    rw [hown, ← hearly]
    exact List.mem_append_right _ (List.mem_cons_of_mem _ he)
  obtain ⟨later, earlier, hsplit⟩ := List.append_of_mem hquery
  have hhas : X.Has (S.key u) (v.view b) := by
    refine hD.view_since hdb htr hsuffix (fun s s' hrel hhas => hhas.moved (hrel _))
      (hearly.trans hsplit) fun v r v' _ hm _ => ?_
    have heval := hm.act.query_eq
    cases hm.act
    exact hlists.only _ heval _ hk
  have htidy := World.Trace.tidy (World.initial_tidy db) htr
  have hinv := hD.inv (World.initial_tidy db) (inv_initial hdb) htr
  have hrel := hD.rel_view_of_move (j := b) htidy hinv hm (fun _ => id) (S.key u)
  obtain ⟨x, hx, hmember⟩ := hhas.moved hrel
  refine ⟨x, hx, hmember, ?_⟩
  cases hm.act with
  | hit u hguard hfree =>
      rw [World.push_view_self, applyUpdate_row_self] at hx
      exact hretires.hit _ x hx
  | miss u hguard =>
      rw [World.note_view] at hx
      rw [hx] at hguard
      exact hretires.miss x hguard

/-- The rule of sweeps: when no other transaction had a row of the class that the
sweeper did not see, and none has been inserted since, every row of the class is
retired in the view of the sweeper. -/
theorem done (hD : D.Kept P allow) (hdb : D.Good db)
    (h : World.Trace P allow (World.initial db) w) (hkeeps : ∀ e ∈ w.own b, ¬ e.GivesUp)
    {q : S.Query} {a : S.Result q} {keys : List S.Key} (hlists : X.Lists q a keys)
    (hswept : X.Swept q a keys (w.own b)) (hquery : .query q a ∈ w.own b)
    (halone : ∀ v r v', World.Trace P allow (World.initial db) v →
      v.Move P allow b r (.query q a) v' → World.Trace P allow v' w → ∀ j, j ≠ b → ∀ k,
        X.Has k (v.view j) → X.Has k (v.view b))
    (hcloses : ∀ v i r u v', World.Trace P allow (World.initial db) v →
      v.Move P allow i r (.update u true) v' → World.Trace P allow v' w → .query q a ∈ v.own b →
        ∀ y, S.change u ((v.view i).row (S.key u)) = some y → X.member (S.key u) y →
          ∃ z, (v.view i).row (S.key u) = some z) :
    ∀ j k, X.Has k (w.view j) → X.Done k (w.view b) := by
  rintro j k ⟨y, hy, hmember⟩
  obtain ⟨later, earlier, hown⟩ := List.append_of_mem hquery
  obtain ⟨v, r, v', htr, hm, hearlier, hrest⟩ := h.exists_own_move b later _ earlier hown
  have htr' : World.Trace P allow (World.initial db) v' := htr.tail ⟨b, r, _, hm⟩
  have htidy := World.Trace.tidy (World.initial_tidy db) htr'
  have hinv := hD.inv (World.initial_tidy db) (inv_initial hdb) htr'
  have hlater : ∀ u, World.Trace P allow v' u → .query q a ∈ u.own b := by
    intro u hu
    refine (hu.own_suffix b).subset ?_
    rw [hm.act.own_self]
    exact List.mem_cons_self
  have hhas : X.Has k (v'.view b) := by
    refine hrest.members (C := X.member) (E := fun k => X.Has k (v'.view b)) htidy ?_ ?_ ?_
      j k y hy hmember
    · intro k y hrow hmember
      exact Has.moved ⟨y, hrow, hmember⟩ (hinv.view_rel b k)
    · intro j k y hrow hmember
      by_cases hj : j = b
      · subst hj
        exact ⟨y, hrow, hmember⟩
      · have hfound := halone v r v' htr hm hrest j hj k
        cases hm.act
        exact hfound ⟨y, hrow, hmember⟩
    · intro u i r' x u' hu hmove hafter y hchange hmember
      right
      have hutr := htr'.trans hu
      obtain ⟨z, hz⟩ := hcloses u i r' x u' hutr hmove hafter (hlater u hu) y hchange hmember
      refine ⟨z, hz, X.was _ z y ?_ hmember⟩
      cases hmove.act with
      | hit x hguard hfree =>
          have hrespects := hD u i r' x (World.Trace.tidy (World.initial_tidy db) hutr)
            (hD.inv (World.initial_tidy db) (inv_initial hdb) hutr) hmove.lawful hmove.allowed hguard
          have hrel := hrespects.rel
          rwa [hchange, hz] at hrel
  have hlisted : X.Done k (v'.view b) ∨ k ∈ keys := by
    obtain ⟨z, hz, hmemberz⟩ := hhas
    have heval := hm.act.query_eq
    have hall := hlists.all _ heval k z
    cases hm.act
    exact (hall hz hmemberz).imp (fun hretired => ⟨z, hz, hmemberz, hretired⟩) id
  rcases hlisted with hdone | hk
  · exact hdone.moved (hD.rel_view htidy hinv hrest hkeeps k)
  · exact done_of_listed hD hdb h hkeeps hlists hswept hk

/-- A row of the class that was committed before the sweeper began is retired in its
view, whatever else ran in the meantime. -/
theorem done_of_before (hD : D.Kept P allow) (hdb : D.Good db)
    (h : World.Trace P allow (World.initial db) w) (h' : World.Trace P allow w w')
    (hidle : w.own b = []) (hkeeps : ∀ e ∈ w'.own b, ¬ e.GivesUp)
    {q : S.Query} {a : S.Result q} {keys : List S.Key} (hlists : X.Lists q a keys)
    (hswept : X.Swept q a keys (w'.own b)) (hquery : .query q a ∈ w'.own b)
    (hhas : X.Has k w.db) : X.Done k (w'.view b) := by
  obtain ⟨r, hmem⟩ := World.mem_own.1 hquery
  have hnew : (⟨b, r, .query q a⟩ : Entry S R) ∉ w.log := by
    intro hold
    have hown := World.mem_own.2 ⟨r, hold⟩
    rw [hidle] at hown
    cases hown
  obtain ⟨v, v', hv, hm, hrest⟩ := h'.exists_move hmem hnew
  have hinv := hD.inv (World.initial_tidy db) (inv_initial hdb) (h.trans hv)
  have htr : World.Trace P allow (World.initial db) v' := (h.trans hv).tail ⟨_, _, _, hm⟩
  have hrel := hD.rel (World.Trace.tidy (World.initial_tidy db) h)
    (hD.inv (World.initial_tidy db) (inv_initial hdb) h) hv k
  obtain ⟨x, hx, hmember⟩ := (hhas.moved hrel).moved (hinv.view_rel b k)
  rcases hlists.all _ hm.act.query_eq k x hx hmember with hretired | hk
  · have hdone : X.Done k (v'.view b) := ⟨x, (hm.act.query_view b).symm ▸ hx, hmember, hretired⟩
    exact hdone.moved (hD.rel_view (World.Trace.tidy (World.initial_tidy db) htr)
      (hD.inv (World.initial_tidy db) (inv_initial hdb) htr) hrest hkeeps k)
  · exact done_of_listed hD hdb (h.trans h') hkeeps hlists hswept hk

end Sweep

end Discipline

end ReadCommitted
