import WhatStore.ReadCommitted.Histories

/-!
# Names that are drawn once

Random tokens and uuids are names: a call draws one, and the update right after
it gives the name to a row, together with whatever else it writes there; the
two are the `mark` of the row. Where no name is drawn twice, a name says which
row it was given to and what was written with it, in every view and at any
later time, and a name that no row bears any more is borne by none again.
-/

namespace ReadCommitted

variable {S : Schema} {R : Type} {M N : Type}

/-- The marks rows bear and updates give, the name in a mark, and the names calls
draw. A row has its mark from the update that wrote it or keeps it. -/
structure Naming (S : Schema) (M N : Type) where
  mark : (k : S.Key) → S.Row k → Option M
  gives : S.Update → Option M
  name : M → N
  draws : (c : S.Call) → S.Answer c → Option N
  change : ∀ u v x m, S.guard u v = true → S.change u v = some x → mark (S.key u) x = some m →
    gives u = some m ∨ ∃ y, v = some y ∧ mark (S.key u) y = some m

namespace Naming

variable (X : Naming S M N)

def drawn : Event S → Option N
  | .call c a => X.draws c a
  | _ => none

/-- The row of `k` bears the mark `m`. -/
def Bears (db : Store S.Key S.Row) (k : S.Key) (m : M) : Prop :=
  ∃ x, db.row k = some x ∧ X.mark k x = some m

/-- An update has given the mark `m` to the row of `k`. -/
def Gave (log : List (Entry S R)) (k : S.Key) (m : M) : Prop :=
  ∃ entry ∈ log, ∃ u, entry.event = .update u true ∧ S.key u = k ∧ X.gives u = some m

/-- The row of `k` had the mark `m` at the start or was given it since. -/
def Owns (db : Store S.Key S.Row) (log : List (Entry S R)) (k : S.Key) (m : M) : Prop :=
  X.Bears db k m ∨ X.Gave log k m

def Drawn (log : List (Entry S R)) (n : N) : Prop :=
  ∃ entry ∈ log, X.drawn entry.event = some n

/-- The event draws no name that was drawn before or borne at the start. -/
def Fresh (db : Store S.Key S.Row) (log : List (Entry S R)) (e : Event S) : Prop :=
  ∀ n, X.drawn e = some n → ¬ X.Drawn log n ∧ ∀ k m, X.Bears db k m → X.name m ≠ n

/-- In a run from `db` a name is given right after it was drawn, no name is drawn
twice, and names are unique at the start. -/
structure Kept (P : Protocol S R) (allow : World S R → ℕ → R → Event S → Prop)
    (db : Store S.Key S.Row) : Prop where
  draws : ∀ r h u m, P r h (.update u true) → X.gives u = some m →
    ∃ e ∈ h.head?, X.drawn e = some (X.name m)
  fresh : ∀ w i r e, allow w i r e → X.Fresh db w.log e
  unique : ∀ k k' m m', X.Bears db k m → X.Bears db k' m' → X.name m = X.name m' → k = k' ∧ m = m'

structure Named (db : Store S.Key S.Row) (w : World S R) : Prop where
  rows : w.AllRows fun log k _ v => ∀ x m, v = some x → X.mark k x = some m → X.Owns db log k m
  drawn : ∀ k m, X.Gave w.log k m → X.Drawn w.log (X.name m)
  unused : ∀ i e n, e ∈ (w.own i).head? → X.drawn e = some n →
    ∀ k m, X.Owns db w.log k m → X.name m ≠ n
  apart : ∀ i j e e' n, e ∈ (w.own i).head? → e' ∈ (w.own j).head? → X.drawn e = some n →
    X.drawn e' = some n → i = j
  unique : ∀ k k' m m', X.Owns db w.log k m → X.Owns db w.log k' m' → X.name m = X.name m' →
    k = k' ∧ m = m'

variable {X} {db : Store S.Key S.Row} {w w' : World S R} {i : ℕ} {r : R} {e : Event S}
  {P : Protocol S R} {allow : World S R → ℕ → R → Event S → Prop} {k : S.Key} {m : M}

theorem gave_cons {entry : Entry S R} {log : List (Entry S R)} :
    X.Gave (entry :: log) k m ↔
      (∃ u, entry.event = .update u true ∧ S.key u = k ∧ X.gives u = some m) ∨ X.Gave log k m := by
  simp [Gave]

theorem Owns.cons {log : List (Entry S R)} (h : X.Owns db log k m) (entry : Entry S R) :
    X.Owns db (entry :: log) k m :=
  h.imp id fun hgave => gave_cons.2 (.inr hgave)

theorem Owns.mono {log log' : List (Entry S R)} (h : X.Owns db log k m) (hlog : log <:+ log') :
    X.Owns db log' k m := by
  obtain ⟨es, rfl⟩ := hlog
  induction es with
  | nil => exact h
  | cons entry es ih => exact ih.cons entry

theorem Drawn.cons {log : List (Entry S R)} {n : N} (h : X.Drawn log n) (entry : Entry S R) :
    X.Drawn (entry :: log) n := by
  obtain ⟨entry', hmem, hn⟩ := h
  exact ⟨entry', List.mem_cons_of_mem _ hmem, hn⟩

theorem drawn_of_head {n : N} (he : e ∈ (w.own i).head?) (hn : X.drawn e = some n) :
    X.Drawn w.log n := by
  obtain ⟨r, hmem⟩ := World.mem_own.1 (List.mem_of_head? he)
  exact ⟨_, hmem, hn⟩

/-- What the next log owns: what the log owned, or the mark of the update that
was issued. -/
theorem owns_act (hact : w.Act i r e w') (h : X.Owns db w'.log k m) :
    X.Owns db w.log k m ∨ ∃ u, e = .update u true ∧ S.key u = k ∧ X.gives u = some m := by
  rw [hact.log_eq] at h
  rcases h with hbears | hgave
  · exact .inl (.inl hbears)
  · rcases gave_cons.1 hgave with hnew | hgave
    · exact .inr hnew
    · exact .inl (.inr hgave)

theorem named_initial (hX : X.Kept P allow db) : X.Named db (World.initial db : World S R) where
  rows := World.AllRows.initial fun _ x _ hx hm => .inl ⟨x, hx, hm⟩
  drawn _ _ h := by
    obtain ⟨entry, hmem, -⟩ := h
    cases hmem
  unused _ _ _ h := nomatch h
  apart _ _ _ _ _ h := nomatch h
  unique k k' m m' h h' := by
    have hbears : ∀ {k m}, X.Owns db ([] : List (Entry S R)) k m → X.Bears db k m := by
      rintro k m (hbears | ⟨entry, hmem, -⟩)
      · exact hbears
      · cases hmem
    exact hX.unique k k' m m' (hbears h) (hbears h')

/-- A new mark is one that its process has just drawn the name of. -/
theorem Kept.head_of_gives (hX : X.Kept P allow db) (hm : w.Move P allow i r e w') {u : S.Update}
    (he : e = .update u true) (hgives : X.gives u = some m) :
    ∃ e' ∈ (w.own i).head?, X.drawn e' = some (X.name m) := by
  subst he
  exact hX.draws r _ u m hm.lawful hgives

theorem Kept.named_move (hX : X.Kept P allow db) (htidy : w.Tidy) (hw : X.Named db w)
    (hm : w.Move P allow i r e w') : X.Named db w' where
  rows := by
    refine hw.rows.act (fun entry log k us v hI x m hx hmark => (hI x m hx hmark).cons entry)
      htidy hm.act ?_
    rintro u rfl hguard us hI x m hx hmark
    rw [hm.act.log_eq]
    rcases X.change u _ x m hguard hx hmark with hgives | ⟨y, hy, hmark⟩
    · exact .inr (gave_cons.2 (.inl ⟨u, rfl, rfl, hgives⟩))
    · exact (hI y m hy hmark).cons _
  drawn k m hgave := by
    rw [hm.act.log_eq] at hgave ⊢
    rcases gave_cons.1 hgave with ⟨u, he, -, hgives⟩ | hgave
    · obtain ⟨e', he', hn⟩ := hX.head_of_gives hm he hgives
      exact (drawn_of_head he' hn).cons _
    · exact (hw.drawn k m hgave).cons _
  unused j e' n he' hn k m howns := by
    have hnew := owns_act hm.act howns
    by_cases hj : j = i
    · -- the process draws a name: nothing owns it yet
      subst hj
      rw [hm.act.own_self] at he'
      cases Option.mem_some.1 he'
      obtain ⟨hfresh, hstart⟩ := hX.fresh w j r e hm.allowed n hn
      rcases hnew with (hbears | hgave) | ⟨u, rfl, -⟩
      · exact hstart k m hbears
      · exact fun heq => hfresh (heq ▸ hw.drawn k m hgave)
      · cases hn
    · rw [hm.act.own_of_ne hj] at he'
      rcases hnew with hold | ⟨u, he, -, hgives⟩
      · exact hw.unused j e' n he' hn k m hold
      · rintro rfl
        obtain ⟨e'', he'', hn'⟩ := hX.head_of_gives hm he hgives
        exact hj (hw.apart j i e' e'' _ he' he'' hn hn')
  apart a b ea eb n hea heb hna hnb := by
    by_cases ha : a = i
    · by_cases hb : b = i
      · exact ha.trans hb.symm
      · subst ha
        rw [hm.act.own_self] at hea
        cases Option.mem_some.1 hea
        rw [hm.act.own_of_ne hb] at heb
        exact absurd (drawn_of_head heb hnb) (hX.fresh w a r e hm.allowed n hna).1
    · rw [hm.act.own_of_ne ha] at hea
      by_cases hb : b = i
      · subst hb
        rw [hm.act.own_self] at heb
        cases Option.mem_some.1 heb
        exact absurd (drawn_of_head hea hna) (hX.fresh w b r e hm.allowed n hnb).1
      · rw [hm.act.own_of_ne hb] at heb
        exact hw.apart a b ea eb n hea heb hna hnb
  unique k k' m m' howns howns' heq := by
    have hnew : ∀ {k k' m m'}, X.Owns db w.log k m →
        (∃ u, e = .update u true ∧ S.key u = k' ∧ X.gives u = some m') → X.name m ≠ X.name m' := by
      rintro k k' m m' hold ⟨u, he, -, hgives⟩
      obtain ⟨e', he', hn⟩ := hX.head_of_gives hm he hgives
      exact hw.unused i e' _ he' hn k m hold
    rcases owns_act hm.act howns with hold | hgives
    · rcases owns_act hm.act howns' with hold' | hgives'
      · exact hw.unique k k' m m' hold hold' heq
      · exact absurd heq (hnew hold hgives')
    · rcases owns_act hm.act howns' with hold' | hgives'
      · exact absurd heq.symm (hnew hold' hgives)
      · obtain ⟨u, rfl, rfl, hu⟩ := hgives
        obtain ⟨u', he, rfl, hu'⟩ := hgives'
        cases he
        exact ⟨rfl, Option.some.inj (hu.symm.trans hu')⟩

theorem Kept.named (hX : X.Kept P allow db) (h : World.Trace P allow (World.initial db) w) :
    X.Named db w :=
  h.induct (World.initial_tidy db) (named_initial hX) fun _ _ _ _ _ ht hI hm =>
    hX.named_move ht hI hm

theorem Kept.saw (hX : X.Kept P allow db) (h : World.Trace P allow (World.initial db) w)
    {x : S.Row k} (hs : Saw k (some x) (w.own i)) (hm : X.mark k x = some m) :
    X.Owns db w.log k m := by
  induction h with
  | refl => exact (saw_nil k (some x) hs).elim
  | @tail v v' htr hmove ih =>
      obtain ⟨j, r, e, hmove⟩ := hmove
      have hlog : v.log <:+ v'.log := by
        rw [hmove.act.log_eq]
        exact List.suffix_cons _ _
      by_cases hi : i = j
      · subst hi
        rw [hmove.act.own_self] at hs
        rcases hs with ⟨hshow, -⟩ | hs
        · cases e with
          | query q y =>
              have hrow := hshow (v.view i) hmove.act.query_eq
              exact ((hX.named htr).rows.view i k x m hrow hm).mono hlog
          | _ => exact hshow.elim
        · exact (ih hs).mono hlog
      · rw [hmove.act.own_of_ne hi] at hs
        exact (ih hs).mono hlog

/-- No row of the world bears the name `n`. -/
def Faded (X : Naming S M N) (n : N) (w : World S R) : Prop :=
  w.AllRows fun _ k _ v => ∀ x m, v = some x → X.mark k x = some m → X.name m ≠ n

theorem Kept.faded_move (hX : X.Kept P allow db) (htidy : w.Tidy) (hnamed : X.Named db w)
    (howns : X.Owns db w.log k m) (hw : X.Faded (X.name m) w) (hm : w.Move P allow i r e w') :
    X.Faded (X.name m) w' := by
  refine hw.act (fun _ _ _ _ _ hI => hI) htidy hm.act ?_
  rintro u rfl hguard us hI x m' hx hmark
  rcases X.change u _ x m' hguard hx hmark with hgives | ⟨y, hy, hmark⟩
  · obtain ⟨e, he, hn⟩ := hX.head_of_gives hm rfl hgives
    exact (hnamed.unused i e _ he hn k m howns).symm
  · exact hI y m' hy hmark

/-- A name that no row bears any more is borne by none later. -/
theorem Kept.faded (hX : X.Kept P allow db) (h : World.Trace P allow (World.initial db) w)
    (howns : X.Owns db w.log k m) (hw : X.Faded (X.name m) w) (hlater : World.Trace P allow w w') :
    X.Faded (X.name m) w' := by
  have htidy := World.Trace.tidy (World.initial_tidy db) h
  have hall : X.Named db w' ∧ X.Owns db w'.log k m ∧ X.Faded (X.name m) w' := by
    refine hlater.induct (I := fun v => X.Named db v ∧ X.Owns db v.log k m ∧
      X.Faded (X.name m) v) htidy ⟨hX.named h, howns, hw⟩ ?_
    rintro v i r e v' ht ⟨hnamed, hv, hfaded⟩ hm
    refine ⟨hX.named_move ht hnamed hm, ?_, hX.faded_move ht hnamed hv hfaded hm⟩
    rw [hm.act.log_eq]
    exact hv.cons _
  exact hall.2.2

/-- The transaction that takes a name off the committed row takes it off every
view. -/
private theorem faded_commit (htidy : w.Tidy) (hnamed : X.Named db (w.commit i r e))
    (howns : X.Owns db (w.commit i r e).log k m) (hbears : X.Bears w.db k m)
    (hgone : ¬ ∃ m', X.Bears (w.view i) k m' ∧ X.name m' = X.name m) :
    X.Faded (X.name m) (w.commit i r e) := by
  have hkey : ∀ k' v, (∀ x m', v = some x → X.mark k' x = some m' →
      X.Owns db (w.commit i r e).log k' m') → (∀ heq : k' = k, heq ▸ v = (w.view i).row k) →
        ∀ x m', v = some x → X.mark k' x = some m' → X.name m' ≠ X.name m := by
    intro k' v hv hrow x m' hx hmark heq
    obtain ⟨rfl, -⟩ := hnamed.unique k' k m' m (hv x m' hx hmark) howns heq
    exact hgone ⟨m', ⟨x, (hrow rfl).symm.trans hx, hmark⟩, heq⟩
  constructor
  · intro k'
    refine hkey k' _ (hnamed.rows.db k') fun heq => ?_
    subst heq
    rfl
  · intro j k'
    refine hkey k' _ (hnamed.rows.view j k') fun heq => ?_
    subst heq
    by_cases hj : j = i
    · subst hj
      rw [World.commit_view_self]
    · rcases World.commit_view_row htidy.exclusive r e hj k' with hsame | ⟨-, -, hrow⟩
      · rw [hsame]
        by_cases hk : k' ∈ locks (w.tx j)
        · -- the committer has not touched the row, so it still bears the name
          have hview : (w.view i).row k' = w.db.row k' :=
            replay_row_of_notMem _ (htidy.exclusive j i hj k' hk)
          obtain ⟨x, hx, hmark⟩ := hbears
          exact absurd ⟨m, ⟨x, hview.trans hx, hmark⟩, rfl⟩ hgone
        · rw [← hsame]
          rw [World.view, World.commit_tx_of_ne w r e hj]
          exact replay_row_of_notMem _ hk
      · exact hrow

/-- When the committed row of `k` has another name than it had, no row bears the
old name any more. -/
theorem Kept.superseded (hX : X.Kept P allow db) (h : World.Trace P allow (World.initial db) w)
    (hlater : World.Trace P allow w w') (hbears : X.Bears w.db k m)
    (hgone : ¬ ∃ m', X.Bears w'.db k m' ∧ X.name m' = X.name m) : X.Faded (X.name m) w' := by
  have htidy := World.Trace.tidy (World.initial_tidy db) h
  have hnamed := hX.named h
  have howns : X.Owns db w.log k m := by
    obtain ⟨x, hx, hmark⟩ := hbears
    exact hnamed.rows.db k x m hx hmark
  have hall : X.Named db w' ∧ X.Owns db w'.log k m ∧
      ((∃ m', X.Bears w'.db k m' ∧ X.name m' = X.name m) ∨ X.Faded (X.name m) w') := by
    refine hlater.induct (I := fun v => X.Named db v ∧ X.Owns db v.log k m ∧
      ((∃ m', X.Bears v.db k m' ∧ X.name m' = X.name m) ∨ X.Faded (X.name m) v)) htidy
      ⟨hnamed, howns, .inl ⟨m, hbears, rfl⟩⟩ ?_
    rintro v i r e v' ht ⟨hv, hvowns, hcase⟩ hm
    have hv' := hX.named_move ht hv hm
    have hvowns' : X.Owns db v'.log k m := by
      rw [hm.act.log_eq]
      exact hvowns.cons _
    refine ⟨hv', hvowns', ?_⟩
    rcases hcase with ⟨m', hm', heq⟩ | hfaded
    · -- the row bears the name: only a commit changes that
      have hunique : m' = m := by
        obtain ⟨x, hx, hmark⟩ := hm'
        exact (hv.unique k k m' m (hv.rows.db k x m' hx hmark) hvowns heq).2
      subst hunique
      have hcommit : ∀ e', v' = v.commit i r e' →
          (∃ m'', X.Bears v'.db k m'' ∧ X.name m'' = X.name m') ∨ X.Faded (X.name m') v' := by
        rintro e' rfl
        by_cases hview : ∃ m'', X.Bears (v.view i) k m'' ∧ X.name m'' = X.name m'
        · exact .inl hview
        · exact .inr (faded_commit ht hv' hvowns' hm' hview)
      cases hm.act with
      | commit => exact hcommit _ rfl
      | done => exact hcommit _ rfl
      | query q => exact .inl ⟨m', hm', rfl⟩
      | hit u hguard hfree => exact .inl ⟨m', hm', rfl⟩
      | miss u hguard => exact .inl ⟨m', hm', rfl⟩
      | call c a => exact .inl ⟨m', hm', rfl⟩
      | rollback => exact .inl ⟨m', hm', rfl⟩
      | throw err => exact .inl ⟨m', hm', rfl⟩
    · exact .inr (hX.faded_move ht hv hvowns hfaded hm)
  exact hall.2.2.resolve_left hgone

end Naming

end ReadCommitted
