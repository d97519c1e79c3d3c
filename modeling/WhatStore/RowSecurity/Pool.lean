import WhatStore.RowSecurity.Constraints
import WhatStore.RowSecurity.Settings

/-!
# Transactions on a pool of connections

A transaction is opened on an idle connection for a scope: it first sets the one
setting its scope stands for and then runs its statements. Statements outside of
transactions run on any idle connection. Each statement sees the rows that the
policies of their tables let through, and is refused when it writes a row that
they do not, or breaks a constraint, or may be when a cast fails. What the foreign
keys do after it is no statement of its own and asks no policy. Any number of
transactions are open at a time, and the connections are used again and again.
-/

namespace RowSecurity

/-- The database: its tables with their policies and constraints, what scopes set,
and casts. -/
structure Schema (N U T I R S : Type) where
  cast : String → Option U
  /-- A table without row security has no policy. -/
  policy : T → Option (Policy N (Rows T I R × R) U)
  constraints : Constraints T I R
  setting : S → N × String

/-- A statement: what it answers and writes, given the rows it sees of its tables. -/
structure Statement (T I R A : Type) where
  tables : List T
  run : Rows T I R → A × List (Change T I R)

/-- A statement that was answered: what it has written, and what the foreign keys have
then done. -/
structure Answer (T I R A : Type) where
  value : A
  changes : List (Change T I R)
  actions : List (Change T I R)

variable {N U T I R S C A : Type}

def Answer.allChanges (a : Answer T I R A) : List (Change T I R) := a.changes ++ a.actions

namespace Schema

variable [DecidableEq U] (Γ : Schema N U T I R S) (f : N → Option String)

def sees (rows : Rows T I R) (t : T) (row : R) : Bool :=
  (Γ.policy t).all fun p => p.sees.holds Γ.cast f (rows, row)

def writes (rows : Rows T I R) (t : T) (row : R) : Bool :=
  (Γ.policy t).all fun p => p.writes.holds Γ.cast f (rows, row)

/-- The rows that a statement on the tables `ts` sees. -/
def shown [DecidableEq T] (rows : Rows T I R) (ts : List T) : Rows T I R := fun t i =>
  if t ∈ ts then (rows t i).filter (Γ.sees f rows t) else none

/-- An update or a delete reaches rows that are seen; what it leaves may be written. -/
def Permits (rows : Rows T I R) (x : Change T I R) : Prop :=
  (∀ old, rows x.table x.id = some old → Γ.sees f rows x.table old = true) ∧
    ∀ new, x.row = some new → Γ.writes f rows x.table new = true

def Raises (ts : List T) : Prop :=
  ∃ t ∈ ts, ∃ p, Γ.policy t = some p ∧ (p.sees.Raises Γ.cast f ∨ p.writes.Raises Γ.cast f)

/-- What a statement does when nothing refuses it. -/
structure Does [DecidableEq T] [DecidableEq I] (rows : Rows T I R) (st : Statement T I R A)
    (a : Answer T I R A) : Prop where
  run : st.run (Γ.shown f rows st.tables) = (a.value, a.changes)
  acts : ∃ gone, Γ.constraints.Acts (applyAll rows a.changes) a.changes gone a.actions

/-- What a statement comes to: an answer, or a refusal by a policy, a constraint or a
cast. -/
inductive Outcome [DecidableEq T] [DecidableEq I] (rows : Rows T I R) (st : Statement T I R A) :
    Option (Answer T I R A) → Prop
  | answered (a : Answer T I R A) (ha : Γ.Does f rows st a)
      (hpermits : ∀ x ∈ a.changes, Γ.Permits f rows x)
      (hkept : ¬ Γ.constraints.Breaks (applyAll rows a.allChanges) a.allChanges) :
      Outcome rows st (some a)
  | refused (x : Change T I R) (hx : x ∈ (st.run (Γ.shown f rows st.tables)).2)
      (h : ¬ Γ.Permits f rows x) : Outcome rows st none
  | broken (a : Answer T I R A) (ha : Γ.Does f rows st a)
      (h : Γ.constraints.Breaks (applyAll rows a.allChanges) a.allChanges) : Outcome rows st none
  | raised (h : Γ.Raises f st.tables) : Outcome rows st none

end Schema

/-! ## The pool -/

/-- An open transaction: its scope, whether it has been set, whether a statement
was refused, and what has been written. -/
structure Transaction (T I R S : Type) where
  scope : S
  isScoped : Bool
  failed : Bool
  changes : List (Change T I R)

/-- A statement that was run: for which scope, on a connection that has served which
scopes, with which settings, on which rows, and what came of it. -/
structure Entry (N T I R S A : Type) where
  scope : Option S
  served : List S
  settings : N → Option String
  rows : Rows T I R
  statement : Statement T I R A
  outcome : Option (Answer T I R A)

/-- The connections, the transactions that are open on them, the committed rows and
the statements that were run, the last one first. `served` remembers for which
scopes each connection has had transactions. -/
structure Pool (N T I R S C A : Type) where
  connections : C → Connection N
  transactions : C → Option (Transaction T I R S)
  rows : Rows T I R
  log : List (Entry N T I R S A)
  served : C → List S

def Pool.initial (rows : Rows T I R) : Pool N T I R S C A where
  connections _ := .fresh
  transactions _ := none
  rows := rows
  log := []
  served _ := []

inductive Move (T I R S C A : Type) where
  | start (σ : S) (c : C)
  | set (c : C)
  | statement (c : C) (st : Statement T I R A)
  | commit (c : C)
  | rollback (c : C)
  /-- A statement outside of transactions. -/
  | raw (c : C) (st : Statement T I R A)

/-- The rows a transaction works on: the committed ones with its own changes. -/
def Transaction.view [DecidableEq T] [DecidableEq I] (tx : Transaction T I R S)
    (rows : Rows T I R) : Rows T I R :=
  applyAll rows tx.changes

def Transaction.after (tx : Transaction T I R S) :
    Option (Answer T I R A) → Transaction T I R S
  | some a => { tx with changes := tx.changes ++ a.allChanges }
  | none => { tx with failed := true }

@[simp] theorem Transaction.after_scope (tx : Transaction T I R S)
    (o : Option (Answer T I R A)) : (tx.after o).scope = tx.scope := by
  cases o <;> rfl

@[simp] theorem Transaction.after_isScoped (tx : Transaction T I R S)
    (o : Option (Answer T I R A)) : (tx.after o).isScoped = tx.isScoped := by
  cases o <;> rfl

def afterRaw [DecidableEq T] [DecidableEq I] (rows : Rows T I R) :
    Option (Answer T I R A) → Rows T I R
  | some a => applyAll rows a.allChanges
  | none => rows

/-! ## Scopes -/

def Pool.scopes (s : Pool N T I R S C A) (c : C) : Option S :=
  (s.transactions c).map Transaction.scope

def Move.scopes [DecidableEq C] (scopes : C → Option S) : Move T I R S C A → C → Option S
  | .start σ c => Function.update scopes c (some σ)
  | .commit c => Function.update scopes c none
  | .rollback c => Function.update scopes c none
  | _ => scopes

theorem Pool.scopes_update [DecidableEq C] {transactions : C → Option (Transaction T I R S)} (c : C)
    (tx : Option (Transaction T I R S)) :
    (fun d => (Function.update transactions c tx d).map Transaction.scope) =
      Function.update (fun d => (transactions d).map Transaction.scope) c
        (tx.map Transaction.scope) := by
  funext d
  by_cases hd : d = c
  · subst hd
    simp
  · simp [hd]

/-! ## What a connection reads -/

section Readings

variable [DecidableEq N] {Γ : Schema N U T I R S}

/-- The settings that a connection knows which has served these scopes. -/
def Schema.known (Γ : Schema N U T I R S) (served : List S) (n : N) : Bool :=
  served.any fun σ => (Γ.setting σ).1 == n

/-- What a connection reads for a scope, or outside of transactions. -/
def Schema.readings (Γ : Schema N U T I R S) (scope : Option S) (served : List S) :
    N → Option String :=
  reading (scope.map Γ.setting) (Γ.known served)

/-- A connection fits the transaction that is open on it, if there is one. -/
def Settled (Γ : Schema N U T I R S) (served : List S) (c : Connection N) :
    Option (Transaction T I R S) → Prop
  | none => c.transaction = none
  | some tx => if tx.isScoped then c.current = Γ.readings (some tx.scope) served else c = c.start

theorem known_cons (σ : S) (served : List S) :
    Γ.known (σ :: served) = fun n => Γ.known served n || n == (Γ.setting σ).1 := by
  funext n
  simp [Schema.known, Bool.or_comm, BEq.comm]

/-- Setting the scope of a transaction is all it takes. -/
theorem settled_set {served : List S} {c : Connection N} {tx : Transaction T I R S}
    (hknows : c.Knows (Γ.known served)) (hstart : c = c.start) :
    Settled Γ (tx.scope :: served) (c.setLocal (Γ.setting tx.scope).1 (Γ.setting tx.scope).2)
      (some { tx with isScoped := true }) := by
  show (c.setLocal _ _).current = reading (some (Γ.setting tx.scope)) _
  rw [known_cons, reading_known, hstart]
  exact hknows.current_setLocal _ _

/-- Every connection is settled, and every statement read the settings of its scope. -/
structure Inv [DecidableEq U] [DecidableEq T] [DecidableEq I] (Γ : Schema N U T I R S)
    (s : Pool N T I R S C A) : Prop where
  knows : ∀ c, (s.connections c).Knows (Γ.known (s.served c))
  settled : ∀ c, Settled Γ (s.served c) (s.connections c) (s.transactions c)
  log : ∀ e ∈ s.log, e.settings = Γ.readings e.scope e.served ∧
    Γ.Outcome e.settings e.rows e.statement e.outcome

theorem inv_initial [DecidableEq U] [DecidableEq T] [DecidableEq I] (Γ : Schema N U T I R S)
    (rows : Rows T I R) : Inv Γ (Pool.initial rows : Pool N T I R S C A) where
  knows _ _ := rfl
  settled _ := rfl
  log := by simp [Pool.initial]

end Readings

/-! ## Steps and runs -/

variable [DecidableEq N] [DecidableEq U] [DecidableEq T] [DecidableEq I] [DecidableEq C]

inductive Step (Γ : Schema N U T I R S) (s : Pool N T I R S C A) :
    Move T I R S C A → Pool N T I R S C A → Prop
  | start (σ : S) (c : C) (hidle : s.transactions c = none) :
      Step Γ s (.start σ c) { s with
        connections := Function.update s.connections c (s.connections c).start
        transactions := Function.update s.transactions c (some ⟨σ, false, false, []⟩) }
  | set (c : C) (tx : Transaction T I R S) (hopen : s.transactions c = some tx)
      (hscoped : tx.isScoped = false) :
      Step Γ s (.set c) { s with
        connections := Function.update s.connections c
          ((s.connections c).setLocal (Γ.setting tx.scope).1 (Γ.setting tx.scope).2)
        transactions := Function.update s.transactions c (some { tx with isScoped := true })
        served := Function.update s.served c (tx.scope :: s.served c) }
  | statement (c : C) (st : Statement T I R A) (tx : Transaction T I R S) (o)
      (hopen : s.transactions c = some tx) (hscoped : tx.isScoped = true) (hfailed : tx.failed = false)
      (ho : Γ.Outcome (s.connections c).current (tx.view s.rows) st o) :
      Step Γ s (.statement c st) { s with
        transactions := Function.update s.transactions c (some (tx.after o))
        log := ⟨some tx.scope, s.served c, (s.connections c).current, tx.view s.rows, st, o⟩ :: s.log }
  | commit (c : C) (tx : Transaction T I R S) (hopen : s.transactions c = some tx)
      (hfailed : tx.failed = false) :
      Step Γ s (.commit c) { s with
        connections := Function.update s.connections c (s.connections c).finish
        transactions := Function.update s.transactions c none
        rows := tx.view s.rows }
  | rollback (c : C) (tx : Transaction T I R S) (hopen : s.transactions c = some tx) :
      Step Γ s (.rollback c) { s with
        connections := Function.update s.connections c (s.connections c).finish
        transactions := Function.update s.transactions c none }
  | raw (c : C) (st : Statement T I R A) (o) (hidle : s.transactions c = none)
      (ho : Γ.Outcome (s.connections c).current s.rows st o) :
      Step Γ s (.raw c st) { s with
        rows := afterRaw s.rows o
        log := ⟨none, s.served c, (s.connections c).current, s.rows, st, o⟩ :: s.log }

inductive Runs (Γ : Schema N U T I R S) (s : Pool N T I R S C A) : Pool N T I R S C A → Prop
  | refl : Runs Γ s s
  | step {t u : Pool N T I R S C A} {m : Move T I R S C A} (h : Runs Γ s t)
      (hstep : Step Γ t m u) : Runs Γ s u

variable {Γ : Schema N U T I R S} {s t u : Pool N T I R S C A} {m : Move T I R S C A}

theorem Step.scopes_eq (h : Step Γ s m t) : t.scopes = m.scopes s.scopes := by
  have hsame : ∀ {c : C} {tx tx' : Transaction T I R S}, s.transactions c = some tx →
      tx'.scope = tx.scope →
        (fun d => (Function.update s.transactions c (some tx') d).map Transaction.scope) =
          s.scopes := by
    intro c tx tx' hopen hscope
    have hself : s.scopes c = some tx'.scope := by rw [Pool.scopes, hopen, hscope, Option.map_some]
    rw [Pool.scopes_update, Option.map_some, ← hself]
    exact Function.update_eq_self c s.scopes
  cases h with
  | start σ c hidle => exact Pool.scopes_update _ _
  | set c tx hopen hscoped => exact hsame hopen rfl
  | statement c st tx o hopen hscoped hfailed ho => exact hsame hopen (tx.after_scope o)
  | commit c tx hopen hfailed => exact Pool.scopes_update _ _
  | rollback c tx hopen => exact Pool.scopes_update _ _
  | raw c st o hidle ho => rfl

theorem Step.start_idle {σ : S} {c : C} (h : Step Γ s (.start σ c) t) : s.scopes c = none := by
  cases h with
  | start _ _ hidle => rw [Pool.scopes, hidle, Option.map_none]

theorem Step.statement_scope {c : C} {st : Statement T I R A} {e : Entry N T I R S A}
    (h : Step Γ s (.statement c st) t) (hlog : t.log = e :: s.log) : e.scope = s.scopes c := by
  cases h with
  | statement _ _ tx o hopen hscoped hfailed ho =>
      rw [← (List.cons.inj hlog).1, Pool.scopes, hopen, Option.map_some]

theorem Step.raw_scope {c : C} {st : Statement T I R A} {e : Entry N T I R S A}
    (h : Step Γ s (.raw c st) t) (hlog : t.log = e :: s.log) : e.scope = none := by
  cases h with
  | raw _ _ o hidle ho => rw [← (List.cons.inj hlog).1]

theorem Step.log_subset (h : Step Γ s m t) : s.log ⊆ t.log := by
  cases h with
  | statement => exact List.subset_cons_self _ _
  | raw => exact List.subset_cons_self _ _
  | _ => exact List.Subset.refl _

/-! ## Settings over a run -/

theorem Inv.update (h : Inv Γ s) (c : C) (conn : Connection N) (tx : Option (Transaction T I R S))
    {served : List S} (hknows : conn.Knows (Γ.known served)) (hsettled : Settled Γ served conn tx) :
    Inv Γ { s with
      connections := Function.update s.connections c conn
      transactions := Function.update s.transactions c tx
      served := Function.update s.served c served } where
  knows d := by
    by_cases hd : d = c
    · subst hd
      simpa using hknows
    · simpa [hd] using h.knows d
  settled d := by
    by_cases hd : d = c
    · subst hd
      simpa using hsettled
    · simpa [hd] using h.settled d
  log := h.log

theorem inv_step (h : Inv Γ s) (hstep : Step Γ s m t) : Inv Γ t := by
  cases hstep with
  | start σ c hidle =>
      have hinv := h.update c (s.connections c).start (some ⟨σ, false, false, []⟩)
        (h.knows c) (by simp [Settled, Connection.start])
      rwa [Function.update_eq_self] at hinv
  | set c tx hopen hscoped =>
      have hsettled := h.settled c
      rw [hopen] at hsettled
      have hstart : s.connections c = (s.connections c).start := by
        simpa [Settled, hscoped] using hsettled
      refine h.update c _ _ ?_ (settled_set (h.knows c) hstart)
      rw [known_cons]
      exact (h.knows c).setLocal _ _
  | statement c st tx o hopen hscoped hfailed ho =>
      have hreads : (s.connections c).current = Γ.readings (some tx.scope) (s.served c) := by
        simpa [hopen, Settled, hscoped] using h.settled c
      refine ⟨h.knows, fun d => ?_, fun e he => ?_⟩
      · by_cases hd : d = c
        · subst hd
          simpa [Settled, hscoped] using hreads
        · simpa [hd] using h.settled d
      · rcases List.mem_cons.1 he with rfl | he
        · exact ⟨hreads, ho⟩
        · exact h.log e he
  | commit c tx hopen hfailed =>
      have hinv := h.update c (s.connections c).finish none (h.knows c) rfl
      rw [Function.update_eq_self] at hinv
      exact ⟨hinv.knows, hinv.settled, h.log⟩
  | rollback c tx hopen =>
      have hinv := h.update c (s.connections c).finish none (h.knows c) rfl
      rwa [Function.update_eq_self] at hinv
  | raw c st o hidle ho =>
      refine ⟨h.knows, h.settled, fun e he => ?_⟩
      rcases List.mem_cons.1 he with rfl | he
      · have hsettled := h.settled c
        rw [hidle] at hsettled
        exact ⟨(h.knows c).current hsettled, ho⟩
      · exact h.log e he

/-- **The settings of every statement are those of its scope**, on whichever
connections the transactions before it have run. -/
theorem Runs.inv {rows : Rows T I R} (h : Runs Γ (Pool.initial rows) s) : Inv Γ s := by
  induction h with
  | refl => exact inv_initial Γ rows
  | step _ hstep ih => exact inv_step ih hstep

end RowSecurity
