import WhatStore.Prisma.Tables

/-!
# Isolation of the tenants

What `PrismaService` and `TenantScopeInterceptor` ask of the pool. A request with a
tenant is handled in a transaction that is scoped to the tenant, and what its handler
asks `prisma.db` is asked there; other requests ask outside of transactions. Calls of
`withTenant` and `withRlsBypass` open transactions of their own and hand them to their
work. What the callers ask, in which order and how many at a time, is left open.
-/

namespace WhatStore.RowPolicies

open RowSecurity

/-! ## The callers of the pool -/

/-- What `TenantScopeInterceptor` looks at. -/
structure Request where
  tenantId : Option Uuid
  isSse : Bool
  skipScope : Bool
  deriving DecidableEq

/-- `TenantScopeInterceptor.intercept`: the scope a handler runs in. -/
def intercept (req : Request) : Option Scope :=
  match req.tenantId with
  | none => none
  | some tenantId => if req.isSse || req.skipScope then none else some (.tenant tenantId)

/-- Who holds a client: the handler of a request, or the work of a call. -/
inductive Caller where
  | handler (req : Request)
  | withTenant (tenantId : Uuid)
  | withRlsBypass
  deriving DecidableEq

def Caller.scope : Caller → Option Scope
  | .handler req => intercept req
  | .withTenant tenantId => some (.tenant tenantId)
  | .withRlsBypass => some .bypass

/-- The client a caller asks: the pool itself, or the transaction on a connection,
until that is over. -/
inductive Client (C : Type) where
  | raw
  | transaction (c : C)
  | closed
  deriving DecidableEq

/-- The pool with the clients of its callers, and who has asked what. -/
structure App (V H C A : Type) where
  pool : Pool Setting Table (List Uuid) (Row V) Scope C A
  clients : H → Option (Caller × Client C)
  asked : List (Caller × Entry Setting Table (List Uuid) (Row V) Scope A)

inductive AppMove (V H C A : Type) where
  | call (h : H) (caller : Caller) (c : C)
  | ask (h : H) (c : C) (st : Statement Table (List Uuid) (Row V) A)
  | set (c : C)
  | commit (c : C)
  | rollback (c : C)

variable {V H C A : Type}

def App.initial (rows : Database V) : App V H C A := ⟨.initial rows, fun _ => none, []⟩

/-- The client of a transaction that is over is closed. -/
def Client.close [DecidableEq C] (c : C) : Client C → Client C
  | .transaction d => if d = c then .closed else .transaction d
  | x => x

def App.close [DecidableEq C] (s : App V H C A) (c : C) : H → Option (Caller × Client C) := fun h =>
  (s.clients h).map (Prod.map id (Client.close c))

/-- One step. Callers with a scope get a transaction, the others the pool. -/
inductive AppStep [DecidableEq H] [DecidableEq C] (s : App V H C A) :
    AppMove V H C A → App V H C A → Prop
  | callScoped (h : H) (caller : Caller) (c : C) (σ : Scope) (pool) (hnew : s.clients h = none)
      (hscope : caller.scope = some σ) (hpool : Step (schema V) s.pool (.start σ c) pool) :
      AppStep s (.call h caller c) { s with
        pool, clients := Function.update s.clients h (some (caller, .transaction c)) }
  | callRaw (h : H) (caller : Caller) (c : C) (hnew : s.clients h = none)
      (hscope : caller.scope = none) :
      AppStep s (.call h caller c) { s with
        clients := Function.update s.clients h (some (caller, .raw)) }
  | askScoped (h : H) (caller : Caller) (c : C) (st) (pool) (e)
      (hclient : s.clients h = some (caller, .transaction c))
      (hpool : Step (schema V) s.pool (.statement c st) pool) (hlog : pool.log = e :: s.pool.log) :
      AppStep s (.ask h c st) { s with pool, asked := (caller, e) :: s.asked }
  | askRaw (h : H) (caller : Caller) (c : C) (st) (pool) (e)
      (hclient : s.clients h = some (caller, .raw))
      (hpool : Step (schema V) s.pool (.raw c st) pool) (hlog : pool.log = e :: s.pool.log) :
      AppStep s (.ask h c st) { s with pool, asked := (caller, e) :: s.asked }
  | set (c : C) (pool) (hpool : Step (schema V) s.pool (.set c) pool) :
      AppStep s (.set c) { s with pool }
  | commit (c : C) (pool) (hpool : Step (schema V) s.pool (.commit c) pool) :
      AppStep s (.commit c) { s with pool, clients := s.close c }
  | rollback (c : C) (pool) (hpool : Step (schema V) s.pool (.rollback c) pool) :
      AppStep s (.rollback c) { s with pool, clients := s.close c }

inductive AppRuns [DecidableEq H] [DecidableEq C] (s : App V H C A) : App V H C A → Prop
  | refl : AppRuns s s
  | step {t u : App V H C A} {m : AppMove V H C A} (h : AppRuns s t) (hstep : AppStep t m u) :
      AppRuns s u

variable {s t u : App V H C A} {m : AppMove V H C A} {h : H} {c : C} {caller : Caller}

/-- Every client is what its caller asked for, and every statement was asked in the
scope of its caller. -/
structure AppInv (s : App V H C A) : Prop where
  raw : ∀ {h caller}, s.clients h = some (caller, .raw) → caller.scope = none
  transaction : ∀ {h caller c}, s.clients h = some (caller, .transaction c) →
    ∃ σ, caller.scope = some σ ∧ s.pool.scopes c = some σ
  asked : ∀ x ∈ s.asked, x.2.scope = x.1.scope ∧ x.2 ∈ s.pool.log

theorem appInv_initial (rows : Database V) : AppInv (App.initial rows : App V H C A) where
  raw h := by cases h
  transaction h := by cases h
  asked := by simp [App.initial]

theorem App.close_eq_some [DecidableEq C] {x : Client C} (hx : s.close c h = some (caller, x)) :
    x = .closed ∨ s.clients h = some (caller, x) ∧ x ≠ .transaction c := by
  obtain ⟨⟨caller', y⟩, hy, heq⟩ := Option.map_eq_some_iff.1 hx
  obtain ⟨rfl, rfl⟩ := Prod.mk.inj heq
  cases y with
  | raw => exact .inr ⟨hy, by simp [Client.close]⟩
  | closed => exact .inl rfl
  | transaction d =>
      by_cases hd : d = c
      · exact .inl (by simp [Client.close, hd])
      · exact .inr ⟨by simpa [Client.close, hd] using hy, by simp [Client.close, hd]⟩

theorem AppInv.call [DecidableEq H] {x : Client C} {h' : H} {caller' : Caller} {y : Client C}
    (hnew : Function.update s.clients h (some (caller, x)) h' = some (caller', y)) :
    (caller' = caller ∧ y = x) ∨ s.clients h' = some (caller', y) := by
  by_cases hh : h' = h
  · rw [hh, Function.update_self, Option.some.injEq, Prod.mk.injEq] at hnew
    exact .inl ⟨hnew.1.symm, hnew.2.symm⟩
  · rw [Function.update_of_ne hh] at hnew
    exact .inr hnew

theorem AppInv.ask {pool : Pool Setting Table (List Uuid) (Row V) Scope C A}
    {e : Entry Setting Table (List Uuid) (Row V) Scope A} (hinv : AppInv s)
    (hscopes : pool.scopes = s.pool.scopes)
    (hlog : pool.log = e :: s.pool.log) (he : e.scope = caller.scope) :
    AppInv { s with pool, asked := (caller, e) :: s.asked } where
  raw := hinv.raw
  transaction hclient := by
    obtain ⟨σ, hσ, hopen⟩ := hinv.transaction hclient
    exact ⟨σ, hσ, by rw [hscopes, hopen]⟩
  asked x hx := by
    rw [hlog]
    rcases List.mem_cons.1 hx with rfl | hx
    · exact ⟨he, List.mem_cons_self⟩
    · exact ⟨(hinv.asked x hx).1, List.mem_cons_of_mem _ (hinv.asked x hx).2⟩

theorem AppInv.finish [DecidableEq C] {pool : Pool Setting Table (List Uuid) (Row V) Scope C A}
    (hinv : AppInv s) (hscopes : pool.scopes = Function.update s.pool.scopes c none)
    (hlog : s.pool.log ⊆ pool.log) : AppInv { s with pool, clients := s.close c } where
  raw hclient := by
    rcases App.close_eq_some hclient with hclosed | ⟨hclient, -⟩
    · cases hclosed
    · exact hinv.raw hclient
  transaction {h caller d} hclient := by
    rcases App.close_eq_some hclient with hclosed | ⟨hclient, hne⟩
    · cases hclosed
    · obtain ⟨σ, hσ, hopen⟩ := hinv.transaction hclient
      refine ⟨σ, hσ, ?_⟩
      have hd : d ≠ c := fun heq => hne (by rw [heq])
      rw [hscopes, Function.update_of_ne hd, hopen]
  asked x hx := ⟨(hinv.asked x hx).1, hlog (hinv.asked x hx).2⟩

variable [DecidableEq H] [DecidableEq C]

theorem appInv_step (hinv : AppInv s) (hstep : AppStep s m t) : AppInv t := by
  cases hstep with
  | callScoped h caller c σ pool hnew hscope hpool =>
      have hscopes : pool.scopes = Function.update s.pool.scopes c (some σ) := hpool.scopes_eq
      refine ⟨fun hclient => ?_, fun {h' caller' d} hclient => ?_,
        fun x hx => ⟨(hinv.asked x hx).1, hpool.log_subset (hinv.asked x hx).2⟩⟩
      · rcases AppInv.call hclient with ⟨-, hraw⟩ | hclient
        · cases hraw
        · exact hinv.raw hclient
      · rcases AppInv.call hclient with ⟨rfl, hd⟩ | hclient
        · cases hd
          exact ⟨σ, hscope, by rw [hscopes, Function.update_self]⟩
        · obtain ⟨σ', hσ', hopen⟩ := hinv.transaction hclient
          have hd : d ≠ c := by
            rintro rfl
            rw [hpool.start_idle] at hopen
            cases hopen
          exact ⟨σ', hσ', by rw [hscopes, Function.update_of_ne hd, hopen]⟩
  | callRaw h caller c hnew hscope =>
      refine ⟨fun hclient => ?_, fun hclient => ?_, hinv.asked⟩
      · rcases AppInv.call hclient with ⟨rfl, -⟩ | hclient
        · exact hscope
        · exact hinv.raw hclient
      · rcases AppInv.call hclient with ⟨-, htx⟩ | hclient
        · cases htx
        · exact hinv.transaction hclient
  | askScoped h caller c st pool e hclient hpool hlog =>
      obtain ⟨σ, hσ, hopen⟩ := hinv.transaction hclient
      refine hinv.ask hpool.scopes_eq hlog ?_
      rw [hpool.statement_scope hlog, hopen, hσ]
  | askRaw h caller c st pool e hclient hpool hlog =>
      refine hinv.ask hpool.scopes_eq hlog ?_
      rw [hpool.raw_scope hlog, hinv.raw hclient]
  | set c pool hpool =>
      have hscopes : pool.scopes = s.pool.scopes := hpool.scopes_eq
      refine ⟨hinv.raw, fun hclient => ?_,
        fun x hx => ⟨(hinv.asked x hx).1, hpool.log_subset (hinv.asked x hx).2⟩⟩
      obtain ⟨σ, hσ, hopen⟩ := hinv.transaction hclient
      exact ⟨σ, hσ, by rw [hscopes, hopen]⟩
  | commit c pool hpool =>
      exact hinv.finish hpool.scopes_eq hpool.log_subset
  | rollback c pool hpool =>
      exact hinv.finish hpool.scopes_eq hpool.log_subset

theorem AppRuns.inv (hrun : AppRuns s t) (hinv : AppInv s) : AppInv t := by
  induction hrun with
  | refl => exact hinv
  | step _ hstep ih => exact appInv_step ih hstep

/-- What the callers do is a run of the pool. -/
theorem AppRuns.pool (hrun : AppRuns s t) : Runs (schema V) s.pool t.pool := by
  induction hrun with
  | refl => exact .refl
  | step _ hstep ih =>
      cases hstep with
      | callScoped h caller c σ pool hnew hscope hpool => exact ih.step hpool
      | callRaw h caller c hnew hscope => exact ih
      | askScoped h caller c st pool e hclient hpool hlog => exact ih.step hpool
      | askRaw h caller c st pool e hclient hpool hlog => exact ih.step hpool
      | set c pool hpool => exact ih.step hpool
      | commit c pool hpool => exact ih.step hpool
      | rollback c pool hpool => exact ih.step hpool

/-- A statement was asked in the scope of its caller, and has read its settings. -/
theorem AppRuns.asked {rows : Database V} (hrun : AppRuns (App.initial rows) s)
    {e : Entry Setting Table (List Uuid) (Row V) Scope A} (he : (caller, e) ∈ s.asked) :
    e.settings = (schema V).readings caller.scope e.served ∧
      (schema V).Outcome ((schema V).readings caller.scope e.served) e.rows e.statement
        e.outcome := by
  obtain ⟨hscope, hlog⟩ := (hrun.inv (appInv_initial rows)).asked _ he
  obtain ⟨hsettings, houtcome⟩ := hrun.pool.inv.log e hlog
  rw [hscope] at hsettings
  exact ⟨hsettings, hsettings ▸ houtcome⟩

/-! ## What a caller sees and writes -/

def Row.visibleTo (scope : Option Scope) (rows : Database V) (table : Table) (row : Row V) : Bool :=
  match scope with
  | some .bypass => true
  | some (.tenant t) => row.belongsTo t rows table || row.isShared table
  | none => row.isShared table

def Row.writableBy (scope : Option Scope) (rows : Database V) (table : Table) (row : Row V) : Bool :=
  match scope with
  | some .bypass => true
  | some (.tenant t) => row.belongsTo t rows table || table.protection.isNone
  | none => table.protection.isNone

/-- The rows of some tables that a scope sees. -/
def visibleRows (scope : Option Scope) (rows : Database V) (tables : List Table) : Database V :=
  fun table id =>
    if table ∈ tables then (rows table id).filter fun row => row.visibleTo scope rows table
    else none

/-- The row refers to a row that the statement has deleted, or to one that was deleted
with it, by a foreign key that does something then. -/
def Row.Follows (rows : Database V) (a : Answer Table (List Uuid) (Row V) A) (table : Table)
    (row : Row V) : Prop :=
  (constraints V).Follows (applyAll rows a.changes) a.changes table row

/-- The answer is made of what the scope sees, what is written was a row it sees and
becomes a row it may write, and what else changes follows a row that was deleted. -/
structure Confined (scope : Option Scope) (rows : Database V)
    (st : Statement Table (List Uuid) (Row V) A) (a : Answer Table (List Uuid) (Row V) A) :
    Prop where
  answer : st.run (visibleRows scope rows st.tables) = (a.value, a.changes)
  old : ∀ x ∈ a.changes, ∀ row, rows x.table x.id = some row →
    row.visibleTo scope rows x.table = true
  new : ∀ x ∈ a.changes, ∀ row, x.row = some row → row.writableBy scope rows x.table = true
  actions : ∀ table id, Writes a.actions table id →
    ∃ row, applyAll rows a.changes table id = some row ∧ row.Follows rows a table

section Confined

variable {served : List Scope} {scope : Option Scope} {rows : Database V} {table : Table}
  {row : Row V}

theorem sees_eq_visibleTo : (schema V).sees ((schema V).readings scope served) rows table row =
    row.visibleTo scope rows table := by
  rcases scope with - | t | -
  · exact sees_none
  · exact sees_tenant
  · exact sees_bypass

theorem writes_eq_writableBy : (schema V).writes ((schema V).readings scope served) rows table row =
    row.writableBy scope rows table := by
  rcases scope with - | t | -
  · exact writes_none
  · exact writes_tenant
  · exact writes_bypass

theorem shown_eq (tables : List Table) :
    (schema V).shown ((schema V).readings scope served) rows tables =
      visibleRows scope rows tables := by
  funext table id
  have hsees : (schema V).sees ((schema V).readings scope served) rows table =
      fun row => row.visibleTo scope rows table := funext fun row => sees_eq_visibleTo
  simp only [Schema.shown, visibleRows, hsees]

theorem confined_of_outcome {st : Statement Table (List Uuid) (Row V) A} {a}
    (h : (schema V).Outcome ((schema V).readings scope served) rows st (some a)) :
    Confined scope rows st a := by
  cases h with
  | answered a ha hpermits hkept =>
      obtain ⟨gone, hacts⟩ := ha.acts
      refine ⟨by rw [← shown_eq, ha.run], fun x hx row hrow => ?_, fun x hx row hrow => ?_,
        fun table id hwrites => hacts.follows hwrites⟩
      · exact sees_eq_visibleTo.symm.trans ((hpermits x hx).1 row hrow)
      · exact writes_eq_writableBy.symm.trans ((hpermits x hx).2 row hrow)

end Confined

/-! ## Rows of other tenants -/

section Others

variable {t u : Uuid} {scope : Option Scope} {rows rows' : Database V} {table : Table}
  {row : Row V} {id : List Uuid}

theorem Row.customerOf_iff : row.customerOf t rows = true ↔
    ∃ c, (row.customerId.bind fun id => rows .customers [id]) = some c ∧ c.tenantId = some t := by
  simp [Row.customerOf, Option.any_eq_true]

theorem Row.belongsTo_unique (ht : row.belongsTo t rows table = true)
    (hu : row.belongsTo u rows table = true) : t = u := by
  unfold Row.belongsTo at ht hu
  cases hkind : table.protection with
  | none => simp [hkind] at ht
  | some kind =>
      simp only [hkind] at ht hu
      cases kind with
      | customer =>
          obtain ⟨c, hc, hct⟩ := Row.customerOf_iff.1 ht
          obtain ⟨c', hc', hcu⟩ := Row.customerOf_iff.1 hu
          rw [hc, Option.some.injEq] at hc'
          rw [← hc', hct, Option.some.injEq] at hcu
          exact hcu
      | column => simpa using (beq_iff_eq.1 ht).symm.trans (beq_iff_eq.1 hu)
      | template => simpa using (beq_iff_eq.1 ht).symm.trans (beq_iff_eq.1 hu)

theorem Row.not_shared (ht : row.belongsTo t rows table = true) : row.isShared table = false := by
  unfold Row.belongsTo at ht
  unfold Row.isShared
  cases hkind : table.protection with
  | none => simp [hkind] at ht
  | some kind =>
      cases kind with
      | template =>
          simp only [hkind] at ht
          simp [beq_iff_eq.1 ht]
      | _ => rfl

/-- Neither the scope of the tenant nor that of the platform. -/
def Foreign (t : Uuid) (scope : Option Scope) : Prop :=
  scope ≠ some (.tenant t) ∧ scope ≠ some .bypass

theorem Foreign.not_visible (h : Foreign t scope) (hrow : row.visibleTo scope rows table = true) :
    row.belongsTo t rows table = false := by
  rw [← Bool.not_eq_true]
  intro ht
  have hshared := Row.not_shared ht
  rcases scope with - | u | -
  · rw [Row.visibleTo, hshared] at hrow
    cases hrow
  · rw [Row.visibleTo, hshared, Bool.or_false] at hrow
    exact h.1 (by rw [Row.belongsTo_unique ht hrow])
  · exact h.2 rfl

/-- The same rows but for those of the tenant. -/
def SameBut (t : Uuid) (rows rows' : Database V) : Prop :=
  ∀ table id, ((rows table id).filter fun row => !row.belongsTo t rows table) =
    (rows' table id).filter fun row => !row.belongsTo t rows' table

theorem SameBut.symm (h : SameBut t rows rows') : SameBut t rows' rows :=
  fun table id => (h table id).symm

theorem SameBut.get (h : SameBut t rows rows') (hrow : rows table id = some row)
    (hother : row.belongsTo t rows table = false) : rows' table id = some row := by
  have hkept : (rows' table id).filter (fun row => !row.belongsTo t rows' table) = some row := by
    rw [← h table id, hrow, Option.filter_eq_some_iff]
    exact ⟨rfl, by simp [hother]⟩
  exact (Option.filter_eq_some_iff.1 hkept).1

theorem SameBut.belongsTo (h : SameBut t rows rows') (hne : u ≠ t)
    (hrow : row.belongsTo u rows table = true) : row.belongsTo u rows' table = true := by
  unfold Row.belongsTo at hrow ⊢
  cases hkind : table.protection with
  | none => simp [hkind] at hrow
  | some kind =>
      simp only [hkind] at hrow ⊢
      cases kind with
      | column => exact hrow
      | template => exact hrow
      | customer =>
          obtain ⟨c, hc, hcu⟩ := Row.customerOf_iff.1 hrow
          obtain ⟨id, hid, hrows⟩ := Option.bind_eq_some_iff.1 hc
          have hother : c.belongsTo t rows .customers = false := by
            simpa [Row.belongsTo, Table.protection, hcu] using hne
          rw [Row.customerOf_iff]
          exact ⟨c, Option.bind_eq_some_iff.2 ⟨id, hid, h.get hrows hother⟩, hcu⟩

theorem SameBut.visible (h : SameBut t rows rows') (hscope : Foreign t scope)
    (hrow : row.visibleTo scope rows table = true) : row.visibleTo scope rows' table = true := by
  rcases scope with - | u | -
  · exact hrow
  · have hne : u ≠ t := fun heq => hscope.1 (by rw [heq])
    rw [Row.visibleTo, Bool.or_eq_true] at hrow ⊢
    exact hrow.imp_left (h.belongsTo hne)
  · rfl

theorem SameBut.visibleRows (h : SameBut t rows rows') (hscope : Foreign t scope)
    (tables : List Table) : visibleRows scope rows tables = visibleRows scope rows' tables := by
  have hsub : ∀ {r r' : Database V} {table id row}, SameBut t r r' →
      (r table id).filter (fun row => row.visibleTo scope r table) = some row →
        (r' table id).filter (fun row => row.visibleTo scope r' table) = some row := by
    intro r r' table id row hsame hrow
    obtain ⟨hget, hvisible⟩ := Option.filter_eq_some_iff.1 hrow
    exact Option.filter_eq_some_iff.2
      ⟨hsame.get hget (hscope.not_visible hvisible), hsame.visible hscope hvisible⟩
  funext table id
  simp only [RowPolicies.visibleRows]
  split
  · exact Option.ext fun row => ⟨hsub h, hsub h.symm⟩
  · rfl

variable {served : List Scope} {st : Statement Table (List Uuid) (Row V) A}
  {a : Answer Table (List Uuid) (Row V) A}

/-- A row of the tenant stays, unless it follows one that was deleted. -/
theorem Confined.keeps (h : Confined scope rows st a) (hscope : Foreign t scope)
    (hrow : rows table id = some row) (ht : row.belongsTo t rows table = true) :
    applyAll rows a.allChanges table id = some row ∨ row.Follows rows a table := by
  have hown : applyAll rows a.changes table id = some row := by
    rw [applyAll_of_not_writes, hrow]
    rintro ⟨x, hx, rfl, rfl⟩
    have hno := hscope.not_visible (h.old x hx row hrow)
    rw [ht] at hno
    cases hno
  by_cases hwrites : Writes a.actions table id
  · obtain ⟨row', hrow', hfollows⟩ := h.actions table id hwrites
    rw [hown, Option.some.injEq] at hrow'
    exact .inr (hrow' ▸ hfollows)
  · refine .inl ?_
    rw [Answer.allChanges, applyAll_append, applyAll_of_not_writes hwrites, hown]

end Others

/-! ## Two shops -/

def bakery : Uuid := ⟨"0b5e3c1a-52d4-4c1e-9a51-3d1f6f0f7a10", by decide +kernel⟩

def florist : Uuid := ⟨"f10e2b7c-8a3d-4f6b-b1c2-90ab12cd34ef", by decide +kernel⟩

def shop : Row Unit := ⟨fun _ => none, fun _ => none, ()⟩

def ownedBy (t : Uuid) : Row Unit :=
  { shop with column := Function.update shop.column .tenantId (some t) }

def orderOf (t : Uuid) : Row Unit :=
  { shop with column := Function.update (ownedBy t).column .customerId (some t) }

section Removed

variable {table : Table} {id : List Uuid} {row : Row Unit}

def shopRows : List (Table × List Uuid × Row Unit) :=
  [bakery, florist].flatMap fun t =>
    [(.tenants, [t], shop), (.customers, [t], ownedBy t), (.orders, [t], orderOf t)]

def twoShops : Database Unit := fun table id =>
  (shopRows.find? fun x => x.1 == table && x.2.1 == id).map fun x => x.2.2

theorem mem_shopRows (h : twoShops table id = some row) : (table, id, row) ∈ shopRows := by
  obtain ⟨x, hx, rfl⟩ := Option.map_eq_some_iff.1 h
  have hfound := List.find?_some hx
  simp only [Bool.and_eq_true, beq_iff_eq] at hfound
  obtain ⟨rfl, rfl⟩ := hfound
  exact List.mem_of_find?_eq_some hx

/-- A statement that looks for the florist's customer and removes the bakery's. -/
def lookAndRemove : Statement Table (List Uuid) (Row Unit) Bool where
  tables := [.customers]
  run rows := ((rows .customers [florist]).isSome, [⟨.customers, [bakery], none⟩])

def anonymousOrder : Row Unit :=
  { orderOf bakery with column := Function.update (orderOf bakery).column .customerId none }

def removed : Answer Table (List Uuid) (Row Unit) Bool where
  value := false
  changes := [⟨.customers, [bakery], none⟩]
  actions := [⟨.orders, [bakery], some anonymousOrder⟩]

def removedCustomer (table : Table) (id : List Uuid) : Bool :=
  table == .customers && id == [bakery]

theorem unlinked_orderOf :
    (constraints Unit).unlinked removedCustomer .orders (orderOf bakery) = anonymousOrder := rfl

theorem mem_removed (h : applyAll twoShops removed.changes table id = some row) :
    (table, id, row) ∈ shopRows ∧ removedCustomer table id = false := by
  by_cases hremoved : table = .customers ∧ id = [bakery]
  · rw [hremoved.1, hremoved.2] at h
    cases h
  · refine ⟨mem_shopRows (h.symm.trans (if_neg hremoved)).symm, ?_⟩
    simpa [removedCustomer] using hremoved

/-- Only the order of the bakery refers to the removed customer, and it is not deleted. -/
theorem refers_removed {key} (hkey : key ∈ (constraints Unit).keys) (hchild : key.child = table)
    (hmem : (table, id, row) ∈ shopRows) {j} (htarget : key.target row = some j)
    (hj : removedCustomer key.parent j = true) :
    key.onDelete = .setNull ∧ table = .orders ∧ id = [bakery] := by
  have hall : ∀ x ∈ shopRows, ∀ key ∈ (constraints Unit).keys, key.child = x.1 →
      (key.target x.2.2).any (removedCustomer key.parent) = true →
        key.onDelete = .setNull ∧ x.1 = .orders ∧ x.2.1 = [bakery] := by decide +kernel
  exact hall _ hmem key hkey hchild (by simp [htarget, hj])

theorem gone_removed : ∀ t i, removedCustomer t i = true ↔
    (constraints Unit).Gone (applyAll twoShops removed.changes) removed.changes t i := by
  refine fun t i => ⟨fun h => ?_, fun h => ?_⟩
  · simp only [removedCustomer, Bool.and_eq_true, beq_iff_eq] at h
    rw [h.1, h.2]
    exact .deleted _ List.mem_cons_self rfl
  · induction h with
    | deleted x hx hnone =>
        obtain rfl := List.mem_singleton.1 hx
        rfl
    | cascade key hkey hcascade i row j hrow htarget hgone ih =>
        have hnull := (refers_removed hkey rfl (mem_removed hrow).1 htarget ih).1
        rw [hcascade] at hnull
        cases hnull

theorem not_writes_actions (h : ¬ (table = .orders ∧ id = [bakery])) :
    ¬ Writes removed.actions table id := by
  rintro ⟨x, hx, rfl, rfl⟩
  obtain rfl := List.mem_singleton.1 hx
  exact h ⟨rfl, rfl⟩

theorem removed_acts : (constraints Unit).Acts (applyAll twoShops removed.changes)
    removed.changes removedCustomer removed.actions where
  gone_iff := gone_removed
  result := by
    funext table id
    by_cases horder : table = .orders ∧ id = [bakery]
    · rw [horder.1, horder.2]
      rfl
    rw [applyAll_of_not_writes (not_writes_actions horder), Constraints.act]
    cases hrow : applyAll twoShops removed.changes table id with
      | none => simp
      | some row =>
          obtain ⟨hmem, hremoved⟩ := mem_removed hrow
          rw [hremoved]
          refine congrArg some (Constraints.unlinked_of_not fun key hkey => ?_).symm
          rw [← Bool.not_eq_true]
          intro hunlinks
          simp only [Constraints.unlinks, Bool.and_eq_true, beq_iff_eq, Option.any_eq_true] at hunlinks
          obtain ⟨⟨hchild, -⟩, j, htarget, hj⟩ := hunlinks
          exact horder (refers_removed hkey hchild hmem htarget hj).2
  changed := by
    intro y hy
    obtain rfl := List.mem_singleton.1 hy
    refine ⟨rfl, fun heq => ?_⟩
    have hcolumn : anonymousOrder.column .customerId = (orderOf bakery).column .customerId :=
      congrArg (fun row => row.column .customerId) (Option.some.inj heq)
    cases hcolumn

def keptRows : List (Table × List Uuid × Row Unit) :=
  (.orders, [bakery], anonymousOrder) :: shopRows.filter fun x =>
    !(x.2.1 == [bakery] && (x.1 == .customers || x.1 == .orders))

theorem mem_keptRows (h : applyAll twoShops removed.allChanges table id = some row) :
    (table, id, row) ∈ keptRows := by
  by_cases horder : table = .orders ∧ id = [bakery]
  · obtain ⟨rfl, rfl⟩ := horder
    cases h
    exact List.mem_cons_self
  · rw [Answer.allChanges, applyAll_append, applyAll_of_not_writes (not_writes_actions horder)] at h
    obtain ⟨hmem, hremoved⟩ := mem_removed h
    refine List.mem_cons_of_mem _ (List.mem_filter.2 ⟨hmem, ?_⟩)
    simp only [removedCustomer, Bool.and_eq_false_iff, beq_eq_false_iff_ne] at hremoved
    simp only [Bool.not_eq_true', Bool.and_eq_false_iff, Bool.or_eq_false_iff, beq_eq_false_iff_ne]
    tauto

theorem removed_kept : ¬ (constraints Unit).Breaks (applyAll twoShops removed.allChanges)
    removed.allChanges := by
  rintro (⟨key, hkey, i, row, j, hrow, htarget, hnone, -⟩ |
    ⟨table, i, j, row, row', -, -, hrow, -, hclash⟩)
  · have hall : ∀ x ∈ keptRows, ∀ key ∈ (constraints Unit).keys, key.child = x.1 →
        (key.target x.2.2).all (fun j =>
          (applyAll twoShops removed.allChanges key.parent j).isSome) = true := by decide +kernel
    have hsome := hall _ (mem_keptRows hrow) key hkey rfl
    rw [htarget, Option.all_some, hnone] at hsome
    cases hsome
  · have hall : ∀ x ∈ keptRows, ∀ index ∈ uniqueIndexes, index.table = x.1 →
        index.texts.any (fun c => (x.2.2.text c).isNone) = true := by decide +kernel
    obtain ⟨index, hindex, hboth⟩ := List.any_eq_true.1 hclash
    rw [Bool.and_eq_true, beq_iff_eq, UniqueIndex.clash, Bool.and_eq_true, List.all_eq_true,
      List.all_eq_true] at hboth
    obtain ⟨c, hc, hnone⟩ := List.any_eq_true.1 (hall _ (mem_keptRows hrow) index hindex hboth.1)
    have hsome := hboth.2.2 c hc
    rw [Option.isNone_iff_eq_none.1 hnone] at hsome
    cases hsome

end Removed

def findToken : Statement Table (List Uuid) (Row Unit) Bool where
  tables := [.customerRefreshTokens]
  run rows := ((rows .customerRefreshTokens [bakery]).isSome, [])

def bakeryRequest : Caller := .handler ⟨some bakery, false, false⟩

def platformRequest : Caller := .handler ⟨none, false, false⟩

/-- The bakery's request is answered; then the platform's fails on the same connection. -/
theorem exists_served : ∃ (s : App Unit Nat Unit Bool)
    (e e' : Entry Setting Table (List Uuid) (Row Unit) Scope Bool),
    AppRuns (App.initial twoShops) s ∧
      (bakeryRequest, e) ∈ s.asked ∧ e.outcome = some removed ∧
      (platformRequest, e') ∈ s.asked ∧ e'.statement = findToken ∧ .tenant bakery ∈ e'.served := by
  have h1 := AppRuns.refl.step (.callScoped (s := (App.initial twoShops : App Unit Nat Unit Bool))
    0 bakeryRequest () (.tenant bakery) _ rfl rfl (.start _ _ rfl))
  have h2 := h1.step (.set () _ (.set () _ rfl rfl))
  have h3 := h2.step (.askScoped 0 bakeryRequest () lookAndRemove _ _ rfl
    (.statement () lookAndRemove _ _ rfl rfl rfl (.answered removed
      ⟨Prod.ext ?_ rfl, removedCustomer, removed_acts⟩ ?_ removed_kept)) rfl)
  have h4 := h3.step (.commit () _ (.commit () _ rfl rfl))
  have h5 := h4.step (.callRaw 1 platformRequest () rfl rfl)
  have h6 := h5.step (.askRaw 1 platformRequest () findToken _ _ rfl
    (.raw () findToken none rfl (.raised ?_)) rfl)
  · exact ⟨_, _, _, h6, List.mem_cons_of_mem _ List.mem_cons_self, rfl, List.mem_cons_self,
      rfl, List.mem_cons_self⟩
  · refine ⟨.customerRefreshTokens, List.mem_cons_self, _, rfl, .inl (.inr (.inr ⟨"", ?_, ?_⟩))⟩
    · decide +kernel
    · decide +kernel
  · decide +kernel
  · intro x hx
    obtain rfl := List.mem_singleton.1 hx
    constructor
    · intro old hold
      have hsome : some (ownedBy bakery) = some old := hold
      cases hsome
      decide +kernel
    · intro new hnew
      cases hnew

/-! ## Isolation -/

/-- **Every caller is confined to its scope**, whatever ran before on the connections
of the pool and whatever runs at the same time. Only foreign keys reach further. -/
theorem callers_confined {rows : Database V} (hrun : AppRuns (App.initial rows) s)
    {e : Entry Setting Table (List Uuid) (Row V) Scope A} (he : (caller, e) ∈ s.asked) {a}
    (ha : e.outcome = some a) : Confined caller.scope e.rows e.statement a := by
  have houtcome := (hrun.asked he).2
  rw [ha] at houtcome
  exact confined_of_outcome houtcome

theorem callers_confined_bakery : ∃ (s : App Unit Nat Unit Bool)
    (e : Entry Setting Table (List Uuid) (Row Unit) Scope Bool),
    AppRuns (App.initial twoShops) s ∧ (bakeryRequest, e) ∈ s.asked ∧ e.outcome = some removed ∧
      Confined bakeryRequest.scope e.rows e.statement removed := by
  obtain ⟨s, e, -, hrun, he, hremoved, -⟩ := exists_served
  exact ⟨s, e, hrun, he, hremoved, callers_confined hrun he hremoved⟩

end WhatStore.RowPolicies
