import WhatStore.Prisma.HookLog

/-!
# Hooks after a commit

`afterCommit` and `withAfterCommit` as they run among each other: the code of a promise
calls them, waits or does not wait for what it calls, and steps in any order with the others.
Every run keeps the promise of the log.
-/

namespace WhatStore.AfterCommit

/-- What code does with hooks and transactions, up to the result with which it settles. The hook
of `afterCommit` is called to its end when it is synchronous; what is spawned is not awaited. -/
inductive Code (ε ν : Type*) where
  | settle (result : Except ε ν)
  | afterCommit (sync : Bool) (hook : Code ε ν) (next : Except ε Unit → Code ε ν)
  | withAfterCommit (transaction : Code ε ν) (next : Except ε ν → Code ε ν)
  | spawn (child next : Code ε ν)

inductive Frame (ε ν : Type*) where
  /-- `withAfterCommit`, for its transaction; the context of its caller comes back. -/
  | transaction (tx : ℕ) (outer : Option ℕ) (next : Except ε ν → Code ε ν)
  /-- `withAfterCommit`, for a hook, with the result of its transaction. -/
  | hook (tx : ℕ) (result : ν) (next : Except ε ν → Code ε ν)
  /-- `afterCommit`, for a synchronous hook that it called itself. -/
  | immediate (hook : ℕ) (next : Except ε Unit → Code ε ν)

inductive Control (ε ν : Type*) where
  | run (code : Code ε ν)
  /-- `withAfterCommit`, before the next of its hooks. -/
  | loop (tx : ℕ) (result : ν) (next : Except ε ν → Code ε ν)

/-- Code that runs, with the store of `hooksStorage` and the store where it was spawned. -/
structure Thread (ε ν : Type*) where
  context : Option ℕ
  base : Option ℕ
  control : Control ε ν
  stack : List (Frame ε ν)

/-- The arrays of hooks, how far each is iterated, and the log. -/
structure Shared (ε ν : Type*) where
  opened : ℕ
  registered : ℕ
  hooks : ℕ → List (ℕ × Code ε ν)
  position : ℕ → ℕ
  log : List (Event ε ν)

variable {ε ν : Type*}

def enclosing (base : Option ℕ) : List (Frame ε ν) → Option ℕ
  | [] => base
  | .transaction tx _ _ :: _ => some tx
  | _ :: stack => enclosing base stack

namespace Shared

def add (s : Shared ε ν) (event : Event ε ν) : Shared ε ν := { s with log := s.log ++ [event] }

def register (s : Shared ε ν) (enclosing : Option ℕ) : Shared ε ν :=
  { s with registered := s.registered + 1 }.add (.registered s.registered enclosing)

def push (s : Shared ε ν) (tx : ℕ) (hook : ℕ × Code ε ν) : Shared ε ν :=
  { s with hooks := Function.update s.hooks tx (s.hooks tx ++ [hook]) }

end Shared

/-- The arrays and the thread afterwards, and what it spawned. -/
abbrev Outcome (ε ν : Type*) := Shared ε ν × Thread ε ν × List (Thread ε ν)

def Thread.run (t : Thread ε ν) (code : Code ε ν) : Thread ε ν := { t with control := .run code }

def afterCommit (s : Shared ε ν) (t : Thread ε ν) (sync : Bool) (hook : Code ε ν)
    (next : Except ε Unit → Code ε ν) : Outcome ε ν :=
  match t.context with
  | some tx =>
      ((s.push tx (s.registered, hook)).register (enclosing t.base t.stack), t.run (next (.ok ())),
        [])
  | none =>
      let called := (s.register (enclosing t.base t.stack)).add (.started s.registered)
      if sync then
        (called, { t.run hook with stack := .immediate s.registered next :: t.stack }, [])
      else
        (called.add (.answered s.registered (.ok ())), t.run (next (.ok ())),
          [⟨none, none, .run hook, []⟩])

def withAfterCommit (s : Shared ε ν) (t : Thread ε ν) (transaction : Code ε ν)
    (next : Except ε ν → Code ε ν) : Outcome ε ν :=
  ({ s with
      opened := s.opened + 1
      hooks := Function.update s.hooks s.opened []
      position := Function.update s.position s.opened 0 }.add (.opened s.opened),
    { t.run transaction with
      context := some s.opened
      stack := .transaction s.opened t.context next :: t.stack }, [])

/-- The loop of `withAfterCommit` over its hooks. -/
def nextHook (s : Shared ε ν) (t : Thread ε ν) (tx : ℕ) (result : ν)
    (next : Except ε ν → Code ε ν) : Outcome ε ν :=
  match (s.hooks tx)[s.position tx]? with
  | some (id, hook) =>
      ({ s with position := Function.update s.position tx (s.position tx + 1) }.add (.started id),
        { t.run hook with stack := .hook tx result next :: t.stack }, [])
  | none => (s.add (.returned tx (.ok result)), t.run (next (.ok result)), [])

/-- Who waited goes on with the result; the failure of a hook is logged and dropped. -/
def settle (s : Shared ε ν) (t : Thread ε ν) (r : Except ε ν) : Option (Outcome ε ν) :=
  match t.stack with
  | [] => none
  | .transaction tx outer next :: stack =>
      match r with
      | .ok v =>
          some (s.add (.settled tx r),
            { t with context := outer, control := .loop tx v next, stack := stack }, [])
      | .error _ =>
          some ((s.add (.settled tx r)).add (.returned tx r),
            { t with context := outer, control := .run (next r), stack := stack }, [])
  | .hook tx v next :: stack => some (s, { t with control := .loop tx v next, stack := stack }, [])
  | .immediate hook next :: stack =>
      some (s.add (.answered hook (r.map fun _ => ())),
        { t with control := .run (next (r.map fun _ => ())), stack := stack }, [])

def advance (s : Shared ε ν) (t : Thread ε ν) : Option (Outcome ε ν) :=
  match t.control with
  | .run (.settle r) => settle s t r
  | .run (.afterCommit sync hook next) => some (afterCommit s t sync hook next)
  | .run (.withAfterCommit transaction next) => some (withAfterCommit s t transaction next)
  | .run (.spawn child next) => some (s, t.run next, [⟨t.context, t.context, .run child, []⟩])
  | .loop tx result next => some (nextHook s t tx result next)

structure State (ε ν : Type*) where
  shared : Shared ε ν
  threads : List (Thread ε ν)

def initial (main : Code ε ν) : State ε ν where
  shared := ⟨0, 0, fun _ => [], fun _ => 0, []⟩
  threads := [⟨none, none, .run main, []⟩]

inductive Step (t : Thread ε ν) : State ε ν → State ε ν → Prop
  | step {s s' : Shared ε ν} {t' : Thread ε ν} {spawned : List (Thread ε ν)}
      (before after : List (Thread ε ν)) (h : advance s t = some (s', t', spawned)) :
      Step t ⟨s, before ++ t :: after⟩ ⟨s', before ++ t' :: (after ++ spawned)⟩

/-- A run from the start, with the threads as they were when they stepped. -/
inductive Run (main : Code ε ν) : List (Thread ε ν) → State ε ν → Prop
  | initial : Run main [] (initial main)
  | step {moved : List (Thread ε ν)} {s s' : State ε ν} (h : Run main moved s) (t : Thread ε ν)
      (hstep : Step t s s') : Run main (t :: moved) s'

/-! ## The ledger of a state -/

/-- The transactions that a thread answers for, with how far they are. -/
def Frame.roles : Frame ε ν → List (ℕ × Phase ε ν)
  | .transaction tx _ _ => [(tx, .running)]
  | .hook tx v _ => [(tx, .settled (.ok v))]
  | .immediate _ _ => []

def Control.roles : Control ε ν → List (ℕ × Phase ε ν)
  | .run _ => []
  | .loop tx v _ => [(tx, .settled (.ok v))]

def Thread.roles (t : Thread ε ν) : List (ℕ × Phase ε ν) :=
  t.control.roles ++ t.stack.flatMap Frame.roles

/-- Every open transaction has one thread that answers for it. -/
structure Owns (opened : ℕ) (phase : ℕ → Phase ε ν) (roles : List (ℕ × Phase ε ν)) : Prop where
  nodup : (roles.map Prod.fst).Nodup
  mem : ∀ tx p, (tx, p) ∈ roles → tx < opened ∧ phase tx = p
  owned : ∀ tx, tx < opened → (tx, phase tx) ∈ roles ∨ ∃ r, phase tx = .returned r

section Owns

variable {opened tx : ℕ} {phase : ℕ → Phase ε ν} {roles roles' : List (ℕ × Phase ε ν)}
  {q : Phase ε ν}

theorem Owns.perm (h : Owns opened phase roles) (hperm : roles.Perm roles') :
    Owns opened phase roles' := by
  constructor
  · exact (hperm.map _).nodup_iff.1 h.nodup
  · intro tx q hmem
    exact h.mem tx q (hperm.mem_iff.2 hmem)
  · intro tx htx
    rw [← hperm.mem_iff]
    exact h.owned tx htx

theorem Owns.open (h : Owns opened phase roles) (hphase : phase opened = .running) :
    Owns (opened + 1) phase ((opened, .running) :: roles) := by
  constructor
  · rw [List.map_cons, List.nodup_cons]
    refine ⟨?_, h.nodup⟩
    simp only [List.mem_map, not_exists, not_and]
    rintro ⟨tx, q⟩ hmem heq
    have hlt := (h.mem tx q hmem).1
    simp only at heq
    omega
  · intro tx q hmem
    rcases List.mem_cons.1 hmem with heq | hold
    · obtain ⟨rfl, rfl⟩ : tx = opened ∧ q = .running := by simpa using heq
      exact ⟨by omega, hphase⟩
    · obtain ⟨hlt, hq⟩ := h.mem tx q hold
      exact ⟨by omega, hq⟩
  · intro tx htx
    rcases (Nat.lt_succ_iff.1 htx).eq_or_lt with rfl | hlt
    · simp [hphase]
    · rcases h.owned tx hlt with hmem | hreturned
      · exact .inl (List.mem_cons_of_mem _ hmem)
      · exact .inr hreturned

theorem Owns.notMem (h : Owns opened phase ((tx, q) :: roles)) {tx' : ℕ} {q' : Phase ε ν}
    (hmem : (tx', q') ∈ roles) : tx' ≠ tx := by
  rintro rfl
  have hnodup := h.nodup
  rw [List.map_cons, List.nodup_cons] at hnodup
  exact hnodup.1 (List.mem_map.2 ⟨_, hmem, rfl⟩)

theorem Owns.update (h : Owns opened phase ((tx, q) :: roles)) (q' : Phase ε ν) :
    Owns opened (Function.update phase tx q') ((tx, q') :: roles) := by
  constructor
  · exact h.nodup
  · intro tx' p hmem
    rcases List.mem_cons.1 hmem with heq | hold
    · obtain ⟨rfl, rfl⟩ : tx' = tx ∧ p = q' := by simpa using heq
      exact ⟨(h.mem tx' q (by simp)).1, by simp⟩
    · rw [Function.update_of_ne (h.notMem hold)]
      exact h.mem tx' p (List.mem_cons_of_mem _ hold)
  · intro tx' htx'
    by_cases heq : tx' = tx
    · subst heq
      simp
    · rw [Function.update_of_ne heq]
      simpa [heq] using h.owned tx' htx'

theorem Owns.returned (h : Owns opened phase ((tx, q) :: roles)) (r : Except ε ν) :
    Owns opened (Function.update phase tx (.returned r)) roles := by
  have hupdate := h.update (.returned r)
  constructor
  · exact (List.nodup_cons.1 hupdate.nodup).2
  · intro tx' p hmem
    exact hupdate.mem tx' p (List.mem_cons_of_mem _ hmem)
  · intro tx' htx'
    rcases hupdate.owned tx' htx' with hmem | hreturned
    · rcases List.mem_cons.1 hmem with heq | hold
      · exact .inr ⟨r, congrArg Prod.snd heq⟩
      · exact .inl hold
    · exact .inr hreturned

end Owns

/-- The store is the innermost transaction of the stack, frame by frame. -/
def Scoped (opened : ℕ) (base : Option ℕ) : Option ℕ → List (Frame ε ν) → Prop
  | context, [] => context = base ∧ ∀ tx, base = some tx → tx < opened
  | context, .transaction tx outer _ :: stack =>
      context = some tx ∧ tx < opened ∧ Scoped opened base outer stack
  | context, _ :: stack => Scoped opened base context stack

theorem Scoped.context_eq {opened : ℕ} {base context : Option ℕ} {stack : List (Frame ε ν)}
    (h : Scoped opened base context stack) : context = enclosing base stack := by
  induction stack with
  | nil => exact h.1
  | cons frame stack ih =>
      cases frame with
      | transaction tx outer next => exact h.1
      | hook tx v next => exact ih h
      | immediate hook next => exact ih h

theorem Scoped.lt {opened tx : ℕ} {base context : Option ℕ} {stack : List (Frame ε ν)}
    (h : Scoped opened base context stack) (hcontext : context = some tx) : tx < opened := by
  induction stack with
  | nil => exact h.2 tx (h.1 ▸ hcontext)
  | cons frame stack ih =>
      cases frame with
      | transaction tx' outer next =>
          obtain ⟨heq, hlt, -⟩ := h
          rw [heq] at hcontext
          obtain rfl : tx' = tx := by simpa using hcontext
          exact hlt
      | hook tx v next => exact ih h
      | immediate hook next => exact ih h

theorem Scoped.mono {opened opened' : ℕ} (hle : opened ≤ opened') {base context : Option ℕ}
    {stack : List (Frame ε ν)} (h : Scoped opened base context stack) :
    Scoped opened' base context stack := by
  induction stack generalizing context with
  | nil => exact ⟨h.1, fun tx htx => (h.2 tx htx).trans_le hle⟩
  | cons frame stack ih =>
      cases frame with
      | transaction tx outer next => exact ⟨h.1, h.2.1.trans_le hle, ih h.2.2⟩
      | hook tx v next => exact ih h
      | immediate hook next => exact ih h

/-- The ledger has the arrays of the state, with the numbers of the hooks. -/
structure Fits (s : Shared ε ν) (l : Ledger ε ν) : Prop where
  opened : l.opened = s.opened
  registered : l.registered = s.registered
  hooks : ∀ tx, l.hooks tx = (s.hooks tx).map Prod.fst
  position : ∀ tx, l.position tx = s.position tx
  log : l.log = s.log

section Fits

variable {s : Shared ε ν} {l : Ledger ε ν}

theorem Fits.add (h : Fits s l) (event : Event ε ν) : Fits (s.add event) (l.add event) := by
  refine ⟨h.opened, h.registered, h.hooks, h.position, ?_⟩
  rw [Ledger.add_log, h.log, Shared.add]

theorem Fits.register (h : Fits s l) (enclosing : Option ℕ) :
    Fits (s.register enclosing) (l.register enclosing) := by
  refine ⟨h.opened, ?_, h.hooks, h.position, ?_⟩
  · rw [Ledger.register_registered, h.registered, Shared.register, Shared.add]
  · rw [Ledger.register_log, h.log, h.registered, Shared.register, Shared.add]

theorem Fits.phase (h : Fits s l) (phase : ℕ → Phase ε ν) : Fits s { l with phase := phase } :=
  ⟨h.opened, h.registered, h.hooks, h.position, h.log⟩

theorem Fits.push (h : Fits s l) (tx : ℕ) (hook : Code ε ν) :
    Fits (s.push tx (s.registered, hook))
      { l with hooks := Function.update l.hooks tx (l.hooks tx ++ [l.registered]) } := by
  refine ⟨h.opened, h.registered, ?_, h.position, h.log⟩
  intro tx'
  by_cases heq : tx' = tx
  · subst heq
    simp [Shared.push, h.hooks, h.registered]
  · simp [Shared.push, heq, h.hooks]

theorem Fits.next (h : Fits s l) (tx : ℕ) :
    Fits { s with position := Function.update s.position tx (s.position tx + 1) }
      { l with position := Function.update l.position tx (l.position tx + 1) } := by
  refine ⟨h.opened, h.registered, h.hooks, ?_, h.log⟩
  intro tx'
  by_cases heq : tx' = tx
  · subst heq
    simp [h.position]
  · simp [heq, h.position]

theorem Fits.open (h : Fits s l) (hl : l.Phases) :
    Fits { s with
      opened := s.opened + 1
      hooks := Function.update s.hooks s.opened []
      position := Function.update s.position s.opened 0 } { l with opened := l.opened + 1 } := by
  obtain ⟨-, hhooks, hposition⟩ := hl.fresh s.opened h.opened.le
  refine ⟨by simp [h.opened], h.registered, ?_, ?_, h.log⟩
  · intro tx
    by_cases heq : tx = s.opened
    · subst heq
      simp [hhooks]
    · simp [heq, h.hooks]
  · intro tx
    by_cases heq : tx = s.opened
    · subst heq
      simp [hposition]
    · simp [heq, h.position]

end Fits

/-! ## Steps -/

/-- The ledger goes along with a step of a thread, among threads that answer for `rest`. -/
structure Simulated (rest : List (ℕ × Phase ε ν)) (l : Ledger ε ν) (outcome : Outcome ε ν)
    (l' : Ledger ε ν) : Prop where
  steps : Relation.ReflTransGen Ledger.Step l l'
  fits : Fits outcome.1 l'
  owns : Owns l'.opened l'.phase (outcome.2.1.roles ++ rest)
  store : Scoped l'.opened outcome.2.1.base outcome.2.1.context outcome.2.1.stack
  spawned : ∀ c ∈ outcome.2.2, c.roles = [] ∧ Scoped l'.opened c.base c.context c.stack
  opened_le : l.opened ≤ l'.opened

section Simulation

variable {s : Shared ε ν} {l : Ledger ε ν} {t : Thread ε ν} {rest : List (ℕ × Phase ε ν)}

theorem withAfterCommit_simulated (hl : l.Inv) (hfits : Fits s l) {transaction : Code ε ν}
    {next : Except ε ν → Code ε ν} (hcontrol : t.control = .run (.withAfterCommit transaction next))
    (howns : Owns l.opened l.phase (t.roles ++ rest))
    (hstore : Scoped l.opened t.base t.context t.stack) :
    ∃ l', Simulated rest l (withAfterCommit s t transaction next) l' := by
  have hopen := hfits.open hl.phases
  have hphase := (hl.phases.fresh l.opened le_rfl).1
  rw [withAfterCommit, ← hfits.opened]
  rw [← hfits.opened] at hopen
  refine ⟨_, .single (.opened l), ?_, ?_, ?_, ?_, ?_⟩
  · exact hopen.add _
  · have hroles := howns.open hphase
    rw [Thread.roles, hcontrol] at hroles
    exact hroles
  · exact ⟨rfl, Nat.lt_succ_self _, hstore.mono (Nat.le_succ _)⟩
  · simp
  · exact Nat.le_succ _

theorem afterCommit_simulated (hfits : Fits s l) {sync : Bool} {hook : Code ε ν}
    {next : Except ε Unit → Code ε ν} (hcontrol : t.control = .run (.afterCommit sync hook next))
    (howns : Owns l.opened l.phase (t.roles ++ rest))
    (hstore : Scoped l.opened t.base t.context t.stack) :
    ∃ l', Simulated rest l (afterCommit s t sync hook next) l' := by
  obtain ⟨context, base, control, stack⟩ := t
  obtain rfl : control = _ := hcontrol
  rw [afterCommit, ← hstore.context_eq]
  cases context with
  | some tx =>
      refine ⟨_, .single (.registered l tx (hstore.lt rfl)), ?_, howns, hstore, ?_, le_rfl⟩
      · exact (hfits.push tx hook).register _
      · simp
  | none =>
      have hcalled := (hfits.register none).add (.started l.registered)
      rw [← hfits.registered]
      cases sync with
      | true => exact ⟨_, .single (.alone l), hcalled, howns, hstore, by simp, le_rfl⟩
      | false =>
          refine ⟨_, .tail (.single (.alone l)) (.answered _ l.registered (.ok ())),
            hcalled.add _, howns, hstore, ?_, le_rfl⟩
          simp [Thread.roles, Control.roles, Scoped]

theorem nextHook_simulated (hfits : Fits s l) {tx : ℕ} {v : ν}
    {next : Except ε ν → Code ε ν} (hcontrol : t.control = .loop tx v next)
    (howns : Owns l.opened l.phase (t.roles ++ rest))
    (hstore : Scoped l.opened t.base t.context t.stack) :
    ∃ l', Simulated rest l (nextHook s t tx v next) l' := by
  have hroles : Owns l.opened l.phase ((tx, .settled (.ok v)) ::
      (t.stack.flatMap Frame.roles ++ rest)) := by
    rw [Thread.roles, hcontrol] at howns
    exact howns
  obtain ⟨htx, hphase⟩ := hroles.mem tx _ (List.mem_cons_self ..)
  rw [nextHook]
  cases hhook : (s.hooks tx)[s.position tx]? with
  | some entry =>
      have hnext : (l.hooks tx)[l.position tx]? = some entry.1 := by
        simp [hfits.hooks, hfits.position, hhook]
      refine ⟨_, .single (.started l tx v entry.1 htx hphase hnext), ?_, hroles, hstore, ?_, le_rfl⟩
      · exact (hfits.next tx).add _
      · simp
  | none =>
      have hdone : (l.hooks tx).length ≤ l.position tx := by
        rw [hfits.hooks, hfits.position, List.length_map]
        exact List.getElem?_eq_none_iff.1 hhook
      refine ⟨_, .single (.returned l tx (.ok v) htx hphase fun _ _ => hdone), ?_,
        hroles.returned (.ok v), hstore, ?_, le_rfl⟩
      · exact (hfits.phase _).add _
      · simp

theorem settle_simulated (hfits : Fits s l) {r : Except ε ν} {outcome : Outcome ε ν}
    (hcontrol : t.control = .run (.settle r)) (howns : Owns l.opened l.phase (t.roles ++ rest))
    (hstore : Scoped l.opened t.base t.context t.stack) (h : settle s t r = some outcome) :
    ∃ l', Simulated rest l outcome l' := by
  rw [Thread.roles, hcontrol] at howns
  rw [settle] at h
  cases hstack : t.stack with
  | nil => simp [hstack] at h
  | cons frame stack =>
      rw [hstack] at h hstore howns
      cases frame with
      | transaction tx outer next =>
          obtain ⟨htx, hphase⟩ := howns.mem tx .running (List.mem_cons_self ..)
          obtain ⟨-, -, houter⟩ := hstore
          cases r with
          | ok v =>
              simp only [Option.some.injEq] at h
              subst h
              refine ⟨_, .single (.settled l tx (.ok v) htx hphase), ?_,
                Owns.update howns (.settled (.ok v)), houter, ?_, le_rfl⟩
              · exact (hfits.phase _).add _
              · simp
          | error e =>
              simp only [Option.some.injEq] at h
              subst h
              refine ⟨_, .tail (.single (.settled l tx (.error e) htx hphase))
                (.returned _ tx (.error e) htx (by simp) (by simp)), ?_, ?_, houter, ?_, le_rfl⟩
              · exact (((hfits.phase _).add _).phase _).add _
              · exact (Owns.update howns (.settled (.error e))).returned (.error e)
              · simp
      | hook tx v next =>
          simp only [Option.some.injEq] at h
          subst h
          exact ⟨l, .refl, hfits, howns, hstore, by simp, le_rfl⟩
      | immediate hook next =>
          simp only [Option.some.injEq] at h
          subst h
          exact ⟨_, .single (.answered l hook _), hfits.add _, howns, hstore, by simp, le_rfl⟩

theorem advance_simulated (hl : l.Inv) (hfits : Fits s l) {outcome : Outcome ε ν}
    (howns : Owns l.opened l.phase (t.roles ++ rest))
    (hstore : Scoped l.opened t.base t.context t.stack) (h : advance s t = some outcome) :
    ∃ l', Simulated rest l outcome l' := by
  rw [advance] at h
  cases hcontrol : t.control with
  | run code =>
      cases code with
      | settle r => exact settle_simulated hfits hcontrol howns hstore (by simpa [hcontrol] using h)
      | afterCommit sync hook next =>
          simp only [hcontrol, Option.some.injEq] at h
          subst h
          exact afterCommit_simulated hfits hcontrol howns hstore
      | withAfterCommit transaction next =>
          simp only [hcontrol, Option.some.injEq] at h
          subst h
          exact withAfterCommit_simulated hl hfits hcontrol howns hstore
      | spawn child next =>
          simp only [hcontrol, Option.some.injEq] at h
          subst h
          rw [Thread.roles, hcontrol] at howns
          refine ⟨l, .refl, hfits, howns, hstore, ?_, le_rfl⟩
          simp [Thread.roles, Control.roles, Scoped]
          intro tx htx
          exact hstore.lt htx
  | loop tx v next =>
      simp only [hcontrol, Option.some.injEq] at h
      subst h
      exact nextHook_simulated hfits hcontrol howns hstore

end Simulation

/-! ## Runs -/

structure Matches (state : State ε ν) (l : Ledger ε ν) : Prop where
  fits : Fits state.shared l
  owns : Owns l.opened l.phase (state.threads.flatMap Thread.roles)
  store : ∀ t ∈ state.threads, Scoped l.opened t.base t.context t.stack

section Runs

variable {main : Code ε ν} {moved : List (Thread ε ν)} {state state' : State ε ν} {t : Thread ε ν}
  {l : Ledger ε ν}

theorem matches_initial (main : Code ε ν) : Matches (initial main) Ledger.initial := by
  refine ⟨⟨rfl, rfl, fun _ => rfl, fun _ => rfl, rfl⟩, ⟨?_, ?_, ?_⟩, ?_⟩ <;>
    simp [initial, Ledger.initial, Thread.roles, Control.roles, Scoped]

theorem Matches.step (h : Matches state l) (hl : l.Inv) (hstep : Step t state state') :
    ∃ l', Relation.ReflTransGen Ledger.Step l l' ∧ Matches state' l' := by
  obtain ⟨before, after, hadvance⟩ := hstep
  obtain ⟨hfits, howns, hstore⟩ := h
  have hmiddle : (before ++ t :: after).Perm (t :: (before ++ after)) := List.perm_middle
  have hperm := hmiddle.flatMap_right Thread.roles
  rw [List.flatMap_cons] at hperm
  obtain ⟨l', hsim⟩ := advance_simulated hl hfits (howns.perm hperm) (hstore t (by simp)) hadvance
  rename_i t' spawned
  refine ⟨l', hsim.steps, hsim.fits, ?_, ?_⟩
  · have hspawned : spawned.flatMap Thread.roles = [] := by
      rw [List.flatMap_eq_nil_iff]
      exact fun c hc => (hsim.spawned c hc).1
    apply hsim.owns.perm
    apply List.Perm.symm
    have hmiddle' : (before ++ t' :: after).Perm (t' :: (before ++ after)) := List.perm_middle
    simpa [hspawned] using hmiddle'.flatMap_right Thread.roles
  · intro c hc
    rcases List.mem_append.1 hc with hbefore | hrest
    · exact (hstore c (by simp [hbefore])).mono hsim.opened_le
    · rcases List.mem_cons.1 hrest with rfl | hmem
      · exact hsim.store
      · rcases List.mem_append.1 hmem with hafter | hnew
        · exact (hstore c (by simp [hafter])).mono hsim.opened_le
        · exact (hsim.spawned c hnew).2

theorem Run.exists_ledger (h : Run main moved state) :
    ∃ l, Relation.ReflTransGen Ledger.Step .initial l ∧ Matches state l := by
  induction h with
  | initial => exact ⟨_, .refl, matches_initial main⟩
  | step _ t hstep ih =>
      obtain ⟨l, hsteps, hmatches⟩ := ih
      obtain ⟨l', hsteps', hmatches'⟩ := hmatches.step (Ledger.inv_of_steps hsteps) hstep
      exact ⟨l', hsteps.trans hsteps', hmatches'⟩

theorem Run.kept (h : Run main moved state) : Kept state.shared.log := by
  obtain ⟨l, hsteps, hmatches⟩ := h.exists_ledger
  rw [← hmatches.fits.log]
  exact (Ledger.inv_of_steps hsteps).kept

def State.Quiescent (state : State ε ν) : Prop :=
  ∀ t ∈ state.threads, advance state.shared t = none

theorem roles_of_advance {s : Shared ε ν} (h : advance s t = none) : t.roles = [] := by
  rw [advance] at h
  rw [Thread.roles]
  cases hcontrol : t.control with
  | run code =>
      cases code <;> simp [hcontrol] at h
      rw [settle] at h
      cases hstack : t.stack with
      | nil => rfl
      | cons frame stack =>
          rw [hstack] at h
          cases frame <;> simp at h
          split at h <;> simp at h
  | loop tx v next => simp [hcontrol] at h

theorem Run.finished (h : Run main moved state) (hquiescent : state.Quiescent) :
    Finished state.shared.log := by
  obtain ⟨l, hsteps, hmatches⟩ := h.exists_ledger
  have hphases := (Ledger.inv_of_steps hsteps).phases
  have hroles : state.threads.flatMap Thread.roles = [] := by
    rw [List.flatMap_eq_nil_iff]
    exact fun t ht => roles_of_advance (hquiescent t ht)
  have hkept := h.kept
  rw [← hmatches.fits.log] at hkept ⊢
  have hphase : ∀ tx, tx < l.opened → ∃ r, l.phase tx = .returned r := by
    intro tx htx
    simpa [hroles] using hmatches.owns.owned tx htx
  have hreturned : ∀ tx r, .settled tx r ∈ l.log → .returned tx r ∈ l.log := by
    intro tx r hsettled
    have hlt : tx < l.opened := by
      by_contra hge
      have hfresh := (hphases.fresh tx (not_lt.1 hge)).1
      simp [hphases.settled, hfresh] at hsettled
    obtain ⟨r', hr'⟩ := hphase tx hlt
    have hsettled' := (hphases.settled tx r').2 (.inr hr')
    rw [hkept.settled_once tx r r' hsettled hsettled']
    exact (hphases.returned tx r').2 hr'
  constructor
  · intro tx hopened
    obtain ⟨r, hr⟩ := hphase tx ((hphases.opened tx).1 hopened)
    exact ⟨r, (hphases.settled tx r).2 (.inr hr)⟩
  · exact hreturned
  · intro tx v hook hsettled hearly
    exact hkept.ran tx v hook (hreturned tx _ hsettled) hearly

/-! ## Failures that reach the caller -/

/-- The thread ends a synchronous hook that was called outside of transactions with an error. -/
def Thread.throws (t : Thread ε ν) : Bool :=
  match t.control, t.stack with
  | .run (.settle (.error _)), .immediate _ _ :: _ => true
  | _, _ => false

theorem spared_append {log more : List (Event ε ν)} :
    Spared (log ++ more) ↔ Spared log ∧ Spared more := by
  simp only [Spared, List.mem_append]
  constructor
  · intro h
    exact ⟨fun hook answer hmem => h hook answer (.inl hmem),
      fun hook answer hmem => h hook answer (.inr hmem)⟩
  · rintro ⟨hlog, hmore⟩ hook answer (hmem | hmem)
    · exact hlog hook answer hmem
    · exact hmore hook answer hmem

theorem add_spared {s : Shared ε ν} {event : Event ε ν} :
    Spared (s.add event).log ↔
      Spared s.log ∧ ∀ hook answer, event = .answered hook answer → answer = .ok () := by
  rw [Shared.add, spared_append]
  simp [Spared, eq_comm]

theorem settle_spared {s : Shared ε ν} {r : Except ε ν} {outcome : Outcome ε ν}
    (hcontrol : t.control = .run (.settle r)) (h : settle s t r = some outcome) :
    Spared outcome.1.log ↔ Spared s.log ∧ t.throws = false := by
  rw [settle] at h
  cases hstack : t.stack with
  | nil => simp [hstack] at h
  | cons frame stack =>
      rw [hstack] at h
      cases frame with
      | transaction tx outer next =>
          cases r <;> simp at h <;> subst h <;>
            simp [Thread.throws, hcontrol, hstack, add_spared]
      | hook tx v next =>
          simp at h
          subst h
          simp [Thread.throws, hcontrol, hstack]
      | immediate hook next =>
          simp at h
          subst h
          cases r <;> simp [Thread.throws, hstack, hcontrol, add_spared, Except.map]

/-- A thread answers an error when it throws, and only then. -/
theorem advance_spared {s : Shared ε ν} {outcome : Outcome ε ν} (h : advance s t = some outcome) :
    Spared outcome.1.log ↔ Spared s.log ∧ t.throws = false := by
  rw [advance] at h
  cases hcontrol : t.control with
  | run code =>
      cases code with
      | settle r => exact settle_spared hcontrol (by simpa [hcontrol] using h)
      | afterCommit sync hook next =>
          simp only [hcontrol, Option.some.injEq] at h
          subst h
          rw [afterCommit]
          cases t.context with
          | some tx => simp [Thread.throws, hcontrol, Shared.register, Shared.push, add_spared]
          | none => cases sync <;> simp [Thread.throws, hcontrol, Shared.register, add_spared]
      | withAfterCommit transaction next =>
          simp only [hcontrol, Option.some.injEq] at h
          subst h
          simp [Thread.throws, hcontrol, withAfterCommit, add_spared]
      | spawn child next =>
          simp only [hcontrol, Option.some.injEq] at h
          subst h
          simp [Thread.throws, hcontrol]
  | loop tx v next =>
      simp only [hcontrol, Option.some.injEq] at h
      subst h
      rw [nextHook]
      split <;> simp [Thread.throws, hcontrol, add_spared]

theorem Run.spared_iff (h : Run main moved state) :
    Spared state.shared.log ↔ ∀ t ∈ moved, t.throws = false := by
  induction h with
  | initial => simp [Spared, AfterCommit.initial]
  | step _ t hstep ih =>
      obtain ⟨before, after, hadvance⟩ := hstep
      rw [advance_spared hadvance, ih]
      simp [and_comm]

end Runs

end WhatStore.AfterCommit
