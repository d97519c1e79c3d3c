import Mathlib.Data.List.Nodup
import Mathlib.Data.List.Range
import Mathlib.Logic.Relation

/-!
# What is promised of after-commit hooks

The events of transactions and their hooks, the promise about the log of them, and a
ledger of the transactions: what it allows to happen next keeps the promise.
-/

namespace WhatStore.AfterCommit

/-! ## Logs -/

section Preceded

variable {α : Type*} {p : α → Prop} {b e : α} {log more : List α}

/-- Wherever `b` is in the log, something with `p` is before it. -/
def Preceded (p : α → Prop) (b : α) (log : List α) : Prop :=
  ∀ before after, log = before ++ b :: after → ∃ a ∈ before, p a

theorem Preceded.of_notMem (h : b ∉ log) : Preceded p b log := by
  intro before after hlog
  simp [hlog] at h

theorem Preceded.exists_mem (h : Preceded p b log) (hb : b ∈ log) : ∃ a ∈ log, p a := by
  obtain ⟨before, after, rfl⟩ := List.append_of_mem hb
  obtain ⟨a, ha, hp⟩ := h before after rfl
  exact ⟨a, by simp [ha], hp⟩

theorem Preceded.of_append (h : Preceded p b (log ++ more)) : Preceded p b log := by
  intro before after hlog
  apply h before (after ++ more)
  simp [hlog]

theorem Preceded.concat (h : Preceded p b log) (he : e = b → ∃ a ∈ log, p a) :
    Preceded p b (log ++ [e]) := by
  intro before after hlog
  rcases List.eq_nil_or_concat after with rfl | ⟨after', c, rfl⟩
  · obtain ⟨rfl, heq⟩ := List.append_inj' hlog rfl
    exact he (by simpa using heq)
  · have hsplit : log ++ [e] = (before ++ b :: after') ++ [c] := by simpa using hlog
    exact h before after' (List.append_inj' hsplit rfl).1

end Preceded

/-- What happens to the calls of `withAfterCommit` and of `afterCommit`, numbered as they come. -/
inductive Event (ε ν : Type*) where
  | opened (tx : ℕ)
  | settled (tx : ℕ) (result : Except ε ν)
  | returned (tx : ℕ) (result : Except ε ν)
  | registered (hook : ℕ) (enclosing : Option ℕ)
  | started (hook : ℕ)
  | answered (hook : ℕ) (answer : Except ε Unit)
  deriving DecidableEq

variable {ε ν : Type*} {log : List (Event ε ν)}

def Event.start? : Event ε ν → Option ℕ
  | .started hook => some hook
  | _ => none

def Event.registration? : Event ε ν → Option (ℕ × Option ℕ)
  | .registered hook enclosing => some (hook, enclosing)
  | _ => none

def starts (log : List (Event ε ν)) : List ℕ := log.filterMap Event.start?

def registrations (log : List (Event ε ν)) : List (ℕ × Option ℕ) :=
  log.filterMap Event.registration?

/-- Every hook of a transaction that resolved is called once, one of a transaction that rejected
never; a transaction's hooks are called after it, in the order in which they were registered. -/
structure Kept (log : List (Event ε ν)) : Prop where
  once : ∀ hook, (starts log).count hook ≤ 1
  ran : ∀ tx v hook, .returned tx (.ok v) ∈ log →
    Preceded (· = .registered hook (some tx)) (.settled tx (.ok v)) log →
      (starts log).count hook = 1
  never : ∀ tx e hook, .settled tx (.error e) ∈ log → .registered hook (some tx) ∈ log →
    hook ∉ starts log
  after : ∀ tx hook, .registered hook (some tx) ∈ log →
    Preceded (fun event => ∃ v, event = .settled tx (.ok v)) (.started hook) log
  order : ∀ tx hook hook', .registered hook' (some tx) ∈ log →
    Preceded (· = .registered hook (some tx)) (.registered hook' (some tx)) log →
      Preceded (· = .started hook) (.started hook') log
  result : ∀ tx r, .returned tx r ∈ log → .settled tx r ∈ log
  settled_once : ∀ tx r r', .settled tx r ∈ log → .settled tx r' ∈ log → r = r'
  alone : ∀ hook, .registered hook none ∈ log → (starts log).count hook = 1

def Spared (log : List (Event ε ν)) : Prop :=
  ∀ hook answer, .answered hook answer ∈ log → answer = .ok ()

/-- Every transaction has settled, its hooks have been called if it resolved, and its call has
returned. -/
structure Finished (log : List (Event ε ν)) : Prop where
  settled : ∀ tx, .opened tx ∈ log → ∃ r, .settled tx r ∈ log
  returned : ∀ tx r, .settled tx r ∈ log → .returned tx r ∈ log
  ran : ∀ tx v hook, .settled tx (.ok v) ∈ log →
    Preceded (· = .registered hook (some tx)) (.settled tx (.ok v)) log →
      (starts log).count hook = 1

@[simp] theorem starts_append (log more : List (Event ε ν)) :
    starts (log ++ more) = starts log ++ starts more := List.filterMap_append

@[simp] theorem registrations_append (log more : List (Event ε ν)) :
    registrations (log ++ more) = registrations log ++ registrations more :=
  List.filterMap_append

@[simp] theorem starts_nil : starts ([] : List (Event ε ν)) = [] := rfl

@[simp] theorem starts_registered (hook : ℕ) (enclosing : Option ℕ) (log : List (Event ε ν)) :
    starts (.registered hook enclosing :: log) = starts log := rfl

@[simp] theorem starts_started (hook : ℕ) (log : List (Event ε ν)) :
    starts (.started hook :: log) = hook :: starts log := rfl

@[simp] theorem registrations_nil : registrations ([] : List (Event ε ν)) = [] := rfl

@[simp] theorem registrations_registered (hook : ℕ) (enclosing : Option ℕ)
    (log : List (Event ε ν)) :
    registrations (.registered hook enclosing :: log) = (hook, enclosing) :: registrations log :=
  rfl

@[simp] theorem registrations_started (hook : ℕ) (log : List (Event ε ν)) :
    registrations (.started hook :: log) = registrations log := rfl

theorem mem_starts {hook : ℕ} : hook ∈ starts log ↔ .started hook ∈ log := by
  rw [starts, List.mem_filterMap]
  constructor
  · rintro ⟨event, hmem, hevent⟩
    cases event <;> simp_all [Event.start?]
  · intro h
    exact ⟨_, h, rfl⟩

theorem mem_registrations {hook : ℕ} {enclosing : Option ℕ} :
    (hook, enclosing) ∈ registrations log ↔ .registered hook enclosing ∈ log := by
  rw [registrations, List.mem_filterMap]
  constructor
  · rintro ⟨event, hmem, hevent⟩
    cases event <;> simp_all [Event.registration?]
  · intro h
    exact ⟨_, h, rfl⟩

/-! ## The ledger -/

inductive Phase (ε ν : Type*) where
  | running
  | settled (result : Except ε ν)
  | returned (result : Except ε ν)

/-- The transactions, how far they are, their hooks in the order of registration, and how many
of them have been called. -/
structure Ledger (ε ν : Type*) where
  opened : ℕ
  registered : ℕ
  phase : ℕ → Phase ε ν
  hooks : ℕ → List ℕ
  position : ℕ → ℕ
  log : List (Event ε ν)

namespace Ledger

def initial : Ledger ε ν where
  opened := 0
  registered := 0
  phase _ := .running
  hooks _ := []
  position _ := 0
  log := []

def add (l : Ledger ε ν) (event : Event ε ν) : Ledger ε ν := { l with log := l.log ++ [event] }

def register (l : Ledger ε ν) (enclosing : Option ℕ) : Ledger ε ν :=
  { l with registered := l.registered + 1 }.add (.registered l.registered enclosing)

@[simp] theorem add_log (l : Ledger ε ν) (event : Event ε ν) :
    (l.add event).log = l.log ++ [event] := rfl

@[simp] theorem add_registered (l : Ledger ε ν) (event : Event ε ν) :
    (l.add event).registered = l.registered := rfl

@[simp] theorem add_hooks (l : Ledger ε ν) (event : Event ε ν) :
    (l.add event).hooks = l.hooks := rfl

@[simp] theorem add_position (l : Ledger ε ν) (event : Event ε ν) :
    (l.add event).position = l.position := rfl

@[simp] theorem add_opened (l : Ledger ε ν) (event : Event ε ν) :
    (l.add event).opened = l.opened := rfl

@[simp] theorem add_phase (l : Ledger ε ν) (event : Event ε ν) :
    (l.add event).phase = l.phase := rfl

@[simp] theorem register_opened (l : Ledger ε ν) (enclosing : Option ℕ) :
    (l.register enclosing).opened = l.opened := rfl

@[simp] theorem register_phase (l : Ledger ε ν) (enclosing : Option ℕ) :
    (l.register enclosing).phase = l.phase := rfl

@[simp] theorem register_log (l : Ledger ε ν) (enclosing : Option ℕ) :
    (l.register enclosing).log = l.log ++ [.registered l.registered enclosing] := rfl

@[simp] theorem register_registered (l : Ledger ε ν) (enclosing : Option ℕ) :
    (l.register enclosing).registered = l.registered + 1 := rfl

@[simp] theorem register_hooks (l : Ledger ε ν) (enclosing : Option ℕ) :
    (l.register enclosing).hooks = l.hooks := rfl

@[simp] theorem register_position (l : Ledger ε ν) (enclosing : Option ℕ) :
    (l.register enclosing).position = l.position := rfl

inductive Step : Ledger ε ν → Ledger ε ν → Prop
  | opened (l : Ledger ε ν) : Step l ({ l with opened := l.opened + 1 }.add (.opened l.opened))
  | registered (l : Ledger ε ν) (tx : ℕ) (htx : tx < l.opened) :
      Step l ({ l with hooks := Function.update l.hooks tx (l.hooks tx ++ [l.registered]) }.register
        (some tx))
  | alone (l : Ledger ε ν) : Step l ((l.register none).add (.started l.registered))
  | settled (l : Ledger ε ν) (tx : ℕ) (r : Except ε ν) (htx : tx < l.opened)
      (hphase : l.phase tx = .running) :
      Step l ({ l with phase := Function.update l.phase tx (.settled r) }.add (.settled tx r))
  | started (l : Ledger ε ν) (tx : ℕ) (v : ν) (hook : ℕ) (htx : tx < l.opened)
      (hphase : l.phase tx = .settled (.ok v)) (hhook : (l.hooks tx)[l.position tx]? = some hook) :
      Step l ({ l with position := Function.update l.position tx (l.position tx + 1) }.add
        (.started hook))
  | returned (l : Ledger ε ν) (tx : ℕ) (r : Except ε ν) (htx : tx < l.opened)
      (hphase : l.phase tx = .settled r)
      (hdone : ∀ v, r = .ok v → (l.hooks tx).length ≤ l.position tx) :
      Step l ({ l with phase := Function.update l.phase tx (.returned r) }.add (.returned tx r))
  | answered (l : Ledger ε ν) (hook : ℕ) (answer : Except ε Unit) :
      Step l (l.add (.answered hook answer))

/-- What the ledger says of the hooks in the log. -/
structure Queues (l : Ledger ε ν) : Prop where
  registered_eq : (registrations l.log).map Prod.fst = List.range l.registered
  hooks_eq : ∀ tx, l.hooks tx =
    ((registrations l.log).filter fun r => r.2 = some tx).map Prod.fst
  position_le : ∀ tx, l.position tx ≤ (l.hooks tx).length
  starts_nodup : (starts l.log).Nodup
  starts_iff : ∀ hook, hook ∈ starts l.log ↔
    (hook, none) ∈ registrations l.log ∨ ∃ tx, hook ∈ (l.hooks tx).take (l.position tx)
  order : ∀ (tx i j hook hook' : ℕ), i < j → (l.hooks tx)[i]? = some hook →
    (l.hooks tx)[j]? = some hook' → Preceded (· = .started hook) (.started hook') l.log
  after : ∀ tx, ∀ hook ∈ l.hooks tx,
    Preceded (fun event => ∃ v, event = .settled tx (.ok v)) (.started hook) l.log

/-- What the ledger says of the transactions in the log. -/
structure Phases (l : Ledger ε ν) : Prop where
  fresh : ∀ tx, l.opened ≤ tx → l.phase tx = .running ∧ l.hooks tx = [] ∧ l.position tx = 0
  opened : ∀ tx, .opened tx ∈ l.log ↔ tx < l.opened
  settled : ∀ tx r, .settled tx r ∈ l.log ↔ l.phase tx = .settled r ∨ l.phase tx = .returned r
  returned : ∀ tx r, .returned tx r ∈ l.log ↔ l.phase tx = .returned r
  called : ∀ tx, 0 < l.position tx → ∃ v, .settled tx (.ok v) ∈ l.log

/-- Hooks registered before a transaction settled have been called when its call returns. -/
def Served (l : Ledger ε ν) : Prop :=
  ∀ tx v hook, .returned tx (.ok v) ∈ l.log →
    Preceded (· = .registered hook (some tx)) (.settled tx (.ok v)) l.log → hook ∈ starts l.log

section Steps

variable {l : Ledger ε ν}

/-! ### Hooks -/

theorem Queues.fst_lt (h : Queues l) {hook : ℕ} {enclosing : Option ℕ}
    (hmem : (hook, enclosing) ∈ registrations l.log) : hook < l.registered := by
  have hfst := List.mem_map_of_mem (f := Prod.fst) hmem
  rw [h.registered_eq] at hfst
  exact List.mem_range.1 hfst

theorem Queues.mem_hooks (h : Queues l) {tx hook : ℕ} :
    hook ∈ l.hooks tx ↔ (hook, some tx) ∈ registrations l.log := by
  rw [h.hooks_eq]
  simp

theorem Queues.hooks_lt (h : Queues l) {tx hook : ℕ} (hmem : hook ∈ l.hooks tx) :
    hook < l.registered := h.fst_lt (h.mem_hooks.1 hmem)

theorem Queues.starts_lt (h : Queues l) {hook : ℕ} (hmem : hook ∈ starts l.log) :
    hook < l.registered := by
  rcases (h.starts_iff hook).1 hmem with hnone | ⟨tx, htake⟩
  · exact h.fst_lt hnone
  · exact h.hooks_lt (List.mem_of_mem_take htake)

theorem Queues.not_started (h : Queues l) : .started l.registered ∉ l.log := by
  intro hmem
  exact lt_irrefl _ (h.starts_lt (mem_starts.2 hmem))

theorem Queues.unique (h : Queues l) {hook : ℕ} {enclosing enclosing' : Option ℕ}
    (hmem : (hook, enclosing) ∈ registrations l.log)
    (hmem' : (hook, enclosing') ∈ registrations l.log) : enclosing = enclosing' := by
  have hnodup : ((registrations l.log).map Prod.fst).Nodup := by
    rw [h.registered_eq]
    exact List.nodup_range
  have hinj := List.inj_on_of_nodup_map hnodup hmem hmem' rfl
  exact congrArg Prod.snd hinj

theorem Queues.hooks_nodup (h : Queues l) (tx : ℕ) : (l.hooks tx).Nodup := by
  have hnodup : ((registrations l.log).map Prod.fst).Nodup := by
    rw [h.registered_eq]
    exact List.nodup_range
  rw [h.hooks_eq]
  exact hnodup.sublist (List.filter_sublist.map _)

theorem Queues.silent (h : Queues l) {l' : Ledger ε ν} {event : Event ε ν}
    (hlog : l'.log = l.log ++ [event]) (hregistered : l'.registered = l.registered)
    (hhooks : l'.hooks = l.hooks) (hposition : l'.position = l.position)
    (hregistration : event.registration? = none) (hstart : event.start? = none) : Queues l' := by
  have hregistrations : registrations l'.log = registrations l.log := by
    simp [hlog, registrations, hregistration]
  have hstarts : starts l'.log = starts l.log := by
    simp [hlog, starts, hstart]
  have hne : ∀ hook, event ≠ .started hook := by
    rintro hook rfl
    simp [Event.start?] at hstart
  constructor
  · rw [hregistrations, hregistered, h.registered_eq]
  · rw [hregistrations, hhooks]
    exact h.hooks_eq
  · rw [hhooks, hposition]
    exact h.position_le
  · rw [hstarts]
    exact h.starts_nodup
  · rw [hregistrations, hstarts, hhooks, hposition]
    exact h.starts_iff
  · intro tx i j hook hook' hij hi hj
    rw [hhooks] at hi hj
    rw [hlog]
    exact (h.order tx i j hook hook' hij hi hj).concat fun heq => absurd heq (hne _)
  · intro tx hook hmem
    rw [hhooks] at hmem
    rw [hlog]
    exact (h.after tx hook hmem).concat fun heq => absurd heq (hne _)

theorem Queues.registered (h : Queues l) (tx : ℕ) :
    Queues (({ l with hooks := Function.update l.hooks tx (l.hooks tx ++ [l.registered]) } :
      Ledger ε ν).register (some tx)) := by
  have hgrow : ∀ tx', Function.update l.hooks tx (l.hooks tx ++ [l.registered]) tx' =
      l.hooks tx' ++ if tx' = tx then [l.registered] else [] := by
    intro tx'
    by_cases heq : tx' = tx
    · subst heq
      simp
    · simp [heq]
  constructor
  · simp [List.range_succ, h.registered_eq]
  · intro tx'
    simp only [register_hooks, register_log, hgrow, registrations_append]
    by_cases heq : tx' = tx
    · subst heq
      simp [← h.hooks_eq]
    · simp [heq, Ne.symm heq, ← h.hooks_eq]
  · intro tx'
    have hle := h.position_le tx'
    simp only [register_hooks, register_position, hgrow, List.length_append]
    omega
  · simpa using h.starts_nodup
  · intro hook
    simp only [register_hooks, register_position, register_log, hgrow, registrations_append,
      starts_append, List.take_append_of_le_length (h.position_le _)]
    simpa using h.starts_iff hook
  · intro tx' i j hook hook' hij hi hj
    simp only [register_hooks, hgrow] at hi hj
    rw [register_log]
    by_cases hlt : j < (l.hooks tx').length
    · rw [List.getElem?_append_left hlt] at hj
      rw [List.getElem?_append_left (hij.trans hlt)] at hi
      exact (h.order tx' i j hook hook' hij hi hj).concat (by simp)
    · rw [List.getElem?_append_right (not_lt.1 hlt)] at hj
      have heq : hook' = l.registered := by
        split at hj <;> simp_all [List.getElem?_singleton]
      subst heq
      exact (Preceded.of_notMem h.not_started).concat (by simp)
  · intro tx' hook hmem
    simp only [register_hooks, hgrow, List.mem_append] at hmem
    rw [register_log]
    rcases hmem with hmem | hmem
    · exact (h.after tx' hook hmem).concat (by simp)
    · have heq : hook = l.registered := by
        split at hmem <;> simp_all
      subst heq
      exact (Preceded.of_notMem h.not_started).concat (by simp)

theorem Queues.alone (h : Queues l) :
    Queues ((l.register none).add (.started l.registered)) := by
  have hfresh : l.registered ∉ starts l.log := by
    rw [mem_starts]
    exact h.not_started
  constructor
  · simp [List.range_succ, h.registered_eq]
  · intro tx
    simp [h.hooks_eq tx]
  · exact h.position_le
  · simpa [List.nodup_append, h.starts_nodup] using fun hook hmem (heq : hook = l.registered) =>
      hfresh (heq ▸ hmem)
  · intro hook
    have hstarts := h.starts_iff hook
    simp [hstarts]
    tauto
  · intro tx i j hook hook' hij hi hj
    have hlt := h.hooks_lt (List.mem_of_getElem? hj)
    have hold := h.order tx i j hook hook' hij hi hj
    rw [add_log, register_log]
    exact (hold.concat (by simp)).concat fun heq => by
      simp at heq
      omega
  · intro tx hook hmem
    have hlt := h.hooks_lt hmem
    have hold := h.after tx hook hmem
    rw [add_log, register_log]
    exact (hold.concat (by simp)).concat fun heq => by
      simp at heq
      omega

theorem Queues.started (h : Queues l) {tx hook : ℕ} {v : ν}
    (hsettled : .settled tx (.ok v) ∈ l.log) (hhook : (l.hooks tx)[l.position tx]? = some hook) :
    Queues (({ l with position := Function.update l.position tx (l.position tx + 1) } :
      Ledger ε ν).add (.started hook)) := by
  obtain ⟨hlt, hget⟩ := List.getElem?_eq_some_iff.1 hhook
  have hmem : hook ∈ l.hooks tx := List.mem_of_getElem? hhook
  have htake : ∀ hook', hook' ∈ (l.hooks tx).take (l.position tx) → hook' ≠ hook := by
    intro hook' htake heq
    subst heq
    obtain ⟨i, hi, heq⟩ := List.mem_take_iff_getElem.1 htake
    have hindex := (List.getElem?_inj hlt (h.hooks_nodup tx)).1
      (hhook.trans (List.getElem?_eq_some_iff.2 ⟨by omega, heq⟩).symm)
    omega
  have hfresh : hook ∉ starts l.log := by
    rw [h.starts_iff]
    rintro (hnone | ⟨tx', htake'⟩)
    · have heq := h.unique hnone (h.mem_hooks.1 hmem)
      simp at heq
    · have heq := h.unique (h.mem_hooks.1 (List.mem_of_mem_take htake')) (h.mem_hooks.1 hmem)
      obtain rfl : tx' = tx := by simpa using heq
      exact htake hook htake' rfl
  constructor
  · simpa using h.registered_eq
  · intro tx'
    simpa using h.hooks_eq tx'
  · intro tx'
    by_cases heq : tx' = tx
    · subst heq
      simp
      omega
    · simpa [heq] using h.position_le tx'
  · simpa [List.nodup_append, h.starts_nodup] using fun hook' hmem' (heq : hook' = hook) =>
      hfresh (heq ▸ hmem')
  · intro hook'
    have hstarts := h.starts_iff hook'
    have hgrow : ∀ tx', (l.hooks tx').take (Function.update l.position tx (l.position tx + 1) tx') =
        (l.hooks tx').take (l.position tx') ++ if tx' = tx then [hook] else [] := by
      intro tx'
      by_cases heq : tx' = tx
      · subst heq
        simp [List.take_add_one, hhook]
      · simp [heq]
    have hnext : (∃ tx', hook' ∈ if tx' = tx then [hook] else []) ↔ hook' = hook := by
      constructor
      · rintro ⟨tx', hmem'⟩
        split at hmem' <;> simp_all
      · intro heq
        exact ⟨tx, by simp [heq]⟩
    simp [hstarts, hgrow, exists_or, or_assoc]
  · intro tx' i j first second hij hi hj
    have hold := h.order tx' i j first second hij hi hj
    rw [add_log]
    apply hold.concat
    intro heq
    obtain rfl : hook = second := by simpa using heq
    have htx := h.unique (h.mem_hooks.1 (List.mem_of_getElem? hj)) (h.mem_hooks.1 hmem)
    obtain rfl : tx' = tx := by simpa using htx
    have hindex := (List.getElem?_inj hlt (h.hooks_nodup tx')).1 (hhook.trans hj.symm)
    subst hindex
    have hfirst : first ∈ starts l.log := by
      rw [h.starts_iff]
      exact .inr ⟨tx', List.mem_take_iff_getElem.2 (by
        obtain ⟨hi_lt, hi_get⟩ := List.getElem?_eq_some_iff.1 hi
        exact ⟨i, by omega, hi_get⟩)⟩
    exact ⟨_, mem_starts.1 hfirst, rfl⟩
  · intro tx' hook' hmem'
    have hold := h.after tx' hook' hmem'
    rw [add_log]
    apply hold.concat
    intro heq
    obtain rfl : hook = hook' := by simpa using heq
    have htx := h.unique (h.mem_hooks.1 hmem') (h.mem_hooks.1 hmem)
    obtain rfl : tx' = tx := by simpa using htx
    exact ⟨_, hsettled, v, rfl⟩

/-! ### Transactions -/

theorem Phases.silent (h : Phases l) {l' : Ledger ε ν} (more : List (Event ε ν))
    (hlog : l'.log = l.log ++ more) (hopened : l'.opened = l.opened) (hphase : l'.phase = l.phase)
    (hmore : ∀ tx, .opened tx ∉ more ∧ ∀ r, .settled tx r ∉ more ∧ .returned tx r ∉ more)
    (hfresh : ∀ tx, l.opened ≤ tx → l'.hooks tx = [] ∧ l'.position tx = 0)
    (hcalled : ∀ tx, 0 < l'.position tx → ∃ v, .settled tx (.ok v) ∈ l.log) : Phases l' := by
  constructor
  · intro tx htx
    rw [hopened] at htx
    rw [hphase]
    exact ⟨(h.fresh tx htx).1, hfresh tx htx⟩
  · intro tx
    rw [hlog, hopened, ← h.opened tx]
    simp [(hmore tx).1]
  · intro tx r
    rw [hlog, hphase, ← h.settled tx r]
    simp [((hmore tx).2 r).1]
  · intro tx r
    rw [hlog, hphase, ← h.returned tx r]
    simp [((hmore tx).2 r).2]
  · intro tx hpos
    obtain ⟨v, hv⟩ := hcalled tx hpos
    exact ⟨v, by simp [hlog, hv]⟩

theorem Phases.step {l' : Ledger ε ν} (h : Phases l) (hstep : Step l l') : Phases l' := by
  cases hstep with
  | opened =>
      constructor
      · intro tx htx
        exact h.fresh tx (by simp at htx; omega)
      · intro tx
        simp [h.opened tx]
        omega
      · intro tx r
        simpa using h.settled tx r
      · intro tx r
        simpa using h.returned tx r
      · intro tx hpos
        simpa using h.called tx hpos
  | registered tx htx =>
      refine h.silent [.registered l.registered (some tx)] rfl rfl rfl ?_ ?_ ?_
      · simp
      · intro tx' htx'
        have hne : tx' ≠ tx := by omega
        simpa [hne] using (h.fresh tx' htx').2
      · exact h.called
  | alone =>
      refine h.silent [.registered l.registered none, .started l.registered] (by simp) rfl rfl
        ?_ ?_ ?_
      · simp
      · intro tx htx
        exact (h.fresh tx htx).2
      · exact h.called
  | settled tx r htx hphase =>
      constructor
      · intro tx' htx'
        have hne : tx' ≠ tx := by
          simp at htx'
          omega
        simpa [hne] using h.fresh tx' htx'
      · intro tx'
        simpa using h.opened tx'
      · intro tx' r'
        have hsettled := h.settled tx' r'
        by_cases heq : tx' = tx
        · subst heq
          simp [hsettled, hphase, eq_comm]
        · simp [hsettled, heq]
      · intro tx' r'
        have hreturned := h.returned tx' r'
        by_cases heq : tx' = tx
        · subst heq
          simp [hreturned, hphase]
        · simp [hreturned, heq]
      · intro tx' hpos
        obtain ⟨v, hv⟩ := h.called tx' hpos
        exact ⟨v, by simp [hv]⟩
  | started tx v hook htx hphase hhook =>
      refine h.silent [.started hook] rfl rfl rfl ?_ ?_ ?_
      · simp
      · intro tx' htx'
        have hne : tx' ≠ tx := by omega
        simpa [hne] using (h.fresh tx' htx').2
      · intro tx' hpos
        by_cases heq : tx' = tx
        · subst heq
          exact ⟨v, (h.settled tx' _).2 (.inl hphase)⟩
        · exact h.called tx' (by simpa [heq] using hpos)
  | returned tx r htx hphase hdone =>
      constructor
      · intro tx' htx'
        have hne : tx' ≠ tx := by
          simp at htx'
          omega
        simpa [hne] using h.fresh tx' htx'
      · intro tx'
        simpa using h.opened tx'
      · intro tx' r'
        have hsettled := h.settled tx' r'
        by_cases heq : tx' = tx
        · subst heq
          simp [hsettled, hphase]
        · simp [hsettled, heq]
      · intro tx' r'
        have hreturned := h.returned tx' r'
        by_cases heq : tx' = tx
        · subst heq
          simp [hreturned, hphase, eq_comm]
        · simp [hreturned, heq]
      · intro tx' hpos
        obtain ⟨v, hv⟩ := h.called tx' hpos
        exact ⟨v, by simp [hv]⟩
  | answered hook answer =>
      refine h.silent [.answered hook answer] rfl rfl rfl ?_ ?_ ?_
      · simp
      · intro tx htx
        exact (h.fresh tx htx).2
      · exact h.called

theorem Served.silent (h : Served l) {l' : Ledger ε ν} (more : List (Event ε ν))
    (hlog : l'.log = l.log ++ more) (hmore : ∀ tx r, .returned tx r ∉ more) : Served l' := by
  intro tx v hook hreturned hearly
  rw [hlog] at hreturned hearly ⊢
  rw [starts_append]
  exact List.mem_append_left _
    (h tx v hook ((List.mem_append.1 hreturned).resolve_right (hmore tx _)) hearly.of_append)

theorem Served.returned (h : Served l) (hqueues : Queues l) (hphases : Phases l) {tx : ℕ}
    {r : Except ε ν} (hphase : l.phase tx = .settled r)
    (hdone : ∀ v, r = .ok v → (l.hooks tx).length ≤ l.position tx) :
    Served ({ l with phase := Function.update l.phase tx (.returned r) }.add (.returned tx r)) := by
  intro tx' v hook hreturned hearly
  simp only [add_log] at hreturned hearly ⊢
  rw [starts_append]
  apply List.mem_append_left
  rcases List.mem_append.1 hreturned with hold | hnew
  · exact h tx' v hook hold hearly.of_append
  · obtain ⟨rfl, rfl⟩ : tx' = tx ∧ .ok v = r := by simpa using hnew
    have hsettled := (hphases.settled tx' (.ok v)).2 (.inl hphase)
    obtain ⟨_, hregistered, rfl⟩ := hearly.of_append.exists_mem hsettled
    rw [hqueues.starts_iff]
    right
    refine ⟨tx', ?_⟩
    rw [List.take_of_length_le (hdone v rfl), hqueues.mem_hooks, mem_registrations]
    exact hregistered

/-! ### Runs -/

structure Inv (l : Ledger ε ν) : Prop where
  queues : Queues l
  phases : Phases l
  served : Served l

theorem inv_initial : Inv (initial : Ledger ε ν) := by
  refine ⟨⟨rfl, ?_, ?_, ?_, ?_, ?_, ?_⟩, ⟨?_, ?_, ?_, ?_, ?_⟩, ?_⟩ <;>
    simp [initial, Served]

theorem Inv.step {l' : Ledger ε ν} (h : Inv l) (hstep : Step l l') : Inv l' := by
  obtain ⟨hqueues, hphases, hserved⟩ := h
  refine ⟨?_, hphases.step hstep, ?_⟩
  · cases hstep with
    | opened => exact hqueues.silent rfl rfl rfl rfl rfl rfl
    | registered tx htx => exact hqueues.registered tx
    | alone => exact hqueues.alone
    | settled tx r htx hphase => exact hqueues.silent rfl rfl rfl rfl rfl rfl
    | started tx v hook htx hphase hhook =>
        exact hqueues.started ((hphases.settled tx _).2 (.inl hphase)) hhook
    | returned tx r htx hphase hdone => exact hqueues.silent rfl rfl rfl rfl rfl rfl
    | answered hook answer => exact hqueues.silent rfl rfl rfl rfl rfl rfl
  · cases hstep with
    | opened => exact hserved.silent [.opened l.opened] rfl (by simp)
    | registered tx htx =>
        exact hserved.silent [.registered l.registered (some tx)] rfl (by simp)
    | alone =>
        exact hserved.silent [.registered l.registered none, .started l.registered] (by simp)
          (by simp)
    | settled tx r htx hphase => exact hserved.silent [.settled tx r] rfl (by simp)
    | started tx v hook htx hphase hhook => exact hserved.silent [.started hook] rfl (by simp)
    | returned tx r htx hphase hdone => exact hserved.returned hqueues hphases hphase hdone
    | answered hook answer => exact hserved.silent [.answered hook answer] rfl (by simp)

theorem inv_of_steps (h : Relation.ReflTransGen Step initial l) : Inv l := by
  induction h with
  | refl => exact inv_initial
  | tail _ hstep ih => exact ih.step hstep

end Steps

/-! ### The promise -/

section Promise

variable {l : Ledger ε ν}

/-- The hooks of a transaction are in the order in which they were registered. -/
theorem Queues.indices (h : Queues l) {tx hook hook' : ℕ}
    (hmem : .registered hook' (some tx) ∈ l.log)
    (hbefore : Preceded (· = .registered hook (some tx)) (.registered hook' (some tx)) l.log) :
    ∃ i j : ℕ, i < j ∧ (l.hooks tx)[i]? = some hook ∧ (l.hooks tx)[j]? = some hook' := by
  obtain ⟨before, after, hlog⟩ := List.append_of_mem hmem
  obtain ⟨_, hfirst, rfl⟩ := hbefore before after hlog
  obtain ⟨i, hi⟩ := List.mem_iff_getElem?.1
    (show hook ∈ ((registrations before).filter fun r => r.2 = some tx).map Prod.fst by
      simpa using mem_registrations.2 hfirst)
  obtain ⟨hlt, -⟩ := List.getElem?_eq_some_iff.1 hi
  refine ⟨i, _, hlt, ?_, ?_⟩
  · rw [h.hooks_eq, hlog, registrations_append, List.filter_append, List.map_append,
      List.getElem?_append_left hlt, hi]
  · rw [h.hooks_eq, hlog, registrations_append, List.filter_append, List.map_append,
      List.getElem?_append_right le_rfl]
    simp

theorem Inv.kept (h : Inv l) : Kept l.log := by
  obtain ⟨hqueues, hphases, hserved⟩ := h
  constructor
  · exact List.nodup_iff_count_le_one.1 hqueues.starts_nodup
  · intro tx v hook hreturned hearly
    exact List.count_eq_one_of_mem hqueues.starts_nodup (hserved tx v hook hreturned hearly)
  · intro tx e hook hsettled hregistered hstart
    have hmem := mem_registrations.2 hregistered
    rcases (hqueues.starts_iff hook).1 hstart with hnone | ⟨tx', htake⟩
    · have heq := hqueues.unique hnone hmem
      simp at heq
    · have heq := hqueues.unique (hqueues.mem_hooks.1 (List.mem_of_mem_take htake)) hmem
      obtain rfl : tx' = tx := by simpa using heq
      have hpos : 0 < l.position tx' := by
        by_contra hzero
        simp [Nat.eq_zero_of_not_pos hzero] at htake
      obtain ⟨v, hv⟩ := hphases.called tx' hpos
      have hphase := (hphases.settled tx' _).1 hv
      have hphase' := (hphases.settled tx' _).1 hsettled
      rcases hphase with hphase | hphase <;> simp [hphase] at hphase'
  · intro tx hook hregistered
    exact hqueues.after tx hook (hqueues.mem_hooks.2 (mem_registrations.2 hregistered))
  · intro tx hook hook' hregistered hbefore
    obtain ⟨i, j, hij, hi, hj⟩ := hqueues.indices hregistered hbefore
    exact hqueues.order tx i j hook hook' hij hi hj
  · intro tx r hreturned
    exact (hphases.settled tx r).2 (.inr ((hphases.returned tx r).1 hreturned))
  · intro tx r r' hsettled hsettled'
    have hphase := (hphases.settled tx _).1 hsettled
    have hphase' := (hphases.settled tx _).1 hsettled'
    rcases hphase with hphase | hphase <;> simpa [hphase] using hphase'
  · intro hook hregistered
    apply List.count_eq_one_of_mem hqueues.starts_nodup
    rw [hqueues.starts_iff]
    exact .inl (mem_registrations.2 hregistered)

end Promise

end Ledger

end WhatStore.AfterCommit
