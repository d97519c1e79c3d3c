import Mathlib.Data.Multiset.AddSub
import Mathlib.Algebra.BigOperators.Group.Finset.Basic
import Mathlib.Logic.Hydra
import Mathlib.Tactic.Abel
import WhatStore.Prisma.AfterCommit

/-!
# The end of every run

Each step replaces one thing that is left to do by finitely many smaller ones, so that every
run ends: what the log promises of a transaction that returns comes true.
-/

namespace WhatStore.AfterCommit

open Relation

variable {ε ν : Type*}

/-! ## What is left to do -/

inductive Task (ε ν : Type*) where
  | code (code : Code ε ν)
  | awaits (next : Except ε ν → Code ε ν)
  | answers (next : Except ε Unit → Code ε ν)
  | pending (hook : Code ε ν)

inductive Smaller : Task ε ν → Task ε ν → Prop
  | awaits (next : Except ε ν → Code ε ν) (r : Except ε ν) : Smaller (.code (next r)) (.awaits next)
  | answers (next : Except ε Unit → Code ε ν) (r : Except ε Unit) :
      Smaller (.code (next r)) (.answers next)
  | pending (hook : Code ε ν) : Smaller (.code hook) (.pending hook)
  | pushed (sync : Bool) (hook : Code ε ν) (next : Except ε Unit → Code ε ν) :
      Smaller (.pending hook) (.code (.afterCommit sync hook next))
  | called (sync : Bool) (hook : Code ε ν) (next : Except ε Unit → Code ε ν) :
      Smaller (.code hook) (.code (.afterCommit sync hook next))
  | answered (sync : Bool) (hook : Code ε ν) (next : Except ε Unit → Code ε ν) :
      Smaller (.answers next) (.code (.afterCommit sync hook next))
  | registered (sync : Bool) (hook : Code ε ν) (next : Except ε Unit → Code ε ν)
      (r : Except ε Unit) : Smaller (.code (next r)) (.code (.afterCommit sync hook next))
  | transaction (transaction : Code ε ν) (next : Except ε ν → Code ε ν) :
      Smaller (.code transaction) (.code (.withAfterCommit transaction next))
  | awaited (transaction : Code ε ν) (next : Except ε ν → Code ε ν) :
      Smaller (.awaits next) (.code (.withAfterCommit transaction next))
  | child (child next : Code ε ν) : Smaller (.code child) (.code (.spawn child next))
  | next (child next : Code ε ν) : Smaller (.code next) (.code (.spawn child next))

theorem acc_awaits {next : Except ε ν → Code ε ν} (h : ∀ r, Acc Smaller (Task.code (next r))) :
    Acc Smaller (Task.awaits next) := by
  constructor
  rintro _ (_ | _)
  exact h _

theorem acc_answers {next : Except ε Unit → Code ε ν}
    (h : ∀ r, Acc Smaller (Task.code (next r))) : Acc Smaller (Task.answers next) := by
  constructor
  rintro _ (_ | _)
  exact h _

theorem acc_pending {hook : Code ε ν} (h : Acc Smaller (Task.code hook)) :
    Acc Smaller (Task.pending hook) := by
  constructor
  rintro _ (_ | _)
  exact h

theorem acc_code (c : Code ε ν) : Acc Smaller (Task.code c) := by
  induction c with
  | settle r =>
      constructor
      rintro _ ⟨⟩
  | afterCommit sync hook next hhook hnext =>
      constructor
      intro task htask
      cases htask with
      | pushed => exact acc_pending hhook
      | called => exact hhook
      | answered => exact acc_answers hnext
      | registered _ _ _ r => exact hnext r
  | withAfterCommit transaction next htransaction hnext =>
      constructor
      intro task htask
      cases htask with
      | transaction => exact htransaction
      | awaited => exact acc_awaits hnext
  | spawn child next hchild hnext =>
      constructor
      intro task htask
      cases htask with
      | child => exact hchild
      | next => exact hnext

theorem smaller_wf : WellFounded (Smaller : Task ε ν → Task ε ν → Prop) := by
  constructor
  intro task
  cases task with
  | code c => exact acc_code c
  | awaits next => exact acc_awaits fun r => acc_code (next r)
  | answers next => exact acc_answers fun r => acc_code (next r)
  | pending hook => exact acc_pending (acc_code hook)

def Frame.task : Frame ε ν → Task ε ν
  | .transaction _ _ next => .awaits next
  | .hook _ _ next => .awaits next
  | .immediate _ next => .answers next

def Control.task : Control ε ν → Task ε ν
  | .run code => .code code
  | .loop _ _ next => .awaits next

def stackTasks (stack : List (Frame ε ν)) : Multiset (Task ε ν) :=
  (stack.map fun frame => {frame.task}).sum

def Thread.tasks (t : Thread ε ν) : Multiset (Task ε ν) := {t.control.task} + stackTasks t.stack

def Shared.pending (s : Shared ε ν) (tx : ℕ) : Multiset (Task ε ν) :=
  (((s.hooks tx).drop (s.position tx)).map fun hook => {.pending hook.2}).sum

def Shared.tasks (s : Shared ε ν) : Multiset (Task ε ν) := ∑ tx ∈ Finset.range s.opened, s.pending tx

def State.tasks (state : State ε ν) : Multiset (Task ε ν) :=
  state.shared.tasks + (state.threads.map Thread.tasks).sum

/-! ## Steps -/

abbrev Less (new old : Multiset (Task ε ν)) : Prop := TransGen (CutExpand Smaller) new old

theorem less_one {rest : Multiset (Task ε ν)} {first task : Task ε ν} (h : Smaller first task) :
    Less (rest + {first}) (rest + {task}) :=
  .single (cutExpand_add_single rest h)

theorem less_two {rest new : Multiset (Task ε ν)} {first second task : Task ε ν}
    (h : Smaller first task) (h' : Smaller second task) (hnew : new = rest + {first} + {second}) :
    Less new (rest + {task}) := by
  rw [hnew, add_assoc]
  refine .single ((cutExpand_add_left rest).2 (cutExpand_singleton ?_))
  simp [h, h']

theorem less_of_settled {rest : Multiset (Task ε ν)} {r : Except ε ν} :
    Less rest (rest + {.code (.settle r)}) := by
  have hcut := (cutExpand_add_left rest).2
    (cutExpand_zero (r := Smaller) (x := Task.code (Code.settle r)))
  rw [add_zero] at hcut
  exact .single hcut

theorem less_add {new old : Multiset (Task ε ν)} (rest : Multiset (Task ε ν)) (h : Less new old) :
    Less (rest + new) (rest + old) :=
  h.lift (rest + ·) fun _ _ hcut => (cutExpand_add_left rest).2 hcut

/-- What is left to do after a step of a thread, with what the arrays still hold. -/
def Outcome.tasks (outcome : Outcome ε ν) : Multiset (Task ε ν) :=
  outcome.1.tasks + outcome.2.1.tasks + (outcome.2.2.map Thread.tasks).sum

section Steps

variable {s : Shared ε ν} {t : Thread ε ν} {outcome : Outcome ε ν}

@[simp] theorem add_tasks (s : Shared ε ν) (event : Event ε ν) : (s.add event).tasks = s.tasks :=
  rfl

@[simp] theorem register_tasks (s : Shared ε ν) (enclosing : Option ℕ) :
    (s.register enclosing).tasks = s.tasks := rfl

theorem stackTasks_cons (frame : Frame ε ν) (stack : List (Frame ε ν)) :
    stackTasks (frame :: stack) = stackTasks stack + {frame.task} := by
  rw [stackTasks, List.map_cons, List.sum_cons, add_comm, stackTasks]

theorem tasks_eq (s : Shared ε ν) (t : Thread ε ν) :
    s.tasks + t.tasks = s.tasks + stackTasks t.stack + {t.control.task} := by
  rw [Thread.tasks]
  abel

theorem outcome_tasks (s : Shared ε ν) (t : Thread ε ν) :
    Outcome.tasks (s, t, []) = s.tasks + stackTasks t.stack + {t.control.task} := by
  rw [Outcome.tasks, List.map_nil, List.sum_nil, add_zero, tasks_eq]

theorem settle_less {r : Except ε ν} (hcontrol : t.control = .run (.settle r))
    (h : settle s t r = some outcome) : Less outcome.tasks (s.tasks + t.tasks) := by
  rw [settle] at h
  cases hstack : t.stack with
  | nil => simp [hstack] at h
  | cons frame stack =>
      rw [hstack] at h
      rw [tasks_eq, hcontrol, hstack, stackTasks_cons, ← add_assoc]
      cases frame with
      | transaction tx outer next =>
          cases r with
          | ok v =>
              obtain rfl := Option.some.inj h
              rw [outcome_tasks]
              exact less_of_settled
          | error e =>
              obtain rfl := Option.some.inj h
              rw [outcome_tasks]
              exact (less_one (.awaits next _)).trans less_of_settled
      | hook tx v next =>
          obtain rfl := Option.some.inj h
          rw [outcome_tasks]
          exact less_of_settled
      | immediate hook next =>
          obtain rfl := Option.some.inj h
          rw [outcome_tasks]
          exact (less_one (.answers next _)).trans less_of_settled

theorem sum_pending {f g : ℕ → Multiset (Task ε ν)} {n tx : ℕ} {extra : Multiset (Task ε ν)}
    (htx : tx < n) (h : ∀ tx', tx' ≠ tx → g tx' = f tx') (hextra : g tx = f tx + extra) :
    ∑ tx' ∈ Finset.range n, g tx' = ∑ tx' ∈ Finset.range n, f tx' + extra := by
  rw [← Finset.add_sum_erase _ g (Finset.mem_range.2 htx),
    ← Finset.add_sum_erase _ f (Finset.mem_range.2 htx), hextra]
  have hrest : ∑ tx' ∈ (Finset.range n).erase tx, g tx' =
      ∑ tx' ∈ (Finset.range n).erase tx, f tx' :=
    Finset.sum_congr rfl fun tx' htx' => h tx' (Finset.ne_of_mem_erase htx')
  rw [hrest]
  abel

/-- A hook that is registered is left to do, unless the loop is past its place. -/
theorem push_tasks (s : Shared ε ν) (tx : ℕ) (hook : ℕ × Code ε ν) :
    (s.push tx hook).tasks = s.tasks ∨ (s.push tx hook).tasks = s.tasks + {.pending hook.2} := by
  have hother : ∀ tx', tx' ≠ tx → (s.push tx hook).pending tx' = s.pending tx' := by
    intro tx' hne
    simp [Shared.push, Shared.pending, hne]
  by_cases htx : tx < s.opened
  · by_cases hle : s.position tx ≤ (s.hooks tx).length
    · right
      apply sum_pending htx hother
      simp [Shared.push, Shared.pending, List.drop_append_of_le_length hle]
    · left
      have hpending : (s.push tx hook).pending tx = s.pending tx + 0 := by
        simp [Shared.push, Shared.pending, List.drop_append, List.drop_of_length_le,
          show (s.hooks tx).length ≤ s.position tx by omega,
          show 1 ≤ s.position tx - (s.hooks tx).length by omega]
      have hsum := sum_pending htx hother hpending
      rwa [add_zero] at hsum
  · left
    apply Finset.sum_congr rfl
    intro tx' htx'
    apply hother
    rintro rfl
    exact htx (Finset.mem_range.1 htx')

theorem afterCommit_less {sync : Bool} {hook : Code ε ν} {next : Except ε Unit → Code ε ν}
    (hcontrol : t.control = .run (.afterCommit sync hook next)) :
    Less (afterCommit s t sync hook next).tasks (s.tasks + t.tasks) := by
  rw [tasks_eq, hcontrol, afterCommit]
  cases t.context with
  | some tx =>
      rw [outcome_tasks, register_tasks]
      rcases push_tasks s tx (s.registered, hook) with heq | heq
      · rw [heq]
        exact less_one (.registered sync hook next _)
      · rw [heq]
        apply less_two (.registered sync hook next (.ok ())) (.pushed sync hook next)
        rw [Thread.run, Control.task]
        abel
  | none =>
      cases sync with
      | true =>
          rw [if_pos rfl, outcome_tasks, stackTasks_cons]
          apply less_two (.answered true hook next) (.called true hook next)
          rw [Thread.run, Control.task, Frame.task, add_tasks, register_tasks, ← add_assoc]
      | false =>
          rw [if_neg Bool.false_ne_true, Outcome.tasks, tasks_eq]
          apply less_two (.registered false hook next (.ok ())) (.called false hook next)
          simp [Thread.run, Control.task, Thread.tasks, stackTasks]

theorem withAfterCommit_less {transaction : Code ε ν} {next : Except ε ν → Code ε ν}
    (hcontrol : t.control = .run (.withAfterCommit transaction next)) :
    Less (withAfterCommit s t transaction next).tasks (s.tasks + t.tasks) := by
  rw [tasks_eq, hcontrol, withAfterCommit, outcome_tasks, add_tasks, stackTasks_cons]
  apply less_two (.awaited transaction next) (.transaction transaction next)
  rw [← add_assoc]
  congr 3
  rw [Shared.tasks, Finset.sum_range_succ]
  have hnew : ∀ s' : Shared ε ν, s'.hooks s.opened = [] → s'.pending s.opened = 0 := by
    intro s' hhooks
    simp [Shared.pending, hhooks]
  rw [hnew _ (by simp), add_zero]
  apply Finset.sum_congr rfl
  intro tx htx
  have hne : tx ≠ s.opened := (Finset.mem_range.1 htx).ne
  simp [Shared.pending, hne]

theorem nextHook_less {tx : ℕ} {v : ν} {next : Except ε ν → Code ε ν}
    (hcontrol : t.control = .loop tx v next) (htx : tx < s.opened) :
    Less (nextHook s t tx v next).tasks (s.tasks + t.tasks) := by
  rw [tasks_eq, hcontrol, nextHook]
  cases hhook : (s.hooks tx)[s.position tx]? with
  | none =>
      rw [outcome_tasks]
      exact less_one (.awaits next _)
  | some entry =>
      obtain ⟨hlt, hget⟩ := List.getElem?_eq_some_iff.1 hhook
      rw [outcome_tasks, add_tasks, stackTasks_cons]
      have hcalled : s.tasks = Shared.tasks
          { s with position := Function.update s.position tx (s.position tx + 1) } +
            {.pending entry.2} := by
        apply sum_pending htx
        · intro tx' hne
          simp [Shared.pending, hne]
        · simp only [Shared.pending, Function.update_self, List.drop_eq_getElem_cons hlt, hget,
            List.map_cons, List.sum_cons]
          rw [add_comm]
      rw [hcalled]
      have hless : ∀ rest : Multiset (Task ε ν),
          Less (rest + {.code entry.2}) (rest + {.pending entry.2}) :=
        fun rest => less_one (.pending entry.2)
      convert hless (Shared.tasks
        { s with position := Function.update s.position tx (s.position tx + 1) } +
          stackTasks t.stack + {.awaits next}) using 1
      · rw [← add_assoc]
        rfl
      · rw [Control.task]
        abel

theorem advance_less (h : advance s t = some outcome)
    (htx : ∀ tx v next, t.control = .loop tx v next → tx < s.opened) :
    Less outcome.tasks (s.tasks + t.tasks) := by
  rw [advance] at h
  cases hcontrol : t.control with
  | run code =>
      cases code with
      | settle r => exact settle_less hcontrol (by simpa [hcontrol] using h)
      | afterCommit sync hook next =>
          simp only [hcontrol, Option.some.injEq] at h
          subst h
          exact afterCommit_less hcontrol
      | withAfterCommit transaction next =>
          simp only [hcontrol, Option.some.injEq] at h
          subst h
          exact withAfterCommit_less hcontrol
      | spawn child next =>
          simp only [hcontrol, Option.some.injEq] at h
          subst h
          rw [tasks_eq, hcontrol, Outcome.tasks, tasks_eq]
          apply less_two (.next child next) (.child child next)
          simp [Thread.run, Control.task, Thread.tasks, stackTasks]
  | loop tx v next =>
      simp only [hcontrol, Option.some.injEq] at h
      subst h
      exact nextHook_less hcontrol (htx tx v next hcontrol)

end Steps

/-! ## Runs -/

section Runs

variable {main : Code ε ν} {moved : List (Thread ε ν)} {state state' : State ε ν} {t : Thread ε ν}

theorem Step.less {l : Ledger ε ν} (hmatches : Matches state l) (h : Step t state state') :
    Less state'.tasks state.tasks := by
  obtain ⟨before, after, hadvance⟩ := h
  rename_i s s' t' spawned
  have hless := advance_less hadvance (by
    intro tx v next hcontrol
    have hmem : (tx, Phase.settled (.ok v)) ∈ (before ++ t :: after).flatMap Thread.roles := by
      simp [Thread.roles, hcontrol, Control.roles]
    have hlt := (hmatches.owns.mem tx _ hmem).1
    rwa [hmatches.fits.opened] at hlt)
  have hrest := less_add ((before.map Thread.tasks).sum + (after.map Thread.tasks).sum) hless
  convert hrest using 1
  · simp [State.tasks, Outcome.tasks]
    abel
  · simp [State.tasks]
    abel

/-- No run goes on for ever. -/
theorem Run.acc (h : Run main moved state) : Acc (fun next now => ∃ t, Step t now next) state := by
  obtain ⟨tasks, htasks⟩ : ∃ tasks, tasks = state.tasks := ⟨_, rfl⟩
  induction tasks using (smaller_wf (ε := ε) (ν := ν)).cutExpand.transGen.induction
    generalizing moved state with
  | _ tasks ih =>
      subst htasks
      constructor
      rintro state' ⟨t, hstep⟩
      obtain ⟨l, -, hmatches⟩ := h.exists_ledger
      exact ih _ (hstep.less hmatches) (h.step t hstep) rfl

/-- Every run goes on to an end. -/
theorem Run.exists_quiescent (h : Run main moved state) :
    ∃ moved' state', Run main moved' state' ∧ state'.Quiescent := by
  have hacc := h.acc
  induction hacc generalizing moved with
  | intro state _ ih =>
      by_cases hquiescent : state.Quiescent
      · exact ⟨moved, state, h, hquiescent⟩
      · simp only [State.Quiescent, not_forall] at hquiescent
        obtain ⟨t, ht, hadvance⟩ := hquiescent
        obtain ⟨⟨s', t', spawned⟩, hsome⟩ := Option.ne_none_iff_exists'.1 hadvance
        obtain ⟨before, after, hthreads⟩ := List.append_of_mem ht
        obtain ⟨s, threads⟩ := state
        obtain rfl : threads = _ := hthreads
        have hstep : Step t _ _ := .step before after hsome
        exact ih _ ⟨t, hstep⟩ (h.step t hstep)

/-- What is promised of a run: of its log so far, of its end, and that it ends. -/
structure Delivers (state : State ε ν) : Prop where
  kept : Kept state.shared.log
  spared : Spared state.shared.log
  finished : state.Quiescent → Finished state.shared.log
  ends : Acc (fun next now => ∃ t, Step t now next) state

theorem delivers_iff (h : Run main moved state) : Delivers state ↔ ∀ t ∈ moved, t.throws = false := by
  rw [← h.spared_iff]
  constructor
  · intro hdelivers
    exact hdelivers.spared
  · intro hspared
    exact ⟨h.kept, hspared, h.finished, h.acc⟩

end Runs

def play : ℕ → List (Thread ε ν) × State ε ν → List (Thread ε ν) × State ε ν
  | 0, run => run
  | n + 1, (moved, ⟨s, t :: threads⟩) =>
      match advance s t with
      | some (s', t', spawned) => play n (t :: moved, ⟨s', t' :: (threads ++ spawned)⟩)
      | none => (moved, ⟨s, t :: threads⟩)
  | _ + 1, run => run

theorem run_play {main : Code ε ν} (n : ℕ) {moved : List (Thread ε ν)} {state : State ε ν}
    (h : Run main moved state) :
    Run main (play n (moved, state)).1 (play n (moved, state)).2 := by
  induction n generalizing moved state with
  | zero => exact h
  | succ n ih =>
      obtain ⟨s, threads⟩ := state
      cases threads with
      | nil => exact h
      | cons t threads =>
          rw [play]
          cases hadvance : advance s t with
          | none => exact h
          | some outcome => exact ih (h.step t (.step [] threads hadvance))

/-- A transaction with a hook that throws. -/
theorem delivers_iff_throwing :
    let main : Code Unit Unit := .withAfterCommit
      (.afterCommit true (.settle (.error ())) fun _ => .settle (.ok ())) .settle
    let run := play 6 ([], initial main)
    Delivers run.2 ∧ starts run.2.shared.log = [0] :=
  ⟨(delivers_iff (run_play 6 .initial)).2 (by decide), by decide⟩

/-- Outside of transactions the error of a hook that throws reaches who registered it. -/
theorem throws_to_caller :
    let main : Code Unit Unit := .afterCommit true (.settle (.error ())) .settle
    let run := play 2 ([], initial main)
    Run main run.1 run.2 ∧ .answered 0 (.error ()) ∈ run.2.shared.log ∧ ¬ Delivers run.2 := by
  intro main run
  have hanswered : .answered 0 (.error ()) ∈ run.2.shared.log := by decide
  refine ⟨run_play 2 .initial, hanswered, ?_⟩
  intro hdelivers
  have hanswer := hdelivers.spared 0 _ hanswered
  cases hanswer

end WhatStore.AfterCommit
