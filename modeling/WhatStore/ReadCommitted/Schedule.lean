import WhatStore.ReadCommitted.System

/-!
# Schedules

A run given step by step: which request starts, which process makes how many
steps, and what outside calls answer it. `play` executes a schedule, so a
concrete run is a closed computation, and `runs_of_play` says that what it
reaches is reached by a run.
-/

namespace ReadCommitted

/-- One turn of a schedule: a request arrives, or a process makes `n` steps. -/
inductive Turn (S : Schema) (R : Type) where
  | start (i : ℕ) (r : R)
  | steps (i n : ℕ) (answer : (c : S.Call) → S.Answer c)

namespace System

variable {S : Schema} {R : Type}

/-- The step process `i` makes next, when it can make one that `ok` admits. -/
def stepOf (ok : World S R → ℕ → R → Event S → Bool) (s : System S R) (i : ℕ)
    (answer : (c : S.Call) → S.Answer c) : Option (System S R) :=
  match s.proc i with
  | .running r p =>
    match s.advance i r answer p with
    | some (e, w, q) => if ok s.world i r e then some (s.resume i w q) else none
    | none => none
  | _ => none

def stepsOf (ok : World S R → ℕ → R → Event S → Bool) (i : ℕ)
    (answer : (c : S.Call) → S.Answer c) : ℕ → System S R → Option (System S R)
  | 0, s => some s
  | n + 1, s => (s.stepOf ok i answer).bind (stepsOf ok i answer n)

/-- Executes one turn, with the requests that may start and the steps that are
admitted. -/
def turn (handler : R → Prog S Unit) (starts : R → Bool)
    (ok : World S R → ℕ → R → Event S → Bool) (s : System S R) :
    Turn S R → Option (System S R)
  | .start i r =>
    match s.proc i with
    | .idle => if starts r then some (s.spawn i (.running r (handler r))) else none
    | _ => none
  | .steps i n answer => s.stepsOf ok i answer n

def play (handler : R → Prog S Unit) (starts : R → Bool)
    (ok : World S R → ℕ → R → Event S → Bool) (s : System S R) :
    List (Turn S R) → Option (System S R)
  | [] => some s
  | t :: ts => (s.turn handler starts ok t).bind fun s' => s'.play handler starts ok ts

variable {handler : R → Prog S Unit} {starts : R → Bool}
  {ok : World S R → ℕ → R → Event S → Bool} {s t : System S R}

theorem step_of_stepOf {i : ℕ} {answer : (c : S.Call) → S.Answer c}
    (h : s.stepOf ok i answer = some t) :
    Step handler (fun r => starts r) (fun w i r e => ok w i r e) s t := by
  unfold stepOf at h
  split at h
  · next r p hproc =>
      split at h
      · next e w q hstep =>
          split at h
          · next hok =>
              cases h
              exact .run i r p answer e w q hproc hstep hok
          · cases h
      · cases h
  · cases h

theorem runs_of_stepsOf {i n : ℕ} {answer : (c : S.Call) → S.Answer c}
    (h : s.stepsOf ok i answer n = some t) :
    Runs handler (fun r => starts r) (fun w i r e => ok w i r e) s t := by
  induction n generalizing s with
  | zero =>
      cases h
      exact .refl
  | succ n ih =>
      obtain ⟨s', hstep, hrest⟩ := Option.bind_eq_some_iff.1 h
      exact .head (step_of_stepOf hstep) (ih hrest)

theorem runs_of_turn {x : Turn S R} (h : s.turn handler starts ok x = some t) :
    Runs handler (fun r => starts r) (fun w i r e => ok w i r e) s t := by
  cases x with
  | start i r =>
      simp only [turn] at h
      split at h
      · next hidle =>
          split at h
          · next hr =>
              cases h
              exact .single (.start i r hidle hr)
          · cases h
      · cases h
  | steps i n answer => exact runs_of_stepsOf h

/-- What a schedule reaches is reached by a run. -/
theorem runs_of_play {ts : List (Turn S R)} (h : s.play handler starts ok ts = some t) :
    Runs handler (fun r => starts r) (fun w i r e => ok w i r e) s t := by
  induction ts generalizing s with
  | nil =>
      cases h
      exact .refl
  | cons x ts ih =>
      obtain ⟨s', hturn, hrest⟩ := Option.bind_eq_some_iff.1 h
      exact (runs_of_turn hturn).trans (ih hrest)

/-- A run with what is observed at its end. -/
theorem exists_run_of_play {α : Type} (handler : R → Prog S Unit) (starts : R → Bool)
    (ok : World S R → ℕ → R → Event S → Bool) (s : System S R) (ts : List (Turn S R))
    (f : System S R → α) {a : α} (h : (s.play handler starts ok ts).map f = some a) :
    ∃ t, Runs handler (fun r => starts r) (fun w i r e => ok w i r e) s t ∧ f t = a := by
  obtain ⟨t, ht, hf⟩ := Option.map_eq_some_iff.1 h
  exact ⟨t, runs_of_play ht, hf⟩

theorem exists_runs_of_play {α β : Type} (handler : R → Prog S Unit) (starts : R → Bool)
    (ok : World S R → ℕ → R → Event S → Bool) (s : System S R) (ts ts' : List (Turn S R))
    (f : System S R → α) (g : System S R → β) {a : α} {b : β}
    (h : ((s.play handler starts ok ts).bind fun t =>
      (t.play handler starts ok ts').map fun t' => (f t, g t')) = some (a, b)) :
    ∃ t t', Runs handler (fun r => starts r) (fun w i r e => ok w i r e) s t ∧
      Runs handler (fun r => starts r) (fun w i r e => ok w i r e) t t' ∧ f t = a ∧ g t' = b := by
  obtain ⟨t, ht, hrest⟩ := Option.bind_eq_some_iff.1 h
  obtain ⟨t', ht', hf⟩ := Option.map_eq_some_iff.1 hrest
  cases hf
  exact ⟨t, t', runs_of_play ht, runs_of_play ht', rfl, rfl⟩

/-- No started process is in the middle of its program. -/
def quiet (s : System S R) : Bool :=
  s.pids.all fun i => match s.proc i with
    | .running _ _ => false
    | _ => true

theorem quiescent_of_quiet (hs : s.Sane) (h : s.quiet = true) : s.Quiescent := by
  intro i r p hp
  have hi := List.all_eq_true.1 h i (hs.started i (by simp [hp]))
  simp [hp] at hi

end System

end ReadCommitted
