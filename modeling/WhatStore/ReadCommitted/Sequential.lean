import WhatStore.ReadCommitted.Protocol
import Mathlib.Data.Fintype.EquivFin

/-!
# Programs run alone

What a program does when no other process runs. `Prog.exec` runs a program on a
session, the committed store with the program's own view of it, while the
outside answers its calls in turn. `Prog.Ensures` is the weakest precondition of
a program that returns: the outside may answer anything.

`serve` is one request served alone, and `runs_of_serve` makes it a run of the
system in which nothing else happens.
-/

namespace ReadCommitted

variable {S : Schema}

/-- The committed store and what the program sees of it. -/
structure Session (S : Schema) where
  db : Store S.Key S.Row
  view : Store S.Key S.Row

namespace Session

def start (db : Store S.Key S.Row) : Session S := ⟨db, db⟩

def apply (σ : Session S) (u : S.Update) : Session S := { σ with view := applyUpdate u σ.view }

def commit (σ : Session S) : Session S := ⟨σ.view, σ.view⟩

def rollback (σ : Session S) : Session S := ⟨σ.db, σ.db⟩

@[simp] theorem start_view (db : Store S.Key S.Row) : (start db).view = db := rfl
@[simp] theorem apply_view (σ : Session S) (u : S.Update) :
    (σ.apply u).view = applyUpdate u σ.view := rfl
@[simp] theorem apply_db (σ : Session S) (u : S.Update) : (σ.apply u).db = σ.db := rfl
@[simp] theorem commit_view (σ : Session S) : σ.commit.view = σ.view := rfl
@[simp] theorem commit_db (σ : Session S) : σ.commit.db = σ.view := rfl
@[simp] theorem rollback_view (σ : Session S) : σ.rollback.view = σ.db := rfl
@[simp] theorem rollback_db (σ : Session S) : σ.rollback.db = σ.db := rfl

end Session

abbrev Answers (S : Schema) := ℕ → (c : S.Call) → S.Answer c

/-- How a program ends: its value or error, the number of calls made so far and
the session it leaves. -/
structure Ending (S : Schema) (α : Type) where
  value : Except S.Err α
  calls : ℕ
  session : Session S

namespace Prog

def exec (answer : Answers S) {α : Type} : Prog S α → ℕ → Session S → Ending S α
  | .ret a, n, σ => ⟨.ok a, n, σ⟩
  | .throw e, n, σ => ⟨.error e, n, σ.rollback⟩
  | .query q k, n, σ => (k (S.eval q σ.view)).exec answer n σ
  | .update u k, n, σ =>
      if S.guard u (σ.view.row (S.key u)) then (k true).exec answer n (σ.apply u)
      else (k false).exec answer n σ
  | .call c k, n, σ => (k (answer n c)).exec answer (n + 1) σ
  | .commit k, n, σ => k.exec answer n σ.commit
  | .rollback k, n, σ => k.exec answer n σ.rollback

/-- When the program returns, its value and the session it leaves satisfy `Q`,
whatever the outside answers within `A`. -/
def Ensures (A : (c : S.Call) → S.Answer c → Prop) {α : Type} :
    Prog S α → Session S → (α → Session S → Prop) → Prop
  | .ret a, σ, Q => Q a σ
  | .throw _, _, _ => True
  | .query q k, σ, Q => (k (S.eval q σ.view)).Ensures A σ Q
  | .update u k, σ, Q =>
      (S.guard u (σ.view.row (S.key u)) = true → (k true).Ensures A (σ.apply u) Q) ∧
        (S.guard u (σ.view.row (S.key u)) = false → (k false).Ensures A σ Q)
  | .call c k, σ, Q => ∀ a, A c a → (k a).Ensures A σ Q
  | .commit k, σ, Q => k.Ensures A σ.commit Q
  | .rollback k, σ, Q => k.Ensures A σ.rollback Q

variable {answer : Answers S} {A : (c : S.Call) → S.Answer c → Prop} {α β : Type} {n : ℕ}
  {σ : Session S}

theorem exec_update_hit {u : S.Update} {k : Bool → Prog S α}
    (h : S.guard u (σ.view.row (S.key u)) = true) :
    (update u k).exec answer n σ = (k true).exec answer n (σ.apply u) := if_pos h

theorem exec_update_miss {u : S.Update} {k : Bool → Prog S α}
    (h : S.guard u (σ.view.row (S.key u)) = false) :
    (update u k).exec answer n σ = (k false).exec answer n σ :=
  if_neg (by simp [h])

theorem Ensures.of_exec {p : Prog S α} {Q : α → Session S → Prop} (hp : p.Ensures A σ Q)
    (hanswer : ∀ n c, A c (answer n c)) {a : α}
    (h : (p.exec answer n σ).value = .ok a) : Q a (p.exec answer n σ).session := by
  induction p generalizing n σ with
  | ret b =>
      cases h
      exact hp
  | throw e => cases h
  | query q k ih => exact ih _ hp h
  | update u k ih =>
      by_cases hguard : S.guard u (σ.view.row (S.key u)) = true
      · simp only [exec, hguard, if_true] at h ⊢
        exact ih true (hp.1 hguard) h
      · simp only [exec, hguard, if_false, Bool.false_eq_true] at h ⊢
        exact ih false (hp.2 (by simpa using hguard)) h
  | call c k ih => exact ih _ (hp _ (hanswer n c)) h
  | commit k ih => exact ih hp h
  | rollback k ih => exact ih hp h

theorem ensures_bind (p : Prog S α) (f : α → Prog S β) (Q : β → Session S → Prop) :
    (p.bind f).Ensures A σ Q ↔ p.Ensures A σ fun a σ' => (f a).Ensures A σ' Q := by
  induction p generalizing σ with
  | ret a => rfl
  | throw e => rfl
  | query q k ih => simp only [bind, Ensures, ih]
  | update u k ih => simp only [bind, Ensures, ih]
  | call c k ih => simp only [bind, Ensures, ih]
  | commit k ih => simp only [bind, Ensures, ih]
  | rollback k ih => simp only [bind, Ensures, ih]

theorem Ensures.mono {p : Prog S α} {Q Q' : α → Session S → Prop} (hp : p.Ensures A σ Q)
    (hQ : ∀ a σ', Q a σ' → Q' a σ') : p.Ensures A σ Q' := by
  induction p generalizing σ with
  | ret a => exact hQ a σ hp
  | throw e => trivial
  | query q k ih => exact ih _ hp
  | update u k ih => exact ⟨fun h => ih true (hp.1 h), fun h => ih false (hp.2 h)⟩
  | call c k ih => exact fun a ha => ih a (hp a ha)
  | commit k ih => exact ih hp
  | rollback k ih => exact ih hp

theorem Ensures.and {p : Prog S α} {Q Q' : α → Session S → Prop} (hp : p.Ensures A σ Q)
    (hp' : p.Ensures A σ Q') : p.Ensures A σ fun a σ' => Q a σ' ∧ Q' a σ' := by
  induction p generalizing σ with
  | ret a => exact ⟨hp, hp'⟩
  | throw e => trivial
  | query q k ih => exact ih _ hp hp'
  | update u k ih =>
      exact ⟨fun h => ih true (hp.1 h) (hp'.1 h), fun h => ih false (hp.2 h) (hp'.2 h)⟩
  | call c k ih => exact fun a ha => ih a (hp a ha) (hp' a ha)
  | commit k ih => exact ih hp hp'
  | rollback k ih => exact ih hp hp'

theorem ensures_seq {p : Prog S α} {f : α → Prog S β} {Q : β → Session S → Prop} :
    (p >>= f).Ensures A σ Q ↔ p.Ensures A σ fun a σ' => (f a).Ensures A σ' Q :=
  ensures_bind p f Q

theorem Ensures.seq {p : Prog S α} {f : α → Prog S β} {Q : α → Session S → Prop}
    {Q' : β → Session S → Prop} (hp : p.Ensures A σ Q)
    (hf : ∀ a σ', Q a σ' → (f a).Ensures A σ' Q') : (p >>= f).Ensures A σ Q' :=
  ensures_seq.2 (hp.mono hf)

theorem ensures_true (p : Prog S α) : p.Ensures A σ fun _ _ => True := by
  induction p generalizing σ with
  | ret a => trivial
  | throw e => trivial
  | query q k ih => exact ih _
  | update u k ih => exact ⟨fun _ => ih true, fun _ => ih false⟩
  | call c k ih => exact fun a _ => ih a
  | commit k ih => exact ih
  | rollback k ih => exact ih

theorem ensures_pass {p : Prog S α} {f : α → Prog S β} {Q : β → Session S → Prop}
    (hf : ∀ a σ', (f a).Ensures A σ' Q) : (p >>= f).Ensures A σ Q :=
  (ensures_true p).seq fun a σ' _ => hf a σ'

theorem ensures_ret {a : α} {Q : α → Session S → Prop} (h : Q a σ) : (ret a).Ensures A σ Q := h

theorem ensures_throwIf {c : Bool} {e : S.Err} {Q : Unit → Session S → Prop} :
    (throwIf c e).Ensures A σ Q ↔ (c = false → Q () σ) := by
  cases c <;> simp [throwIf, Ensures]

theorem ensures_runIf {c : Bool} {p : Prog S Unit} {Q : Unit → Session S → Prop} :
    (runIf c p).Ensures A σ Q ↔ (c = true → p.Ensures A σ Q) ∧ (c = false → Q () σ) := by
  cases c <;> simp [runIf, Ensures]

theorem ensures_orThrow {o : Option α} {e : S.Err} {Q : α → Session S → Prop} :
    (orThrow o e).Ensures A σ Q ↔ ∀ a, o = some a → Q a σ := by
  cases o <;> simp [orThrow, Ensures]

theorem ensures_ofExcept {x : Except S.Err α} {Q : α → Session S → Prop} :
    (ofExcept x).Ensures A σ Q ↔ ∀ a, x = .ok a → Q a σ := by
  cases x <;> simp [ofExcept, Ensures]

theorem ensures_ask {q : S.Query} {f : S.Result q → Prog S β} {Q : β → Session S → Prop}
    (hk : (f (S.eval q σ.view)).Ensures A σ Q) : (query q .ret >>= f).Ensures A σ Q := hk

theorem ensures_invoke {c : S.Call} {f : S.Answer c → Prog S β} {Q : β → Session S → Prop}
    (hk : ∀ a, A c a → (f a).Ensures A σ Q) : (call c .ret >>= f).Ensures A σ Q := hk

theorem ensures_demand {o : Option α} {e : S.Err} {f : α → Prog S β} {Q : β → Session S → Prop}
    (hk : ∀ a, o = some a → (f a).Ensures A σ Q) : (orThrow o e >>= f).Ensures A σ Q :=
  ensures_seq.2 (ensures_orThrow.2 hk)

theorem ensures_check {c : Bool} {e : S.Err} {f : Unit → Prog S β} {Q : β → Session S → Prop}
    (hk : c = false → (f ()).Ensures A σ Q) : (throwIf c e >>= f).Ensures A σ Q :=
  ensures_seq.2 (ensures_throwIf.2 hk)

theorem ensures_lift {x : Except S.Err α} {f : α → Prog S β} {Q : β → Session S → Prop}
    (hk : ∀ a, x = .ok a → (f a).Ensures A σ Q) : (ofExcept x >>= f).Ensures A σ Q :=
  ensures_seq.2 (ensures_ofExcept.2 hk)

theorem ensures_require {u : S.Update} {e : S.Err} {f : Unit → Prog S β}
    {Q : β → Session S → Prop}
    (hk : S.guard u (σ.view.row (S.key u)) = true → (f ()).Ensures A (σ.apply u) Q) :
    ((Prog.update u .ret >>= fun hit => throwIf (!hit) e) >>= f).Ensures A σ Q :=
  ensures_seq.2 (ensures_seq.2
    ⟨fun h => ensures_throwIf.2 fun _ => hk h, fun _ => ensures_throwIf.2 (by simp)⟩)

/-- A piece of a transaction applies some of its updates. -/
theorem Within.ensures {B : S.Update → Prop} {p : Prog S α} (hp : p.Within B) :
    p.Ensures A σ fun _ σ' => ∃ us, (∀ u ∈ us, B u) ∧ σ'.db = σ.db ∧
      σ'.view = replay us σ.view := by
  have hB := hp []
  clear hp
  suffices hs : ∀ h, p.Along (WithinTx B) h (fun _ _ => True) → p.Ensures A σ fun _ σ' =>
      ∃ us, (∀ u ∈ us, B u) ∧ σ'.db = σ.db ∧ σ'.view = replay us σ.view from hs [] hB
  clear hB
  intro h hB
  induction p generalizing h σ with
  | ret a => exact ⟨[], nofun, rfl, rfl⟩
  | throw e => trivial
  | query q k ih => exact ih _ _ (hB σ.view).2
  | update u k ih =>
      refine ⟨fun _ => (ih true _ (hB true).2).mono ?_, fun _ => ih false _ (hB false).2⟩
      rintro a σ' ⟨us, hus, hdb, hview⟩
      refine ⟨us ++ [u], fun u' hu' => ?_, hdb, ?_⟩
      · rcases List.mem_append.1 hu' with hu' | hu'
        · exact hus u' hu'
        · rw [List.mem_singleton.1 hu']
          exact (hB true).1
      · rw [hview, replay_append]
        rfl
  | call c k ih => exact fun a _ => ih a _ (hB a).2
  | commit k ih => exact hB.1.elim
  | rollback k ih => exact hB.1.elim

/-- A piece of a transaction that throws takes back what it did. -/
theorem Within.view_of_error {B : S.Update → Prop} {p : Prog S α} (hp : p.Within B) {e : S.Err}
    (h : (p.exec answer n σ).value = .error e) : (p.exec answer n σ).session.view = σ.db := by
  have hB := hp []
  clear hp
  suffices hs : ∀ hist, p.Along (WithinTx B) hist (fun _ _ => True) →
      (p.exec answer n σ).value = .error e → (p.exec answer n σ).session.view = σ.db from
    hs [] hB h
  clear h hB
  intro hist hB h
  induction p generalizing hist n σ with
  | ret a => cases h
  | throw e => rfl
  | query q k ih => exact ih _ _ (hB σ.view).2 h
  | update u k ih =>
      by_cases hguard : S.guard u (σ.view.row (S.key u)) = true
      · rw [exec_update_hit hguard] at h ⊢
        exact ih true _ (hB true).2 h
      · rw [exec_update_miss (by simpa using hguard)] at h ⊢
        exact ih false _ (hB false).2 h
  | call c k ih => exact ih _ _ (hB (answer n c)).2 h
  | commit k ih => exact hB.1.elim
  | rollback k ih => exact hB.1.elim

theorem Within.ensures_same {B : S.Update → Prop} {p : Prog S α} (hp : p.Within B)
    (hB : ∀ u, ¬ B u) : p.Ensures A σ fun _ σ' => σ' = σ := by
  refine hp.ensures.mono ?_
  rintro a ⟨db, view⟩ ⟨us, hus, hdb, hview⟩
  cases us with
  | nil =>
      cases hdb
      cases hview
      rfl
  | cons u us => exact absurd (hus u List.mem_cons_self) (hB u)

/-- A program of events of a kind, none of which is a rollback, keeps what every update
of the kind keeps. -/
theorem Only.ensures {B : Event S → Prop} {I : Store S.Key S.Row → Prop} {p : Prog S α}
    (hp : p.Only B) (hrollback : ¬ B .rolledBack) (hσ : I σ.view)
    (hB : ∀ u v, B (.update u true) → S.guard u (v.row (S.key u)) = true → I v →
      I (applyUpdate u v)) : p.Ensures A σ fun _ σ' => I σ'.view := by
  have hall := hp []
  clear hp
  suffices hs : ∀ h, p.Along (fun _ e => B e) h (fun _ _ => True) →
      p.Ensures A σ fun _ σ' => I σ'.view from hs [] hall
  clear hall
  intro h hall
  induction p generalizing h σ with
  | ret a => exact hσ
  | throw e => trivial
  | query q k ih => exact ih _ hσ _ (hall σ.view).2
  | update u k ih =>
      refine ⟨fun hguard => ?_, fun _ => ih false hσ _ (hall false).2⟩
      exact ih true (hB u _ (hall true).1 hguard hσ) _ (hall true).2
  | call c k ih => exact fun a _ => ih a hσ _ (hall a).2
  | commit k ih => exact ih (σ := σ.commit) hσ _ hall.2
  | rollback k ih => exact absurd hall.1 hrollback

theorem ensures_each {body : α → Prog S Unit} {I : List α → Session S → Prop} {as : List α}
    (hI : I as σ) (hbody : ∀ a as σ, I (a :: as) σ → (body a).Ensures A σ fun _ σ' => I as σ') :
    (each body as).Ensures A σ fun _ σ' => I [] σ' := by
  induction as generalizing σ with
  | nil => exact hI
  | cons a as ih => exact Ensures.seq (hbody a as σ hI) fun _ σ' hI' => ih hI'

/-! ### Programs whose every write keeps an invariant -/

/-- Every write gives a view that satisfies `I`, and when the program returns, its
value and the session it leaves satisfy `Q`. So whatever it commits before it
throws satisfies `I`. -/
def Keeps (A : (c : S.Call) → S.Answer c → Prop) (I : Store S.Key S.Row → Prop) {α : Type} :
    Prog S α → Session S → (α → Session S → Prop) → Prop
  | .ret a, σ, Q => Q a σ
  | .throw _, _, _ => True
  | .query q k, σ, Q => (k (S.eval q σ.view)).Keeps A I σ Q
  | .update u k, σ, Q =>
      (S.guard u (σ.view.row (S.key u)) = true →
        I (applyUpdate u σ.view) ∧ (k true).Keeps A I (σ.apply u) Q) ∧
      (S.guard u (σ.view.row (S.key u)) = false → (k false).Keeps A I σ Q)
  | .call c k, σ, Q => ∀ a, A c a → (k a).Keeps A I σ Q
  | .commit k, σ, Q => k.Keeps A I σ.commit Q
  | .rollback k, σ, Q => k.Keeps A I σ.rollback Q

section Keeps

variable {I : Store S.Key S.Row → Prop}

/-- What is committed and what the program sees satisfy `I`. -/
structure Upholds (I : Store S.Key S.Row → Prop) (σ : Session S) : Prop where
  db : I σ.db
  view : I σ.view

theorem Upholds.apply {u : S.Update} (h : Upholds I σ) (hu : I (applyUpdate u σ.view)) :
    Upholds I (σ.apply u) := ⟨h.db, hu⟩

theorem Upholds.commit (h : Upholds I σ) : Upholds I σ.commit := ⟨h.view, h.view⟩

theorem Upholds.rollback (h : Upholds I σ) : Upholds I σ.rollback := ⟨h.db, h.db⟩

theorem Keeps.of_exec {p : Prog S α} {Q : α → Session S → Prop} (hp : p.Keeps A I σ Q)
    (hσ : Upholds I σ) (hanswer : ∀ n c, A c (answer n c)) :
    Upholds I (p.exec answer n σ).session := by
  induction p generalizing n σ with
  | ret a => exact hσ
  | throw e => exact hσ.rollback
  | query q k ih => exact ih _ hp hσ
  | update u k ih =>
      by_cases hguard : S.guard u (σ.view.row (S.key u)) = true
      · rw [exec_update_hit hguard]
        exact ih true (hp.1 hguard).2 (hσ.apply (hp.1 hguard).1)
      · rw [exec_update_miss (by simpa using hguard)]
        exact ih false (hp.2 (by simpa using hguard)) hσ
  | call c k ih => exact ih _ (hp _ (hanswer n c)) hσ
  | commit k ih => exact ih hp hσ.commit
  | rollback k ih => exact ih hp hσ.rollback

theorem Keeps.weaken {I' : Store S.Key S.Row → Prop} {p : Prog S α} {Q : α → Session S → Prop}
    (hp : p.Keeps A I σ Q) (hI : ∀ v, I v → I' v) : p.Keeps A I' σ Q := by
  induction p generalizing σ with
  | ret a => exact hp
  | throw e => trivial
  | query q k ih => exact ih _ hp
  | update u k ih =>
      exact ⟨fun h => ⟨hI _ (hp.1 h).1, ih true (hp.1 h).2⟩, fun h => ih false (hp.2 h)⟩
  | call c k ih => exact fun a ha => ih a (hp a ha)
  | commit k ih => exact ih hp
  | rollback k ih => exact ih hp

theorem Only.keeps {B : Event S → Prop} {p : Prog S α} (hp : p.Only B) (hσ : Upholds I σ)
    (hB : ∀ u v, B (.update u true) → S.guard u (v.row (S.key u)) = true → I v →
      I (applyUpdate u v)) : p.Keeps A I σ fun _ σ' => Upholds I σ' := by
  have hall := hp []
  clear hp
  suffices hs : ∀ h, p.Along (fun _ e => B e) h (fun _ _ => True) →
      p.Keeps A I σ fun _ σ' => Upholds I σ' from hs [] hall
  clear hall
  intro h hall
  induction p generalizing h σ with
  | ret a => exact hσ
  | throw e => trivial
  | query q k ih => exact ih _ hσ _ (hall σ.view).2
  | update u k ih =>
      refine ⟨fun hguard => ?_, fun _ => ih false hσ _ (hall false).2⟩
      have hu := hB u _ (hall true).1 hguard hσ.view
      exact ⟨hu, ih true (hσ.apply hu) _ (hall true).2⟩
  | call c k ih => exact fun a _ => ih a hσ _ (hall a).2
  | commit k ih => exact ih hσ.commit _ hall.2
  | rollback k ih => exact ih hσ.rollback _ hall.2

theorem keeps_bind (p : Prog S α) (f : α → Prog S β) (Q : β → Session S → Prop) :
    (p.bind f).Keeps A I σ Q ↔ p.Keeps A I σ fun a σ' => (f a).Keeps A I σ' Q := by
  induction p generalizing σ with
  | ret a => rfl
  | throw e => rfl
  | query q k ih => simp only [bind, Keeps, ih]
  | update u k ih => simp only [bind, Keeps, ih]
  | call c k ih => simp only [bind, Keeps, ih]
  | commit k ih => simp only [bind, Keeps, ih]
  | rollback k ih => simp only [bind, Keeps, ih]

theorem Keeps.mono {p : Prog S α} {Q Q' : α → Session S → Prop} (hp : p.Keeps A I σ Q)
    (hσ : Upholds I σ) (hQ : ∀ a σ', Upholds I σ' → Q a σ' → Q' a σ') : p.Keeps A I σ Q' := by
  induction p generalizing σ with
  | ret a => exact hQ a σ hσ hp
  | throw e => trivial
  | query q k ih => exact ih _ hp hσ
  | update u k ih =>
      exact ⟨fun h => ⟨(hp.1 h).1, ih true (hp.1 h).2 (hσ.apply (hp.1 h).1)⟩,
        fun h => ih false (hp.2 h) hσ⟩
  | call c k ih => exact fun a ha => ih a (hp a ha) hσ
  | commit k ih => exact ih hp hσ.commit
  | rollback k ih => exact ih hp hσ.rollback

theorem Keeps.seq {p : Prog S α} {f : α → Prog S β} {Q : α → Session S → Prop}
    {Q' : β → Session S → Prop} (hp : p.Keeps A I σ Q) (hσ : Upholds I σ)
    (hf : ∀ a σ', Upholds I σ' → Q a σ' → (f a).Keeps A I σ' Q') : (p >>= f).Keeps A I σ Q' :=
  (keeps_bind p f Q').2 (hp.mono hσ hf)

theorem keeps_ret {a : α} {Q : α → Session S → Prop} : (ret a).Keeps A I σ Q ↔ Q a σ := Iff.rfl

theorem keeps_ask {q : S.Query} {f : S.Result q → Prog S β} {Q : β → Session S → Prop}
    (hk : (f (S.eval q σ.view)).Keeps A I σ Q) : (query q .ret >>= f).Keeps A I σ Q := hk

theorem keeps_invoke {c : S.Call} {f : S.Answer c → Prog S β} {Q : β → Session S → Prop}
    (hk : ∀ a, A c a → (f a).Keeps A I σ Q) : (call c .ret >>= f).Keeps A I σ Q := hk

theorem keeps_throwIf {c : Bool} {e : S.Err} {Q : Unit → Session S → Prop} :
    (throwIf c e).Keeps A I σ Q ↔ (c = false → Q () σ) := by
  cases c <;> simp [throwIf, Keeps]

theorem keeps_runIf {c : Bool} {p : Prog S Unit} {Q : Unit → Session S → Prop} :
    (runIf c p).Keeps A I σ Q ↔ (c = true → p.Keeps A I σ Q) ∧ (c = false → Q () σ) := by
  cases c <;> simp [runIf, Keeps]

theorem keeps_demand {o : Option α} {e : S.Err} {f : α → Prog S β} {Q : β → Session S → Prop}
    (hk : ∀ a, o = some a → (f a).Keeps A I σ Q) : (orThrow o e >>= f).Keeps A I σ Q := by
  cases o with
  | none => trivial
  | some a => exact hk a rfl

theorem keeps_check {c : Bool} {e : S.Err} {f : Unit → Prog S β} {Q : β → Session S → Prop}
    (hk : c = false → (f ()).Keeps A I σ Q) : (throwIf c e >>= f).Keeps A I σ Q :=
  (keeps_bind _ _ _).2 (keeps_throwIf.2 hk)

/-- A write of a kind that keeps the invariant wherever it hits. -/
theorem keeps_write {u : S.Update} {f : Bool → Prog S β} {Q : β → Session S → Prop}
    (hu : S.guard u (σ.view.row (S.key u)) = true → I (applyUpdate u σ.view))
    (hhit : S.guard u (σ.view.row (S.key u)) = true → (f true).Keeps A I (σ.apply u) Q)
    (hmiss : (f false).Keeps A I σ Q) : (Prog.update u .ret >>= f).Keeps A I σ Q :=
  ⟨fun h => ⟨hu h, hhit h⟩, fun _ => hmiss⟩

theorem keeps_each {body : α → Prog S Unit} {as : List α} (hσ : Upholds I σ)
    (hbody : ∀ a σ, Upholds I σ → (body a).Keeps A I σ fun _ _ => True) :
    (each body as).Keeps A I σ fun _ _ => True := by
  induction as generalizing σ with
  | nil => trivial
  | cons a as ih => exact Keeps.seq (hbody a σ hσ) hσ fun _ σ' hσ' _ => ih hσ'

theorem Keeps.attempt {p : Prog S α} (hp : p.Keeps A I σ fun _ _ => True) :
    p.attempt.Keeps A I σ fun _ _ => True := by
  induction p generalizing σ with
  | ret a => trivial
  | throw e => trivial
  | query q k ih => exact ih _ hp
  | update u k ih => exact ⟨fun h => ⟨(hp.1 h).1, ih true (hp.1 h).2⟩, fun h => ih false (hp.2 h)⟩
  | call c k ih => exact fun a ha => ih a (hp a ha)
  | commit k ih => exact ih hp
  | rollback k ih => exact ih hp

end Keeps

/-! ### Programs that only read -/

theorem exec_bind (p : Prog S α) (f : α → Prog S β) : (p.bind f).exec answer n σ =
    match (p.exec answer n σ).value with
    | .ok a => (f a).exec answer (p.exec answer n σ).calls (p.exec answer n σ).session
    | .error e => ⟨.error e, (p.exec answer n σ).calls, (p.exec answer n σ).session⟩ := by
  induction p generalizing n σ with
  | ret a => rfl
  | throw e => rfl
  | query q k ih => simp only [bind, exec, ih]
  | update u k ih =>
      simp only [bind, exec]
      split <;> rw [ih]
  | call c k ih => simp only [bind, exec, ih]
  | commit k ih => simp only [bind, exec, ih]
  | rollback k ih => simp only [bind, exec, ih]

/-- The program run on a fresh session of `db` writes nothing and ends with `x`. -/
def Gives (answer : Answers S) (p : Prog S α) (db : Store S.Key S.Row) (x : Except S.Err α) :
    Prop := ∀ n, ∃ n', p.exec answer n (.start db) = ⟨x, n', .start db⟩

variable {db : Store S.Key S.Row}

theorem gives_ret (a : α) : (ret a).Gives answer db (.ok a) := fun n => ⟨n, rfl⟩

theorem gives_throw (e : S.Err) : (throw e : Prog S α).Gives answer db (.error e) :=
  fun n => ⟨n, rfl⟩

theorem gives_ask {q : S.Query} {f : S.Result q → Prog S β} {y : Except S.Err β}
    (hk : (f (S.eval q db)).Gives answer db y) : (query q .ret >>= f).Gives answer db y := hk

theorem gives_invoke {c : S.Call} {a : S.Answer c} {f : S.Answer c → Prog S β}
    {y : Except S.Err β} (h : ∀ n, answer n c = a) (hk : (f a).Gives answer db y) :
    (call c .ret >>= f).Gives answer db y := by
  intro n
  obtain ⟨n', hn⟩ := hk (n + 1)
  refine ⟨n', ?_⟩
  rw [← hn, ← h n]
  rfl

theorem gives_demand {o : Option α} {e : S.Err} {f : α → Prog S β} {y : Except S.Err β}
    (hnone : o = none → y = .error e) (hk : ∀ a, o = some a → (f a).Gives answer db y) :
    (orThrow o e >>= f).Gives answer db y := by
  cases o with
  | some a => exact hk a rfl
  | none =>
      rw [hnone rfl]
      exact gives_throw e

theorem gives_check {c : Bool} {e : S.Err} {f : Unit → Prog S β} {y : Except S.Err β}
    (herror : c = true → y = .error e) (hk : c = false → (f ()).Gives answer db y) :
    (throwIf c e >>= f).Gives answer db y := by
  cases c with
  | false => exact hk rfl
  | true =>
      rw [herror rfl]
      exact gives_throw e

theorem gives_finish {f : Unit → Prog S β} {y : Except S.Err β}
    (hk : (f ()).Gives answer db y) : (Prog.commit (.ret ()) >>= f).Gives answer db y := hk

/-- A `try` block alone: its value when it returns, nothing when it throws. -/
theorem exec_attempt (p : Prog S α) : p.attempt.exec answer n σ =
    ⟨.ok (p.exec answer n σ).value.toOption, (p.exec answer n σ).calls,
      (p.exec answer n σ).session⟩ := by
  induction p generalizing n σ with
  | ret a => rfl
  | throw e => rfl
  | query q k ih => simp only [attempt, exec, ih]
  | update u k ih =>
      simp only [attempt, exec]
      split <;> rw [ih]
  | call c k ih => simp only [attempt, exec, ih]
  | commit k ih => simp only [attempt, exec, ih]
  | rollback k ih => simp only [attempt, exec, ih]

theorem Gives.attempt {p : Prog S α} {x : Except S.Err α} (hp : p.Gives answer db x) :
    p.attempt.Gives answer db (.ok x.toOption) := by
  intro n
  obtain ⟨n', hn⟩ := hp n
  exact ⟨n', by rw [exec_attempt, hn]⟩

theorem gives_ofExcept (x : Except S.Err α) : (ofExcept x).Gives answer db x := by
  cases x with
  | ok a => exact gives_ret a
  | error e => exact gives_throw e

theorem Gives.seq {p : Prog S α} {f : α → Prog S β} {x : Except S.Err α} {y : α → Except S.Err β}
    (hp : p.Gives answer db x) (hf : ∀ a, x = .ok a → (f a).Gives answer db (y a)) :
    (p >>= f).Gives answer db (x >>= y) := by
  intro n
  obtain ⟨n', hn⟩ := hp n
  rw [bind_eq, exec_bind, hn]
  cases x with
  | ok a => exact hf a rfl n'
  | error e => exact ⟨n', rfl⟩

theorem Gives.value {p : Prog S α} {x : Except S.Err α} (hp : p.Gives answer db x) :
    (p.exec answer n (.start db)).value = x := by
  obtain ⟨n', hn⟩ := hp n
  rw [hn]

end Prog

def serve (answer : Answers S) (p : Prog S Unit) (db : Store S.Key S.Row) : Store S.Key S.Row :=
  (p.exec answer 0 (.start db)).session.view

/-- Serving a request keeps an invariant that all its writes keep. -/
theorem Prog.Keeps.serve {answer : Answers S} {A : (c : S.Call) → S.Answer c → Prop}
    {I : Store S.Key S.Row → Prop} {p : Prog S Unit} {db : Store S.Key S.Row}
    {Q : Unit → Session S → Prop} (hp : p.Keeps A I (.start db) Q) (hI : I db)
    (hanswer : ∀ n c, A c (answer n c)) : I (serve answer p db) :=
  (hp.of_exec ⟨hI, hI⟩ hanswer).view

def Succeeds (answer : Answers S) (p : Prog S Unit) (db : Store S.Key S.Row) : Prop :=
  (p.exec answer 0 (.start db)).value = .ok ()

theorem exists_ok {ε α : Type} {x : Except ε α} (h : x.isOk = true) : ∃ a, x = .ok a := by
  cases x with
  | ok a => exact ⟨a, rfl⟩
  | error e => cases h

theorem eq_ok_of_toOption {ε α : Type} {x : Except ε α} {a : α} (h : x.toOption = some a) :
    x = .ok a := by
  cases x with
  | ok b =>
      cases h
      rfl
  | error e => cases h

theorem succeeds_of_isOk {answer : Answers S} {p : Prog S Unit} {db : Store S.Key S.Row}
    (h : (p.exec answer 0 (.start db)).value.isOk = true) : Succeeds answer p db :=
  (exists_ok h).choose_spec

/-! ## Serving a request is a run -/

namespace System

variable {R : Type} {handler : R → Prog S Unit} {starts : R → Prop}
  {allow : World S R → ℕ → R → Event S → Prop}

/-- Process `i` is at work on the session `σ`, and no other transaction is open. -/
structure Lone (s : System S R) (i : ℕ) (r : R) (p : Prog S Unit) (σ : Session S) : Prop where
  proc : s.proc i = .running r p
  db : s.world.db = σ.db
  view : s.world.view i = σ.view
  others : ∀ j, j ≠ i → s.world.tx j = []

theorem Lone.free {s : System S R} {i : ℕ} {r : R} {p : Prog S Unit} {σ : Session S}
    (hs : s.Lone i r p σ) (k : S.Key) : s.free i k = true := by
  refine List.all_eq_true.2 fun j _ => ?_
  by_cases hj : j = i
  · simp [hj]
  · simp [hs.others j hj, locks]

/-- What a program run alone does, it does as a process. -/
theorem runs_of_exec (hallow : ∀ w i r e, allow w i r e) (answer : Answers S) {i : ℕ} {r : R}
    {p : Prog S Unit} {n : ℕ} {s : System S R} {σ : Session S} (hs : s.Lone i r p σ) :
    ∃ t, Runs handler starts allow s t ∧ t.world.db = (p.exec answer n σ).session.view ∧
      t.proc i = .done r ∧ ∀ j, j ≠ i → t.proc j = s.proc j := by
  induction p generalizing n s σ with
  | ret a =>
      refine ⟨_, .single (.run i r _ (answer n) _ _ _ hs.proc rfl (hallow _ _ _ _)), ?_, ?_, ?_⟩
      · exact hs.view
      · simp
      · exact fun j hj => s.resume_proc_of_ne _ _ hj
  | throw e =>
      refine ⟨_, .single (.run i r _ (answer n) _ _ _ hs.proc rfl (hallow _ _ _ _)), ?_, ?_, ?_⟩
      · exact hs.db
      · simp
      · exact fun j hj => s.resume_proc_of_ne _ _ hj
  | query q k ih =>
      have hstep : Step handler starts allow s _ :=
        .run i r _ (answer n) _ _ _ hs.proc rfl (hallow _ _ _ _)
      have hs' : (s.resume i (s.world.note i r (.query q (S.eval q (s.world.view i))))
          (.running r (k (S.eval q (s.world.view i))))).Lone i r (k (S.eval q σ.view)) σ :=
        ⟨by rw [resume_proc_self, hs.view], hs.db, hs.view, hs.others⟩
      obtain ⟨t, hrun, hdb, hdone, hother⟩ := ih _ (n := n) hs'
      exact ⟨t, .head hstep hrun, hdb, hdone, fun j hj =>
        (hother j hj).trans (s.resume_proc_of_ne _ _ hj)⟩
  | update u k ih =>
      by_cases hguard : S.guard u (σ.view.row (S.key u)) = true
      · have hadvance : s.advance i r (answer n) (.update u k) =
            some (.update u true, s.world.push i r u, .running r (k true)) := by
          simp only [advance, hs.view, hguard, hs.free, if_true]
        have hs' : (s.resume i (s.world.push i r u) (.running r (k true))).Lone i r (k true)
            (σ.apply u) := by
          refine ⟨resume_proc_self _ _ _ _, hs.db, ?_, fun j hj => ?_⟩
          · rw [resume_world, World.push_view_self, hs.view]
            rfl
          · rw [resume_world, World.push_tx_of_ne _ _ _ hj]
            exact hs.others j hj
        obtain ⟨t, hrun, hdb, hdone, hother⟩ := ih true (n := n) hs'
        refine ⟨t, .head (.run i r _ (answer n) _ _ _ hs.proc hadvance (hallow _ _ _ _)) hrun, ?_,
          hdone, fun j hj => (hother j hj).trans (s.resume_proc_of_ne _ _ hj)⟩
        simpa only [Prog.exec, hguard, if_true] using hdb
      · have hmiss : S.guard u (σ.view.row (S.key u)) = false := by simpa using hguard
        have hadvance : s.advance i r (answer n) (.update u k) =
            some (.update u false, s.world.note i r (.update u false), .running r (k false)) := by
          simp only [advance, hs.view, hmiss, Bool.false_eq_true, if_false]
        have hs' : (s.resume i (s.world.note i r (.update u false)) (.running r (k false))).Lone i r
            (k false) σ := ⟨resume_proc_self _ _ _ _, hs.db, hs.view, hs.others⟩
        obtain ⟨t, hrun, hdb, hdone, hother⟩ := ih false (n := n) hs'
        refine ⟨t, .head (.run i r _ (answer n) _ _ _ hs.proc hadvance (hallow _ _ _ _)) hrun, ?_,
          hdone, fun j hj => (hother j hj).trans (s.resume_proc_of_ne _ _ hj)⟩
        simpa only [Prog.exec, hmiss, Bool.false_eq_true, if_false] using hdb
  | call c k ih =>
      have hstep : Step handler starts allow s _ :=
        .run i r _ (answer n) _ _ _ hs.proc rfl (hallow _ _ _ _)
      have hs' : (s.resume i (s.world.note i r (.call c (answer n c)))
          (.running r (k (answer n c)))).Lone i r (k (answer n c)) σ :=
        ⟨resume_proc_self _ _ _ _, hs.db, hs.view, hs.others⟩
      obtain ⟨t, hrun, hdb, hdone, hother⟩ := ih _ (n := n + 1) hs'
      exact ⟨t, .head hstep hrun, hdb, hdone, fun j hj =>
        (hother j hj).trans (s.resume_proc_of_ne _ _ hj)⟩
  | commit k ih =>
      have hstep : Step handler starts allow s _ :=
        .run i r _ (answer n) _ _ _ hs.proc rfl (hallow _ _ _ _)
      have hs' : (s.resume i (s.world.commit i r (.committed (s.world.tx i)))
          (.running r k)).Lone i r k σ.commit := by
        refine ⟨resume_proc_self _ _ _ _, hs.view, ?_, fun j hj => ?_⟩
        · rw [resume_world, World.commit_view_self, hs.view]
          rfl
        · rw [resume_world, World.commit_tx_of_ne _ _ _ hj]
          exact hs.others j hj
      obtain ⟨t, hrun, hdb, hdone, hother⟩ := ih (n := n) hs'
      exact ⟨t, .head hstep hrun, hdb, hdone, fun j hj =>
        (hother j hj).trans (s.resume_proc_of_ne _ _ hj)⟩
  | rollback k ih =>
      have hstep : Step handler starts allow s _ :=
        .run i r _ (answer n) _ _ _ hs.proc rfl (hallow _ _ _ _)
      have hs' : (s.resume i (s.world.abort i r .rolledBack) (.running r k)).Lone i r k
          σ.rollback := by
        refine ⟨resume_proc_self _ _ _ _, hs.db, ?_, fun j hj => ?_⟩
        · rw [resume_world, World.abort_view_self, hs.db]
          rfl
        · rw [resume_world, World.abort_tx_of_ne _ _ _ hj]
          exact hs.others j hj
      obtain ⟨t, hrun, hdb, hdone, hother⟩ := ih (n := n) hs'
      exact ⟨t, .head hstep hrun, hdb, hdone, fun j hj =>
        (hother j hj).trans (s.resume_proc_of_ne _ _ hj)⟩

theorem runs_of_serve (hallow : ∀ w i r e, allow w i r e) (answer : Answers S) {r : R}
    (hr : starts r) {s : System S R} (hs : s.Sane) (hquiet : s.Quiescent) {i : ℕ}
    (hidle : s.proc i = .idle) :
    ∃ t, Runs handler starts allow s t ∧ t.world.db = serve answer (handler r) s.world.db ∧
      t.Quiescent := by
  have hclosed : ∀ j, s.world.tx j = [] := fun j => hs.closed j (hquiet j)
  have hlone : (s.spawn i (.running r (handler r))).Lone i r (handler r) (.start s.world.db) :=
    ⟨s.spawn_proc_self i _, rfl, World.view_of_tx_nil (hclosed i), fun j _ => hclosed j⟩
  obtain ⟨t, hrun, hdb, hdone, hother⟩ := runs_of_exec hallow answer (n := 0) hlone
  refine ⟨t, .head (.start i r hidle hr) hrun, hdb, fun j r' p hj => ?_⟩
  by_cases hji : j = i
  · subst hji
    rw [hdone] at hj
    cases hj
  · rw [hother j hji, s.spawn_proc_of_ne _ hji] at hj
    exact hquiet j r' p hj

theorem sane_of_runs {db : Store S.Key S.Row} {t : System S R}
    (h : Runs handler starts allow (initial db) t) : t.Sane :=
  (Traced.trace (P := fun _ _ _ => True) (fun _ _ => Prog.follows_anything _) (initial_traced db) h).2.sane

theorem exists_idle {s : System S R} (hs : s.Sane) : ∃ i, s.proc i = .idle := by
  obtain ⟨i, hi⟩ := Infinite.exists_notMem_finset s.pids.toFinset
  by_contra hall
  exact hi (List.mem_toFinset.2 (hs.started i fun h => hall ⟨i, h⟩))

end System

/-- One request after the other, each satisfying `ok` in the store it finds. -/
def Serial {R : Type} (handler : R → Prog S Unit) (ok : Store S.Key S.Row → R → Prop) :
    Store S.Key S.Row → Store S.Key S.Row → Prop :=
  Relation.ReflTransGen fun db db' => ∃ answer r, ok db r ∧ db' = serve answer (handler r) db

/-- The rule of invariance for requests served one after the other. -/
theorem Serial.induct {R : Type} {handler : R → Prog S Unit} {ok : Store S.Key S.Row → R → Prop}
    {I : Store S.Key S.Row → Prop} {db db' : Store S.Key S.Row} (h : Serial handler ok db db')
    (hI : I db) (hstep : ∀ db answer r, I db → ok db r → I (serve answer (handler r) db)) :
    I db' := by
  induction h with
  | refl => exact hI
  | tail _ hlast ih =>
      obtain ⟨answer, r, hok, rfl⟩ := hlast
      exact hstep _ answer r ih hok

/-- A store reached by requests served one after the other is reached by a run. -/
theorem Serial.runs {R : Type} {handler : R → Prog S Unit} {ok : Store S.Key S.Row → R → Prop}
    {starts : R → Prop} {allow : World S R → ℕ → R → Event S → Prop}
    (hallow : ∀ w i r e, allow w i r e) (hok : ∀ db r, ok db r → starts r)
    {db db' : Store S.Key S.Row} (h : Serial handler ok db db') :
    ∃ t, System.Runs handler starts allow (System.initial db) t ∧ t.world.db = db' ∧
      t.Quiescent := by
  induction h with
  | refl => exact ⟨_, .refl, rfl, fun i r p hp => nomatch hp⟩
  | tail _ hlast ih =>
      obtain ⟨answer, r, hr, rfl⟩ := hlast
      obtain ⟨s, hrun, rfl, hquiet⟩ := ih
      have hsane := System.sane_of_runs hrun
      obtain ⟨i, hidle⟩ := System.exists_idle hsane
      obtain ⟨t, hrun', hdb, hquiet'⟩ :=
        System.runs_of_serve hallow answer (hok _ r hr) hsane hquiet hidle
      exact ⟨t, hrun.trans hrun', hdb, hquiet'⟩

/-- A request as it was served: the store it found, and what the outside answered it. -/
structure Served (S : Schema) (R : Type) where
  found : Store S.Key S.Row
  answer : Answers S
  request : R

def Served.left {R : Type} (handler : R → Prog S Unit) (s : Served S R) : Store S.Key S.Row :=
  serve s.answer (handler s.request) s.found

/-- The requests of a sequential run, the last one first. -/
inductive Journal {R : Type} (handler : R → Prog S Unit) (ok : Store S.Key S.Row → R → Prop)
    (db : Store S.Key S.Row) : List (Served S R) → Store S.Key S.Row → Prop
  | nil : Journal handler ok db [] db
  | cons {steps : List (Served S R)} (s : Served S R) (hsteps : Journal handler ok db steps s.found)
      (hok : ok s.found s.request) : Journal handler ok db (s :: steps) (s.left handler)

theorem Journal.serial {R : Type} {handler : R → Prog S Unit} {ok : Store S.Key S.Row → R → Prop}
    {db db' : Store S.Key S.Row} {steps : List (Served S R)}
    (h : Journal handler ok db steps db') : Serial handler ok db db' := by
  induction h with
  | nil => exact .refl
  | cons s _ hok ih => exact ih.tail ⟨s.answer, s.request, hok, rfl⟩

end ReadCommitted
