import WhatStore.ReadCommitted.Sequential

/-!
# Programs whose commits keep an invariant

A transaction may break an invariant between two of its writes and restore it before
it commits. `Prog.Commits` asks for the invariant at the commits alone, and for what
`Prog.Ensures` asks when the program returns. A program that throws loses its open
transaction, so the invariant holds there as well.
-/

namespace ReadCommitted

variable {S : Schema}

namespace Prog

/-- Every commit gives a store that satisfies `I`, and when the program returns, its
value and the session it leaves satisfy `Q`. -/
def Commits (A : (c : S.Call) → S.Answer c → Prop) (I : Store S.Key S.Row → Prop) {α : Type} :
    Prog S α → Session S → (α → Session S → Prop) → Prop
  | .ret a, σ, Q => Q a σ
  | .throw _, _, _ => True
  | .query q k, σ, Q => (k (S.eval q σ.view)).Commits A I σ Q
  | .update u k, σ, Q =>
      (S.guard u (σ.view.row (S.key u)) = true → (k true).Commits A I (σ.apply u) Q) ∧
        (S.guard u (σ.view.row (S.key u)) = false → (k false).Commits A I σ Q)
  | .call c k, σ, Q => ∀ a, A c a → (k a).Commits A I σ Q
  | .commit k, σ, Q => I σ.view ∧ k.Commits A I σ.commit Q
  | .rollback k, σ, Q => k.Commits A I σ.rollback Q

variable {answer : Answers S} {A : (c : S.Call) → S.Answer c → Prop}
  {I : Store S.Key S.Row → Prop} {α β : Type} {n : ℕ} {σ : Session S}

theorem Commits.of_exec {p : Prog S α} {Q : α → Session S → Prop} (hp : p.Commits A I σ Q)
    (hσ : I σ.db) (hanswer : ∀ n c, A c (answer n c)) :
    (∀ a, (p.exec answer n σ).value = .ok a → Q a (p.exec answer n σ).session) ∧
      ∀ e, (p.exec answer n σ).value = .error e → I (p.exec answer n σ).session.view := by
  induction p generalizing n σ with
  | ret a =>
      constructor
      · intro b hb
        cases hb
        exact hp
      · intro e he
        cases he
  | throw e =>
      constructor
      · intro a ha
        cases ha
      · intro _ _
        exact hσ
  | query q k ih => exact ih _ hp hσ
  | update u k ih =>
      by_cases hguard : S.guard u (σ.view.row (S.key u)) = true
      · rw [exec_update_hit hguard]
        exact ih true (hp.1 hguard) hσ
      · have hmiss : S.guard u (σ.view.row (S.key u)) = false := by simpa using hguard
        rw [exec_update_miss hmiss]
        exact ih false (hp.2 hmiss) hσ
  | call c k ih => exact ih _ (hp _ (hanswer n c)) hσ
  | commit k ih => exact ih hp.2 hp.1
  | rollback k ih => exact ih hp hσ

theorem commits_bind (p : Prog S α) (f : α → Prog S β) (Q : β → Session S → Prop) :
    (p.bind f).Commits A I σ Q ↔ p.Commits A I σ fun a σ' => (f a).Commits A I σ' Q := by
  induction p generalizing σ with
  | ret a => rfl
  | throw e => rfl
  | query q k ih => simp only [bind, Commits, ih]
  | update u k ih => simp only [bind, Commits, ih]
  | call c k ih => simp only [bind, Commits, ih]
  | commit k ih => simp only [bind, Commits, ih]
  | rollback k ih => simp only [bind, Commits, ih]

theorem Commits.mono {p : Prog S α} {Q Q' : α → Session S → Prop} (hp : p.Commits A I σ Q)
    (hQ : ∀ a σ', Q a σ' → Q' a σ') : p.Commits A I σ Q' := by
  induction p generalizing σ with
  | ret a => exact hQ a σ hp
  | throw e => trivial
  | query q k ih => exact ih _ hp
  | update u k ih => exact ⟨fun h => ih true (hp.1 h), fun h => ih false (hp.2 h)⟩
  | call c k ih => exact fun a ha => ih a (hp a ha)
  | commit k ih => exact ⟨hp.1, ih hp.2⟩
  | rollback k ih => exact ih hp

theorem Commits.seq {p : Prog S α} {f : α → Prog S β} {Q : α → Session S → Prop}
    {Q' : β → Session S → Prop} (hp : p.Commits A I σ Q)
    (hf : ∀ a σ', Q a σ' → (f a).Commits A I σ' Q') : (p >>= f).Commits A I σ Q' :=
  (commits_bind p f Q').2 (hp.mono hf)

/-- A piece of a transaction commits nothing, and keeps what is committed. -/
theorem Within.commits {B : S.Update → Prop} {p : Prog S α} {Q : α → Session S → Prop}
    (hp : p.Within B) (hQ : p.Ensures A σ Q) :
    p.Commits A I σ fun a σ' => Q a σ' ∧ σ'.db = σ.db := by
  have hB := hp []
  clear hp
  suffices hs : ∀ h, p.Along (WithinTx B) h (fun _ _ => True) → p.Ensures A σ Q →
      p.Commits A I σ fun a σ' => Q a σ' ∧ σ'.db = σ.db from hs [] hB hQ
  clear hQ hB
  intro h hB hQ
  induction p generalizing h σ with
  | ret a => exact ⟨hQ, rfl⟩
  | throw e => trivial
  | query q k ih => exact ih _ _ (hB σ.view).2 hQ
  | update u k ih =>
      exact ⟨fun hguard => ih true _ (hB true).2 (hQ.1 hguard),
        fun hguard => ih false _ (hB false).2 (hQ.2 hguard)⟩
  | call c k ih => exact fun a ha => ih a _ (hB a).2 (hQ a ha)
  | commit k ih => exact hB.1.elim
  | rollback k ih => exact hB.1.elim

theorem commits_each {body : α → Prog S Unit} {J : Session S → Prop} {as : List α} (hσ : J σ)
    (hbody : ∀ a ∈ as, ∀ σ, J σ → (body a).Commits A I σ fun _ σ' => J σ') :
    (each body as).Commits A I σ fun _ σ' => J σ' := by
  induction as generalizing σ with
  | nil => exact hσ
  | cons a as ih =>
      exact Commits.seq (hbody a List.mem_cons_self σ hσ) fun _ σ' hσ' =>
        ih hσ' fun b hb => hbody b (List.mem_cons_of_mem _ hb)

/-- A `try` block: when its body throws, what was committed before is left. -/
theorem Commits.attempt {p : Prog S α} {Q : Option α → Session S → Prop}
    (hp : p.Commits A I σ fun a σ' => Q (some a) σ') (hσ : I σ.db)
    (hnone : ∀ db, I db → Q none ⟨db, db⟩) : p.attempt.Commits A I σ Q := by
  induction p generalizing σ with
  | ret a => exact hp
  | throw e => exact hnone σ.db hσ
  | query q k ih => exact ih _ hp hσ
  | update u k ih => exact ⟨fun h => ih true (hp.1 h) hσ, fun h => ih false (hp.2 h) hσ⟩
  | call c k ih => exact fun a ha => ih a (hp a ha) hσ
  | commit k ih => exact ⟨hp.1, ih hp.2 hp.1⟩
  | rollback k ih => exact ih hp hσ

/-- Serving a request keeps an invariant that it keeps at its commits and at its end. -/
theorem Commits.serve {p : Prog S Unit} {db : Store S.Key S.Row}
    (hp : p.Commits A I (.start db) fun _ σ' => I σ'.view) (hdb : I db)
    (hanswer : ∀ n c, A c (answer n c)) : I (serve answer p db) := by
  unfold ReadCommitted.serve
  obtain ⟨hok, herror⟩ := hp.of_exec (n := 0) hdb hanswer
  cases hvalue : (p.exec answer 0 (.start db)).value with
  | ok a => exact hok a hvalue
  | error e => exact herror e hvalue

/-- What holds along a program says what it may write: every update of these kinds keeps
the invariant. -/
theorem Along.keeps {B : Event S → Prop} {p : Prog S α} {h : List (Event S)}
    {Q : α → List (Event S) → Prop} (hp : p.Along (fun _ e => B e) h Q) (hσ : Upholds I σ)
    (hB : ∀ u v, B (.update u true) → S.guard u (v.row (S.key u)) = true → I v →
      I (applyUpdate u v)) : p.Keeps A I σ fun _ σ' => Upholds I σ' := by
  induction p generalizing h σ with
  | ret a => exact hσ
  | throw e => trivial
  | query q k ih => exact ih _ (hp σ.view).2 hσ
  | update u k ih =>
      refine ⟨fun hguard => ?_, fun _ => ih false (hp false).2 hσ⟩
      have hu := hB u _ (hp true).1 hguard hσ.view
      exact ⟨hu, ih true (hp true).2 (hσ.apply hu)⟩
  | call c k ih => exact fun a _ => ih a (hp a).2 hσ
  | commit k ih => exact ih hp.2 hσ.commit
  | rollback k ih => exact ih hp.2 hσ.rollback

end Prog

end ReadCommitted
