import WhatStore.ReadCommitted.Sequential

/-!
# What a program alone brings about

`Prog.asked` lists the calls a program makes when it runs alone, and
`Prog.Achieves` is its total correctness: against these answers the program
returns, and its value, the session it leaves and the calls it made are as
wanted. Running it is then known as a whole (`Achieves.served`). `Prog.Ends` also
speaks of the runs that end with an error.
-/

namespace ReadCommitted

variable {S : Schema}

namespace Prog

def asked (answer : Answers S) {α : Type} : Prog S α → ℕ → Session S → List S.Call
  | .ret _, _, _ => []
  | .throw _, _, _ => []
  | .query q k, n, σ => (k (S.eval q σ.view)).asked answer n σ
  | .update u k, n, σ =>
      if S.guard u (σ.view.row (S.key u)) then (k true).asked answer n (σ.apply u)
      else (k false).asked answer n σ
  | .call c k, n, σ => c :: (k (answer n c)).asked answer (n + 1) σ
  | .commit k, n, σ => k.asked answer n σ.commit
  | .rollback k, n, σ => k.asked answer n σ.rollback

/-- The program returns, and its value, the number of the next call, the session it
leaves and the calls it made satisfy `Q`. -/
def Achieves (answer : Answers S) {α : Type} :
    Prog S α → ℕ → Session S → (α → ℕ → Session S → List S.Call → Prop) → Prop
  | .ret a, n, σ, Q => Q a n σ []
  | .throw _, _, _, _ => False
  | .query q k, n, σ, Q => (k (S.eval q σ.view)).Achieves answer n σ Q
  | .update u k, n, σ, Q =>
      (S.guard u (σ.view.row (S.key u)) = true → (k true).Achieves answer n (σ.apply u) Q) ∧
        (S.guard u (σ.view.row (S.key u)) = false → (k false).Achieves answer n σ Q)
  | .call c k, n, σ, Q =>
      (k (answer n c)).Achieves answer (n + 1) σ fun a n' σ' cs => Q a n' σ' (c :: cs)
  | .commit k, n, σ, Q => k.Achieves answer n σ.commit Q
  | .rollback k, n, σ, Q => k.Achieves answer n σ.rollback Q

variable {answer : Answers S} {α β : Type} {n : ℕ} {σ : Session S}

theorem Achieves.mono {p : Prog S α} {Q Q' : α → ℕ → Session S → List S.Call → Prop}
    (hp : p.Achieves answer n σ Q) (hQ : ∀ a n' σ' cs, Q a n' σ' cs → Q' a n' σ' cs) :
    p.Achieves answer n σ Q' := by
  induction p generalizing n σ Q Q' with
  | ret a => exact hQ a n σ [] hp
  | throw e => exact hp
  | query q k ih => exact ih _ hp hQ
  | update u k ih => exact ⟨fun h => ih true (hp.1 h) hQ, fun h => ih false (hp.2 h) hQ⟩
  | call c k ih => exact ih _ hp fun a n' σ' cs => hQ a n' σ' (c :: cs)
  | commit k ih => exact ih hp hQ
  | rollback k ih => exact ih hp hQ

theorem Achieves.bind {p : Prog S α} {f : α → Prog S β}
    {Q : α → ℕ → Session S → List S.Call → Prop} {Q' : β → ℕ → Session S → List S.Call → Prop}
    (hp : p.Achieves answer n σ Q)
    (hf : ∀ a n' σ' cs, Q a n' σ' cs →
      (f a).Achieves answer n' σ' fun b n'' σ'' cs' => Q' b n'' σ'' (cs ++ cs')) :
    (p.bind f).Achieves answer n σ Q' := by
  induction p generalizing n σ Q Q' with
  | ret a => exact hf a n σ [] hp
  | throw e => exact hp
  | query q k ih => exact ih _ hp hf
  | update u k ih => exact ⟨fun h => ih true (hp.1 h) hf, fun h => ih false (hp.2 h) hf⟩
  | call c k ih => exact ih _ hp fun a n' σ' cs => hf a n' σ' (c :: cs)
  | commit k ih => exact ih hp hf
  | rollback k ih => exact ih hp hf

theorem Achieves.seq {p : Prog S α} {f : α → Prog S β}
    {Q : α → ℕ → Session S → List S.Call → Prop} {Q' : β → ℕ → Session S → List S.Call → Prop}
    (hp : p.Achieves answer n σ Q)
    (hf : ∀ a n' σ' cs, Q a n' σ' cs →
      (f a).Achieves answer n' σ' fun b n'' σ'' cs' => Q' b n'' σ'' (cs ++ cs')) :
    (p >>= f).Achieves answer n σ Q' := hp.bind hf

/-- Running the program gives what it achieves. -/
theorem Achieves.run {p : Prog S α} {Q : α → ℕ → Session S → List S.Call → Prop}
    (hp : p.Achieves answer n σ Q) :
    ∃ a, (p.exec answer n σ).value = .ok a ∧
      Q a (p.exec answer n σ).calls (p.exec answer n σ).session (p.asked answer n σ) := by
  induction p generalizing n σ Q with
  | ret a => exact ⟨a, rfl, hp⟩
  | throw e => exact hp.elim
  | query q k ih => exact ih _ hp
  | update u k ih =>
      by_cases hguard : S.guard u (σ.view.row (S.key u)) = true
      · simpa only [exec, asked, hguard, if_true] using ih true (hp.1 hguard)
      · simpa only [exec, asked, hguard, if_false, Bool.false_eq_true] using
          ih false (hp.2 (by simpa using hguard))
  | call c k ih => exact ih _ hp
  | commit k ih => exact ih hp
  | rollback k ih => exact ih hp

section Rules

variable {Q : β → ℕ → Session S → List S.Call → Prop}

theorem achieves_ask {q : S.Query} {f : S.Result q → Prog S β}
    (hk : (f (S.eval q σ.view)).Achieves answer n σ Q) :
    (query q .ret >>= f).Achieves answer n σ Q := hk

theorem achieves_invoke {c : S.Call} {f : S.Answer c → Prog S β}
    (hk : (f (answer n c)).Achieves answer (n + 1) σ fun b n' σ' cs => Q b n' σ' (c :: cs)) :
    (call c .ret >>= f).Achieves answer n σ Q := hk

theorem achieves_demand {o : Option α} {e : S.Err} {f : α → Prog S β} {a : α} (ho : o = some a)
    (hk : (f a).Achieves answer n σ Q) : (orThrow o e >>= f).Achieves answer n σ Q := by
  subst ho
  exact hk

theorem achieves_check {c : Bool} {e : S.Err} {f : Unit → Prog S β} (hc : c = false)
    (hk : (f ()).Achieves answer n σ Q) : (throwIf c e >>= f).Achieves answer n σ Q := by
  subst hc
  exact hk

theorem achieves_finish {f : Unit → Prog S β} (hk : (f ()).Achieves answer n σ.commit Q) :
    (Prog.commit (.ret ()) >>= f).Achieves answer n σ Q := hk

theorem achieves_write {u : S.Update} {f : Bool → Prog S β}
    (hguard : S.guard u (σ.view.row (S.key u)) = true)
    (hk : (f true).Achieves answer n (σ.apply u) Q) :
    (update u .ret >>= f).Achieves answer n σ Q :=
  ⟨fun _ => hk, fun h => nomatch hguard.symm.trans h⟩

/-- A loop that keeps an invariant and makes only calls of a kind. -/
theorem achieves_each {body : α → Prog S Unit} {I : ℕ → Session S → Prop} {C : S.Call → Prop}
    {as : List α} (hI : I n σ)
    (hbody : ∀ a n σ, I n σ →
      (body a).Achieves answer n σ fun _ n' σ' cs => I n' σ' ∧ ∀ c ∈ cs, C c) :
    (each body as).Achieves answer n σ fun _ n' σ' cs => I n' σ' ∧ ∀ c ∈ cs, C c := by
  induction as generalizing n σ with
  | nil => exact ⟨hI, by simp⟩
  | cons a as ih =>
      refine (hbody a n σ hI).bind fun _ n' σ' cs hfirst => (ih hfirst.1).mono ?_
      intro _ n'' σ'' cs' hrest
      refine ⟨hrest.1, fun c hc => ?_⟩
      rcases List.mem_append.1 hc with hc | hc
      · exact hfirst.2 c hc
      · exact hrest.2 c hc

end Rules

/-! ### Programs that write nothing -/

/-- The program run on a fresh session of `db` writes nothing, however it ends. -/
def Idle (answer : Answers S) (p : Prog S α) (db : Store S.Key S.Row) : Prop :=
  ∀ n, (p.exec answer n (.start db)).session = .start db

variable {db : Store S.Key S.Row}

theorem idle_ret (a : α) : (ret a).Idle answer db := fun _ => rfl

theorem idle_throw (e : S.Err) : (throw e : Prog S α).Idle answer db := fun _ => rfl

theorem idle_ask {q : S.Query} {f : S.Result q → Prog S β} (hk : (f (S.eval q db)).Idle answer db) :
    (query q .ret >>= f).Idle answer db := hk

theorem idle_invoke {c : S.Call} {f : S.Answer c → Prog S β}
    (hk : ∀ n, (f (answer n c)).Idle answer db) : (call c .ret >>= f).Idle answer db :=
  fun n => hk n (n + 1)

theorem Idle.seq {p : Prog S α} {f : α → Prog S β} (hp : p.Idle answer db)
    (hf : ∀ a n, (p.exec answer n (.start db)).value = .ok a → (f a).Idle answer db) :
    (p >>= f).Idle answer db := by
  intro n
  rw [bind_eq, exec_bind, hp n]
  cases hvalue : (p.exec answer n (.start db)).value with
  | ok a => exact hf a n hvalue _
  | error e => rfl

theorem idle_throwIf {c : Bool} {e : S.Err} : (throwIf c e).Idle answer db := by
  cases c with
  | true => exact idle_throw e
  | false => exact idle_ret ()

theorem idle_check {c : Bool} {e : S.Err} {f : Unit → Prog S β}
    (hk : c = false → (f ()).Idle answer db) : (throwIf c e >>= f).Idle answer db := by
  cases c with
  | true => exact idle_throw e
  | false => exact hk rfl

theorem idle_demand {o : Option α} {e : S.Err} {f : α → Prog S β}
    (hk : ∀ a, o = some a → (f a).Idle answer db) : (orThrow o e >>= f).Idle answer db := by
  cases o with
  | some a => exact hk a rfl
  | none => exact idle_throw e

theorem idle_finish {f : Unit → Prog S β} (hk : (f ()).Idle answer db) :
    (Prog.commit (.ret ()) >>= f).Idle answer db := hk

theorem Gives.idle {p : Prog S α} {x : Except S.Err α} (hp : p.Gives answer db x) :
    p.Idle answer db := by
  intro n
  obtain ⟨n', hn⟩ := hp n
  rw [hn]

/-! ### Programs however they end -/

/-- However the program ends, with a value or an error, that, the number of the next
call and the session it leaves satisfy `R`. -/
def Ends (answer : Answers S) (p : Prog S α) (n : ℕ) (σ : Session S)
    (R : Except S.Err α → ℕ → Session S → Prop) : Prop :=
  R (p.exec answer n σ).value (p.exec answer n σ).calls (p.exec answer n σ).session

section Ends

variable {R : Except S.Err β → ℕ → Session S → Prop}

theorem Ends.mono {p : Prog S α} {R R' : Except S.Err α → ℕ → Session S → Prop}
    (hp : p.Ends answer n σ R) (hR : ∀ v n' σ', R v n' σ' → R' v n' σ') :
    p.Ends answer n σ R' := hR _ _ _ hp

theorem Ends.seq {p : Prog S α} {f : α → Prog S β} {R' : Except S.Err α → ℕ → Session S → Prop}
    (hp : p.Ends answer n σ R') (hf : ∀ a n' σ', R' (.ok a) n' σ' → (f a).Ends answer n' σ' R)
    (herror : ∀ e n' σ', R' (.error e) n' σ' → R (.error e) n' σ') :
    (p >>= f).Ends answer n σ R := by
  rw [Ends, bind_eq, exec_bind]
  rw [Ends] at hp
  cases hvalue : (p.exec answer n σ).value with
  | ok a =>
      rw [hvalue] at hp
      exact hf a _ _ hp
  | error e =>
      rw [hvalue] at hp
      exact herror e _ _ hp

theorem ends_ask {q : S.Query} {f : S.Result q → Prog S β}
    (hk : (f (S.eval q σ.view)).Ends answer n σ R) : (query q .ret >>= f).Ends answer n σ R := hk

theorem ends_invoke {c : S.Call} {f : S.Answer c → Prog S β}
    (hk : (f (answer n c)).Ends answer (n + 1) σ R) : (call c .ret >>= f).Ends answer n σ R := hk

theorem ends_finish {f : Unit → Prog S β} (hk : (f ()).Ends answer n σ.commit R) :
    (Prog.commit (.ret ()) >>= f).Ends answer n σ R := hk

theorem ends_write {u : S.Update} {f : Bool → Prog S β}
    (hhit : S.guard u (σ.view.row (S.key u)) = true → (f true).Ends answer n (σ.apply u) R)
    (hmiss : S.guard u (σ.view.row (S.key u)) = false → (f false).Ends answer n σ R) :
    (update u .ret >>= f).Ends answer n σ R := by
  cases hguard : S.guard u (σ.view.row (S.key u)) with
  | true => simpa only [Ends, bind_eq, bind, exec, hguard, if_true] using hhit hguard
  | false =>
      simpa only [Ends, bind_eq, bind, exec, hguard, Bool.false_eq_true, if_false] using hmiss hguard

theorem ends_throwIf {c : Bool} {e : S.Err} {R : Except S.Err Unit → ℕ → Session S → Prop}
    (herror : c = true → R (.error e) n σ.rollback) (hk : c = false → R (.ok ()) n σ) :
    (throwIf c e).Ends answer n σ R := by
  cases c with
  | true => exact herror rfl
  | false => exact hk rfl

theorem ends_check {c : Bool} {e : S.Err} {f : Unit → Prog S β}
    (herror : c = true → R (.error e) n σ.rollback)
    (hk : c = false → (f ()).Ends answer n σ R) : (throwIf c e >>= f).Ends answer n σ R := by
  cases c with
  | true => exact herror rfl
  | false => exact hk rfl

theorem ends_demand {o : Option α} {e : S.Err} {f : α → Prog S β}
    (herror : o = none → R (.error e) n σ.rollback)
    (hk : ∀ a, o = some a → (f a).Ends answer n σ R) : (orThrow o e >>= f).Ends answer n σ R := by
  cases o with
  | none => exact herror rfl
  | some a => exact hk a rfl

theorem ends_runIf {c : Bool} {p : Prog S Unit} {R : Except S.Err Unit → ℕ → Session S → Prop}
    (hp : c = true → p.Ends answer n σ R) (hk : c = false → R (.ok ()) n σ) :
    (runIf c p).Ends answer n σ R := by
  cases c with
  | true => exact hp rfl
  | false => exact hk rfl

theorem Ends.attempt {p : Prog S α} {R : Except S.Err (Option α) → ℕ → Session S → Prop}
    (hp : p.Ends answer n σ fun v n' σ' => R (.ok v.toOption) n' σ') :
    p.attempt.Ends answer n σ R := by
  rw [Ends, exec_attempt]
  exact hp

theorem ends_each {body : α → Prog S Unit} {I : List α → ℕ → Session S → Prop} {as : List α}
    (hI : I as n σ) (hbody : ∀ a as n σ, I (a :: as) n σ →
      (body a).Ends answer n σ fun v n' σ' => v = .ok () ∧ I as n' σ') :
    (each body as).Ends answer n σ fun v n' σ' => v = .ok () ∧ I [] n' σ' := by
  induction as generalizing n σ with
  | nil => exact ⟨rfl, hI⟩
  | cons a as ih =>
      refine Ends.seq (hbody a as n σ hI) (fun _ n' σ' h => ih h.2) ?_
      rintro e n' σ' ⟨⟨⟩, -⟩

theorem Achieves.ends {p : Prog S α} {Q : α → ℕ → Session S → List S.Call → Prop}
    (hp : p.Achieves answer n σ Q) :
    p.Ends answer n σ fun v n' σ' => ∃ a cs, v = .ok a ∧ Q a n' σ' cs := by
  obtain ⟨a, hvalue, hQ⟩ := hp.run
  exact ⟨a, _, hvalue, hQ⟩

/-- What a program keeps is there however it ends. -/
theorem Keeps.ends {A : (c : S.Call) → S.Answer c → Prop} {I : Store S.Key S.Row → Prop}
    {p : Prog S α} {Q : α → Session S → Prop} (hp : p.Keeps A I σ Q) (hσ : Upholds I σ)
    (hanswer : ∀ n c, A c (answer n c)) : p.Ends answer n σ fun _ _ σ' => Upholds I σ' :=
  hp.of_exec hσ hanswer

end Ends

end Prog

def requested (answer : Answers S) (p : Prog S Unit) (db : Store S.Key S.Row) : List S.Call :=
  p.asked answer 0 (.start db)

theorem Prog.Achieves.served {answer : Answers S} {p : Prog S Unit} {db : Store S.Key S.Row}
    {Q : Session S → List S.Call → Prop}
    (hp : p.Achieves answer 0 (.start db) fun _ _ σ cs => Q σ cs) :
    ∃ σ, σ.view = serve answer p db ∧ Q σ (requested answer p db) :=
  ⟨_, rfl, hp.run.choose_spec.2⟩

theorem Prog.Ends.served {answer : Answers S} {p : Prog S Unit} {db : Store S.Key S.Row}
    {R : Store S.Key S.Row → Prop} (hp : p.Ends answer 0 (.start db) fun _ _ σ => R σ.view) :
    R (serve answer p db) := hp

theorem Prog.Idle.served {answer : Answers S} {p : Prog S Unit} {db : Store S.Key S.Row}
    (hp : p.Idle answer db) : serve answer p db = db := by
  rw [serve, hp 0]
  rfl

end ReadCommitted
