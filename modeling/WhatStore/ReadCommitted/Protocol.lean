import WhatStore.ReadCommitted.System

/-!
# Protocols and the programs that follow them

A protocol says which event may come next in a process, given the request the
process works on and the events it has gone through so far. `Prog.Along`
checks a program against a protocol path by path, with nothing known about the
other processes: a query may answer whatever some store answers, an update may
hit or miss, an outside call may answer anything.

`Traced.trace` is the refinement theorem: the worlds of a run of programs that
follow a protocol form a `Trace`, in which each step is one event the protocol
admits. Invariants are then proved over traces, by induction on single events.
-/

namespace ReadCommitted

variable {S : Schema} {R : Type}

/-- What may come next after a history of events, which is listed newest first. -/
abbrev Protocol (S : Schema) (R : Type) := R → List (Event S) → Event S → Prop

/-- The updates of the transaction that is open after a history, newest first. -/
def openTx : List (Event S) → List S.Update
  | [] => []
  | .update u true :: h => u :: openTx h
  | .update _ false :: h => openTx h
  | .query _ _ :: h => openTx h
  | .call _ _ :: h => openTx h
  | .committed _ :: _ => []
  | .rolledBack :: _ => []
  | .returned _ :: _ => []
  | .threw _ :: _ => []

@[simp] theorem openTx_nil : openTx ([] : List (Event S)) = [] := rfl
@[simp] theorem openTx_hit (u : S.Update) (h) : openTx (.update u true :: h) = u :: openTx h := rfl
@[simp] theorem openTx_miss (u : S.Update) (h) : openTx (.update u false :: h) = openTx h := rfl
@[simp] theorem openTx_query (q : S.Query) (x h) : openTx (.query q x :: h) = openTx h := rfl
@[simp] theorem openTx_call (c : S.Call) (a h) : openTx (.call c a :: h) = openTx h := rfl
@[simp] theorem openTx_committed (tx) (h : List (Event S)) :
    openTx (.committed tx :: h) = [] := rfl
@[simp] theorem openTx_rolledBack (h : List (Event S)) : openTx (.rolledBack :: h) = [] := rfl
@[simp] theorem openTx_returned (tx) (h : List (Event S)) : openTx (.returned tx :: h) = [] := rfl
@[simp] theorem openTx_threw (e) (h : List (Event S)) : openTx (.threw e :: h) = [] := rfl

/-- An update of the open transaction is in the history, on top of what the
transaction held before it. -/
theorem exists_of_mem_openTx {u : S.Update} {h : List (Event S)} (hu : u ∈ openTx h) :
    ∃ later earlier, h = later ++ .update u true :: earlier ∧ openTx earlier <:+ openTx h := by
  induction h with
  | nil => cases hu
  | cons e h ih =>
      have hrest : u ∈ openTx h → openTx h <:+ openTx (e :: h) → ∃ later earlier,
          e :: h = later ++ .update u true :: earlier ∧ openTx earlier <:+ openTx (e :: h) := by
        intro hmem hsuffix
        obtain ⟨later, earlier, heq, hearlier⟩ := ih hmem
        exact ⟨e :: later, earlier, by rw [heq, List.cons_append], hearlier.trans hsuffix⟩
      cases e with
      | update u' hit =>
          cases hit with
          | false => exact hrest hu (List.suffix_refl _)
          | true =>
              rcases List.mem_cons.1 hu with rfl | hmem
              · exact ⟨[], h, rfl, List.suffix_cons _ _⟩
              · exact hrest hmem (List.suffix_cons _ _)
      | query q x => exact hrest hu (List.suffix_refl _)
      | call c a => exact hrest hu (List.suffix_refl _)
      | committed tx => cases hu
      | rolledBack => cases hu
      | returned tx => cases hu
      | threw err => cases hu

def Event.Final : Event S → Prop
  | .returned _ => True
  | .threw _ => True
  | _ => False

def Finished (h : List (Event S)) : Prop := ∃ e ∈ h.head?, e.Final

@[simp] theorem not_finished_nil : ¬ Finished ([] : List (Event S)) := by
  simp [Finished]

/-- An event inside a transaction, with an update that satisfies `A` if it has
one. -/
def Event.Inside (A : S.Update → Prop) : Event S → Prop
  | .query _ _ => True
  | .call _ _ => True
  | .update u _ => A u
  | _ => False

theorem Event.Inside.mono {A B : S.Update → Prop} {e : Event S} (he : e.Inside A)
    (hAB : ∀ u, A u → B u) : e.Inside B := by
  cases e with
  | update u hit => exact hAB u he
  | _ => exact he

/-! ## Programs that follow a protocol -/

namespace Prog

/-- Every path of the program, from the history `h` on, keeps to the protocol
and ends with a value and a history that satisfy `Q`. -/
def Along (P : List (Event S) → Event S → Prop) {α : Type} :
    Prog S α → List (Event S) → (α → List (Event S) → Prop) → Prop
  | .ret a, h, Q => Q a h
  | .throw e, h, _ => P h (.threw e)
  | .query q k, h, Q => ∀ s : Store S.Key S.Row,
      P h (.query q (S.eval q s)) ∧ (k (S.eval q s)).Along P (.query q (S.eval q s) :: h) Q
  | .update u k, h, Q => ∀ hit, P h (.update u hit) ∧ (k hit).Along P (.update u hit :: h) Q
  | .call c k, h, Q => ∀ a, P h (.call c a) ∧ (k a).Along P (.call c a :: h) Q
  | .commit k, h, Q => P h (.committed (openTx h)) ∧ k.Along P (.committed (openTx h) :: h) Q
  | .rollback k, h, Q => P h .rolledBack ∧ k.Along P (.rolledBack :: h) Q

/-- A program that returns takes no step. -/
example (P : List (Event S) → Event S → Prop) {α : Type} (a : α) (h : List (Event S)) :
    (ret a : Prog S α).Along P h fun b h' => b = a ∧ h' = h := by
  simp [Along]

/-- A program for a whole request follows the protocol from its start to its
return. -/
def Follows (P : List (Event S) → Event S → Prop) (p : Prog S Unit) : Prop :=
  p.Along P [] fun _ h => P h (.returned (openTx h))

variable {P : List (Event S) → Event S → Prop}

theorem along_bind {α β : Type} (p : Prog S α) (f : α → Prog S β) (h : List (Event S))
    (Q : β → List (Event S) → Prop) :
    (p.bind f).Along P h Q ↔ p.Along P h fun a h => (f a).Along P h Q := by
  induction p generalizing h with
  | ret a => rfl
  | throw e => rfl
  | query q k ih => simp only [bind, Along, ih]
  | update u k ih => simp only [bind, Along, ih]
  | call c k ih => simp only [bind, Along, ih]
  | commit k ih => simp only [bind, Along, ih]
  | rollback k ih => simp only [bind, Along, ih]

theorem Along.mono {α : Type} {p : Prog S α} {h : List (Event S)}
    {Q Q' : α → List (Event S) → Prop} (hp : p.Along P h Q) (hQ : ∀ a h, Q a h → Q' a h) :
    p.Along P h Q' := by
  induction p generalizing h with
  | ret a => exact hQ a h hp
  | throw e => exact hp
  | query q k ih => exact fun s => ⟨(hp s).1, ih _ (hp s).2⟩
  | update u k ih => exact fun hit => ⟨(hp hit).1, ih _ (hp hit).2⟩
  | call c k ih => exact fun a => ⟨(hp a).1, ih _ (hp a).2⟩
  | commit k ih => exact ⟨hp.1, ih hp.2⟩
  | rollback k ih => exact ⟨hp.1, ih hp.2⟩

theorem Along.weaken_inside {P' : List (Event S) → Event S → Prop} {α : Type} {p : Prog S α}
    {h : List (Event S)} {Q : α → List (Event S) → Prop} (hp : p.Along P h Q)
    (hP : ∀ h e, (∀ tx, e ≠ .returned tx) → P h e → P' h e) : p.Along P' h Q := by
  induction p generalizing h with
  | ret a => exact hp
  | throw e => exact hP h _ nofun hp
  | query q k ih => exact fun s => ⟨hP h _ nofun (hp s).1, ih _ (hp s).2⟩
  | update u k ih => exact fun hit => ⟨hP h _ nofun (hp hit).1, ih _ (hp hit).2⟩
  | call c k ih => exact fun a => ⟨hP h _ nofun (hp a).1, ih _ (hp a).2⟩
  | commit k ih => exact ⟨hP h _ nofun hp.1, ih hp.2⟩
  | rollback k ih => exact ⟨hP h _ nofun hp.1, ih hp.2⟩

/-- A program that follows a protocol follows every weaker one. -/
theorem Along.weaken {P' : List (Event S) → Event S → Prop} {α : Type} {p : Prog S α}
    {h : List (Event S)} {Q : α → List (Event S) → Prop} (hp : p.Along P h Q)
    (hP : ∀ h e, P h e → P' h e) : p.Along P' h Q :=
  hp.weaken_inside fun h e _ => hP h e

theorem Along.bind {α β : Type} {p : Prog S α} {f : α → Prog S β} {h : List (Event S)}
    {Q : α → List (Event S) → Prop} {Q' : β → List (Event S) → Prop} (hp : p.Along P h Q)
    (hf : ∀ a h, Q a h → (f a).Along P h Q') : (p.bind f).Along P h Q' :=
  (along_bind p f h Q').2 (hp.mono hf)

theorem along_seq {α β : Type} {p : Prog S α} {f : α → Prog S β} {h : List (Event S)}
    {Q : β → List (Event S) → Prop} :
    (p >>= f).Along P h Q ↔ p.Along P h fun a h => (f a).Along P h Q :=
  along_bind p f h Q

theorem Along.grows {α : Type} {p : Prog S α} {h : List (Event S)}
    {Q : α → List (Event S) → Prop} (hp : p.Along P h Q) :
    p.Along P h fun a h' => h <:+ h' ∧ Q a h' := by
  suffices hs : ∀ g, g <:+ h → p.Along P h fun a h' => g <:+ h' ∧ Q a h' from
    hs h (List.suffix_refl h)
  intro g hg
  induction p generalizing h with
  | ret a => exact ⟨hg, hp⟩
  | throw e => exact hp
  | query q k ih => exact fun s => ⟨(hp s).1, ih _ (hp s).2 (hg.trans (List.suffix_cons _ _))⟩
  | update u k ih =>
      exact fun hit => ⟨(hp hit).1, ih _ (hp hit).2 (hg.trans (List.suffix_cons _ _))⟩
  | call c k ih => exact fun a => ⟨(hp a).1, ih _ (hp a).2 (hg.trans (List.suffix_cons _ _))⟩
  | commit k ih => exact ⟨hp.1, ih hp.2 (hg.trans (List.suffix_cons _ _))⟩
  | rollback k ih => exact ⟨hp.1, ih hp.2 (hg.trans (List.suffix_cons _ _))⟩

theorem Along.and {P' : List (Event S) → Event S → Prop} {α : Type} {p : Prog S α}
    {h : List (Event S)} {Q Q' : α → List (Event S) → Prop} (hp : p.Along P h Q)
    (hp' : p.Along P' h Q') :
    p.Along (fun h e => P h e ∧ P' h e) h fun a h => Q a h ∧ Q' a h := by
  induction p generalizing h with
  | ret a => exact ⟨hp, hp'⟩
  | throw e => exact ⟨hp, hp'⟩
  | query q k ih => exact fun s => ⟨⟨(hp s).1, (hp' s).1⟩, ih _ (hp s).2 (hp' s).2⟩
  | update u k ih =>
      exact fun hit => ⟨⟨(hp hit).1, (hp' hit).1⟩, ih _ (hp hit).2 (hp' hit).2⟩
  | call c k ih => exact fun a => ⟨⟨(hp a).1, (hp' a).1⟩, ih _ (hp a).2 (hp' a).2⟩
  | commit k ih => exact ⟨⟨hp.1, hp'.1⟩, ih hp.2 hp'.2⟩
  | rollback k ih => exact ⟨⟨hp.1, hp'.1⟩, ih hp.2 hp'.2⟩

theorem Follows.and {P' : List (Event S) → Event S → Prop} {p : Prog S Unit}
    (hp : p.Follows P) (hp' : p.Follows P') : p.Follows fun h e => P h e ∧ P' h e :=
  Along.and hp hp'

theorem Follows.weaken {P' : List (Event S) → Event S → Prop} {p : Prog S Unit}
    (hp : p.Follows P) (hP : ∀ h e, P h e → P' h e) : p.Follows P' :=
  (Along.weaken hp hP).mono fun _ h hret => hP h _ hret

theorem follows_anything (p : Prog S Unit) : p.Follows fun _ _ => True := by
  suffices h : ∀ h, p.Along (fun _ _ => True) h fun _ _ => True from h []
  induction p with
  | ret a => exact fun _ => trivial
  | throw e => exact fun _ => trivial
  | query q k ih => exact fun h s => ⟨trivial, ih _ _⟩
  | update u k ih => exact fun h hit => ⟨trivial, ih _ _⟩
  | call c k ih => exact fun h a => ⟨trivial, ih _ _⟩
  | commit k ih => exact fun h => ⟨trivial, ih _⟩
  | rollback k ih => exact fun h => ⟨trivial, ih _⟩

theorem along_ask {β : Type} {q : S.Query} {f : S.Result q → Prog S β} {h : List (Event S)}
    {Q : β → List (Event S) → Prop} (hq : ∀ x, P h (.query q x))
    (hk : ∀ s, (f (S.eval q s)).Along P (.query q (S.eval q s) :: h) Q) :
    (Prog.query q .ret >>= f).Along P h Q :=
  fun s => ⟨hq _, hk s⟩

theorem along_invoke {β : Type} {c : S.Call} {f : S.Answer c → Prog S β} {h : List (Event S)}
    {Q : β → List (Event S) → Prop} (hc : ∀ a, P h (.call c a))
    (hk : ∀ a, (f a).Along P (.call c a :: h) Q) : (Prog.call c .ret >>= f).Along P h Q :=
  fun a => ⟨hc a, hk a⟩

theorem along_throwIf {c : Bool} {e : S.Err} {h : List (Event S)}
    {Q : Unit → List (Event S) → Prop} :
    (throwIf c e).Along P h Q ↔ (c = true → P h (.threw e)) ∧ (c = false → Q () h) := by
  cases c <;> simp [throwIf, Along]

theorem along_runIf {c : Bool} {p : Prog S Unit} {h : List (Event S)}
    {Q : Unit → List (Event S) → Prop} :
    (runIf c p).Along P h Q ↔ (c = true → p.Along P h Q) ∧ (c = false → Q () h) := by
  cases c <;> simp [runIf, Along]

theorem along_orThrow {α : Type} {o : Option α} {e : S.Err} {h : List (Event S)}
    {Q : α → List (Event S) → Prop} :
    (orThrow o e).Along P h Q ↔ (o = none → P h (.threw e)) ∧ ∀ a, o = some a → Q a h := by
  cases o <;> simp [orThrow, Along]

theorem along_ofExcept {α : Type} {x : Except S.Err α} {h : List (Event S)}
    {Q : α → List (Event S) → Prop} :
    (ofExcept x).Along P h Q ↔ (∀ e, x = .error e → P h (.threw e)) ∧ ∀ a, x = .ok a → Q a h := by
  cases x <;> simp [ofExcept, Along]

/-- A protocol that restricts only the updates and the ends of transactions. -/
structure Lenient (P : List (Event S) → Event S → Prop) : Prop where
  query : ∀ h q x, P h (.query q x)
  call : ∀ h c a, P h (.call c a)
  threw : ∀ h e, P h (.threw e)

namespace Lenient

variable {α β : Type} {h : List (Event S)} {Q : β → List (Event S) → Prop}

theorem ask (hP : Lenient P) {q : S.Query} {f : S.Result q → Prog S β}
    (hk : ∀ s, (f (S.eval q s)).Along P (.query q (S.eval q s) :: h) Q) :
    (Prog.query q .ret >>= f).Along P h Q :=
  along_ask (hP.query h q) hk

theorem invoke (hP : Lenient P) {c : S.Call} {f : S.Answer c → Prog S β}
    (hk : ∀ a, (f a).Along P (.call c a :: h) Q) : (Prog.call c .ret >>= f).Along P h Q :=
  along_invoke (hP.call h c) hk

theorem demand (hP : Lenient P) {o : Option α} {e : S.Err} {f : α → Prog S β}
    (hk : ∀ a, o = some a → (f a).Along P h Q) : (orThrow o e >>= f).Along P h Q :=
  along_seq.2 (along_orThrow.2 ⟨fun _ => hP.threw h e, hk⟩)

theorem check (hP : Lenient P) {c : Bool} {e : S.Err} {f : Unit → Prog S β}
    (hk : c = false → (f ()).Along P h Q) : (throwIf c e >>= f).Along P h Q :=
  along_seq.2 (along_throwIf.2 ⟨fun _ => hP.threw h e, hk⟩)

theorem lift (hP : Lenient P) {x : Except S.Err α} {f : α → Prog S β}
    (hk : ∀ a, x = .ok a → (f a).Along P h Q) : (ofExcept x >>= f).Along P h Q :=
  along_seq.2 (along_ofExcept.2 ⟨fun e _ => hP.threw h e, hk⟩)

theorem issue {u : S.Update} {f : Bool → Prog S β} (hu : ∀ hit, P h (.update u hit))
    (hk : ∀ hit, (f hit).Along P (.update u hit :: h) Q) :
    (Prog.update u .ret >>= f).Along P h Q :=
  fun hit => ⟨hu hit, hk hit⟩

theorem require (hP : Lenient P) {u : S.Update} {e : S.Err} {f : Unit → Prog S β}
    (hu : ∀ hit, P h (.update u hit)) (hk : (f ()).Along P (.update u true :: h) Q) :
    ((Prog.update u .ret >>= fun hit => throwIf (!hit) e) >>= f).Along P h Q := by
  refine along_seq.2 (issue hu fun hit => ?_)
  cases hit with
  | false => exact hP.threw _ e
  | true => exact hk

end Lenient

/-- A protocol that restricts only the updates that change a row and the ends
of transactions. -/
structure Permissive (P : List (Event S) → Event S → Prop) : Prop extends Lenient P where
  miss : ∀ h u, P h (.update u false)

namespace Permissive

variable {α β : Type} {h : List (Event S)} {Q : β → List (Event S) → Prop}

theorem write (hP : Permissive P) {u : S.Update} {f : Bool → Prog S β}
    (hu : P h (.update u true)) (hk : ∀ hit, (f hit).Along P (.update u hit :: h) Q) :
    (Prog.update u .ret >>= f).Along P h Q := by
  refine Lenient.issue (fun hit => ?_) hk
  cases hit with
  | true => exact hu
  | false => exact hP.miss h u

theorem finish {f : Unit → Prog S β} (hcommit : P h (.committed (openTx h)))
    (hk : (f ()).Along P (.committed (openTx h) :: h) Q) :
    (Prog.commit (.ret ()) >>= f).Along P h Q :=
  ⟨hcommit, hk⟩

/-- The rest of the program knows only that the history has grown. -/
theorem skip {p : Prog S α} {f : α → Prog S β} (hp : p.Along P h fun _ _ => True)
    (hk : ∀ a h', h <:+ h' → (f a).Along P h' Q) : (p >>= f).Along P h Q :=
  along_seq.2 (hp.grows.mono fun a h' hh => hk a h' hh.1)

theorem skipIf {c : Bool} {p : Prog S Unit} {f : Unit → Prog S β}
    (hp : c = true → p.Along P h fun _ _ => True)
    (hk : ∀ h', h <:+ h' → (f ()).Along P h' Q) : (runIf c p >>= f).Along P h Q :=
  skip (along_runIf.2 ⟨hp, fun _ => trivial⟩) fun _ h' => hk h'

theorem attempt {p : Prog S α} {Q : Option α → List (Event S) → Prop}
    (hp : p.Along P h fun a h' => Q (some a) h')
    (hrollback : ∀ h', P h' .rolledBack ∧ Q none (.rolledBack :: h')) :
    p.attempt.Along P h Q := by
  induction p generalizing h with
  | ret a => exact hp
  | throw e => exact hrollback h
  | query q k ih => exact fun s => ⟨(hp s).1, ih _ (hp s).2⟩
  | update u k ih => exact fun hit => ⟨(hp hit).1, ih _ (hp hit).2⟩
  | call c k ih => exact fun a => ⟨(hp a).1, ih _ (hp a).2⟩
  | commit k ih => exact ⟨hp.1, ih hp.2⟩
  | rollback k ih => exact ⟨hp.1, ih hp.2⟩

end Permissive

/-- A loop follows the protocol when its body does and keeps an invariant of
the elements still to come. -/
theorem along_each {α : Type} {body : α → Prog S Unit}
    {I : List α → List (Event S) → Prop} {as : List α} {h : List (Event S)} (hI : I as h)
    (hbody : ∀ a as h, I (a :: as) h → (body a).Along P h fun _ h => I as h) :
    (each body as).Along P h fun _ h => I [] h := by
  induction as generalizing h with
  | nil => exact hI
  | cons a as ih => exact (hbody a as h hI).bind fun _ h' hI' => ih hI'

theorem along_collect {α β : Type} {body : α → Prog S β}
    {I : List α → List β → List (Event S) → Prop} {as : List α} (bs : List β)
    {h : List (Event S)} (hI : I as bs h)
    (hbody : ∀ a as bs h, I (a :: as) bs h →
      (body a).Along P h fun b h => I as (bs ++ [b]) h) :
    (collect body as).Along P h fun rest h => I [] (bs ++ rest) h := by
  induction as generalizing bs h with
  | nil => simpa [collect, Along] using hI
  | cons a as ih =>
      refine (hbody a as bs h hI).bind fun b h' hI' => ?_
      refine (ih (bs ++ [b]) hI').bind fun rest h'' hI'' => ?_
      simpa [Along] using hI''

/-- A `try` block: what holds when its body returns, or after the rollback when
it throws. -/
theorem along_attempt {α : Type} {p : Prog S α} {h : List (Event S)}
    {Q : Option α → List (Event S) → Prop}
    (hp : p.Along (fun h e => match e with
      | .threw _ => P h .rolledBack ∧ Q none (.rolledBack :: h)
      | e => P h e) h fun a h => Q (some a) h) :
    p.attempt.Along P h Q := by
  induction p generalizing h with
  | ret a => exact hp
  | throw e => exact hp
  | query q k ih => exact fun s => ⟨(hp s).1, ih _ (hp s).2⟩
  | update u k ih => exact fun hit => ⟨(hp hit).1, ih _ (hp hit).2⟩
  | call c k ih => exact fun a => ⟨(hp a).1, ih _ (hp a).2⟩
  | commit k ih => exact ⟨hp.1, ih hp.2⟩
  | rollback k ih => exact ⟨hp.1, ih hp.2⟩

/-! ### Programs whose every event is of a kind -/

/-- Every event of the program is of the kind `B`. -/
def Only (B : Event S → Prop) {α : Type} (p : Prog S α) : Prop :=
  ∀ h, p.Along (fun _ e => B e) h fun _ _ => True

section Only

variable {B : Event S → Prop} {α β : Type}

theorem only_bind {p : Prog S α} {f : α → Prog S β} (hp : p.Only B) (hf : ∀ a, (f a).Only B) :
    (p >>= f).Only B :=
  fun h => along_seq.2 ((hp h).mono fun a h' _ => hf a h')

theorem Only.mono {B' : Event S → Prop} {p : Prog S α} (hp : p.Only B) (hB : ∀ e, B e → B' e) :
    p.Only B' := fun h => (hp h).weaken fun _ => hB

theorem only_ret {a : α} : (ret a : Prog S α).Only B := fun _ => trivial

theorem only_query {q : S.Query} (hq : ∀ x, B (.query q x)) :
    (Prog.query q .ret : Prog S (S.Result q)).Only B := fun _ _ => ⟨hq _, trivial⟩

theorem only_call {c : S.Call} (hc : ∀ a, B (.call c a)) :
    (Prog.call c .ret : Prog S (S.Answer c)).Only B := fun _ a => ⟨hc a, trivial⟩

theorem only_update {u : S.Update} (hu : ∀ hit, B (.update u hit)) :
    (Prog.update u .ret : Prog S Bool).Only B := fun _ hit => ⟨hu hit, trivial⟩

theorem only_throwIf (hthrow : ∀ e, B (.threw e)) {c : Bool} {e : S.Err} :
    (throwIf c e : Prog S Unit).Only B :=
  fun _ => along_throwIf.2 ⟨fun _ => hthrow e, fun _ => trivial⟩

theorem only_orThrow (hthrow : ∀ e, B (.threw e)) {o : Option α} {e : S.Err} :
    (orThrow o e).Only B :=
  fun _ => along_orThrow.2 ⟨fun _ => hthrow e, fun _ _ => trivial⟩

theorem only_ofExcept (hthrow : ∀ e, B (.threw e)) {x : Except S.Err α} : (ofExcept x).Only B :=
  fun _ => along_ofExcept.2 ⟨fun e _ => hthrow e, fun _ _ => trivial⟩

theorem only_runIf {c : Bool} {p : Prog S Unit} (hp : p.Only B) : (runIf c p).Only B :=
  fun h => along_runIf.2 ⟨fun _ => hp h, fun _ => trivial⟩

theorem only_each {body : α → Prog S Unit} {as : List α} (hbody : ∀ a, (body a).Only B) :
    (each body as).Only B :=
  fun _ => along_each (I := fun _ _ => True) trivial fun a _ h _ => hbody a h

/-- A program of events of a kind follows a protocol that admits them while an
invariant holds that they keep. -/
theorem Only.along_keeping {I : List (Event S) → Prop} {p : Prog S α} {h : List (Event S)}
    (hp : p.Only B) (hI : I h)
    (hstep : ∀ h e, (∀ tx, e ≠ .returned tx) → I h → B e → P h e ∧ I (e :: h)) :
    p.Along P h fun _ h' => I h' := by
  have hall := hp h
  clear hp
  induction p generalizing h with
  | ret a => exact hI
  | throw e => exact (hstep h (.threw e) nofun hI hall).1
  | query q k ih =>
      intro s
      have hs := hstep h (.query q (S.eval q s)) nofun hI (hall s).1
      exact ⟨hs.1, ih _ hs.2 (hall s).2⟩
  | update u k ih =>
      intro hit
      have hs := hstep h (.update u hit) nofun hI (hall hit).1
      exact ⟨hs.1, ih _ hs.2 (hall hit).2⟩
  | call c k ih =>
      intro a
      have hs := hstep h (.call c a) nofun hI (hall a).1
      exact ⟨hs.1, ih _ hs.2 (hall a).2⟩
  | commit k ih =>
      have hs := hstep h (.committed (openTx h)) nofun hI hall.1
      exact ⟨hs.1, ih hs.2 hall.2⟩
  | rollback k ih =>
      have hs := hstep h .rolledBack nofun hI hall.1
      exact ⟨hs.1, ih hs.2 hall.2⟩

/-- In a protocol that lets events of the kind pass after each other, a program of
such events goes through them and ends no transaction. -/
theorem Only.along {p : Prog S α} {h : List (Event S)} (hp : p.Only B)
    (hP : ∀ h e, (∀ x ∈ h, B x) → B e → P h e)
    (hinside : ∀ e, B e → e.Inside (fun _ => True) ∨ e.Final) (hh : ∀ x ∈ h, B x) :
    p.Along P h fun _ h' => (∀ x ∈ h', B x) ∧ openTx h <:+ openTx h' := by
  have hall := hp h
  clear hp
  suffices hs : ∀ tx, tx <:+ openTx h →
      p.Along P h fun _ h' => (∀ x ∈ h', B x) ∧ tx <:+ openTx h' from hs _ (List.suffix_refl _)
  intro tx htx
  have hcons : ∀ {h : List (Event S)} {e : Event S}, (∀ x ∈ h, B x) → B e → ∀ x ∈ e :: h, B x := by
    intro h e hh he x hx
    rcases List.mem_cons.1 hx with rfl | hx
    · exact he
    · exact hh x hx
  induction p generalizing h with
  | ret a => exact ⟨hh, htx⟩
  | throw e => exact hP h _ hh hall
  | query q k ih =>
      exact fun s => ⟨hP h _ hh (hall s).1, ih _ (hcons hh (hall s).1) (hall s).2 htx⟩
  | update u k ih =>
      intro hit
      refine ⟨hP h _ hh (hall hit).1, ih _ (hcons hh (hall hit).1) (hall hit).2 ?_⟩
      cases hit with
      | true => exact htx.trans (List.suffix_cons _ _)
      | false => exact htx
  | call c k ih =>
      exact fun a => ⟨hP h _ hh (hall a).1, ih _ (hcons hh (hall a).1) (hall a).2 htx⟩
  | commit k ih => exact ((hinside _ hall.1).elim id id).elim
  | rollback k ih => exact ((hinside _ hall.1).elim id id).elim

end Only

/-! ### Programs inside one transaction -/

/-- Stays inside the open transaction and issues only updates that satisfy `A`. -/
def WithinTx (A : S.Update → Prop) (_ : List (Event S)) : Event S → Prop
  | .update u _ => A u
  | .committed _ => False
  | .rolledBack => False
  | .returned _ => False
  | _ => True

/-- The program stays inside its transaction and issues only updates that satisfy
`A`. -/
def Within (A : S.Update → Prop) {α : Type} (p : Prog S α) : Prop :=
  ∀ h, p.Along (WithinTx A) h fun _ _ => True

theorem Within.mono {A B : S.Update → Prop} {α : Type} {p : Prog S α} (hp : p.Within A)
    (hAB : ∀ u, A u → B u) : p.Within B :=
  fun h => (hp h).weaken fun _ e he => by
    cases e with
    | update u hit => exact hAB u he
    | _ => exact he

/-- A history that goes on from another inside the same transaction, with
updates that satisfy `A`. -/
def Extends (A : S.Update → Prop) (h h' : List (Event S)) : Prop :=
  ∃ es, h' = es ++ h ∧ ∀ e ∈ es, e.Inside A

theorem Extends.refl (A : S.Update → Prop) (h : List (Event S)) : Extends A h h :=
  ⟨[], rfl, nofun⟩

theorem Extends.trans {A : S.Update → Prop} {h h' h'' : List (Event S)} (e : Extends A h h')
    (e' : Extends A h' h'') : Extends A h h'' := by
  obtain ⟨es, rfl, hA⟩ := e
  obtain ⟨es', rfl, hA'⟩ := e'
  refine ⟨es' ++ es, by rw [List.append_assoc], fun x hx => ?_⟩
  rcases List.mem_append.1 hx with hx | hx
  · exact hA' x hx
  · exact hA x hx

theorem Extends.mono {A B : S.Update → Prop} {h h' : List (Event S)} (e : Extends A h h')
    (hAB : ∀ u, A u → B u) : Extends B h h' := by
  obtain ⟨es, heq, hA⟩ := e
  exact ⟨es, heq, fun x hx => (hA x hx).mono hAB⟩

theorem Extends.suffix {A : S.Update → Prop} {h h' : List (Event S)} (e : Extends A h h') :
    h <:+ h' := by
  obtain ⟨es, rfl, -⟩ := e
  exact List.suffix_append es h

theorem Extends.tx {A : S.Update → Prop} {h h' : List (Event S)} (e : Extends A h h') :
    ∃ us, openTx h' = us ++ openTx h ∧ ∀ u ∈ us, A u := by
  obtain ⟨es, rfl, hA⟩ := e
  induction es with
  | nil => exact ⟨[], rfl, nofun⟩
  | cons x es ih =>
      obtain ⟨us, hus, hall⟩ := ih fun y hy => hA y (List.mem_cons_of_mem _ hy)
      have hx := hA x List.mem_cons_self
      cases x with
      | query q r => exact ⟨us, hus, hall⟩
      | call c a => exact ⟨us, hus, hall⟩
      | update u hit =>
          cases hit with
          | false => exact ⟨us, hus, hall⟩
          | true =>
              refine ⟨u :: us, by rw [List.cons_append, openTx_hit, hus, List.cons_append], ?_⟩
              intro v hv
              rcases List.mem_cons.1 hv with rfl | hv
              · exact hx
              · exact hall v hv
      | committed tx => exact hx.elim
      | rolledBack => exact hx.elim
      | returned tx => exact hx.elim
      | threw err => exact hx.elim

theorem Extends.cons {A : S.Update → Prop} {h : List (Event S)} {e : Event S}
    (he : WithinTx A h e) (hlive : ¬ e.Final) : Extends A h (e :: h) := by
  refine ⟨[e], rfl, fun x hx => ?_⟩
  rw [List.mem_singleton.1 hx]
  cases e with
  | query q x => exact trivial
  | update u hit => exact he
  | call c a => exact trivial
  | committed tx => exact he.elim
  | rolledBack => exact he.elim
  | returned tx => exact he.elim
  | threw e => exact hlive trivial

/-- What following a protocol leaves of a program inside one transaction. -/
theorem Along.within {A : S.Update → Prop} {α : Type} {p : Prog S α} {h : List (Event S)}
    {Q : α → List (Event S) → Prop} (hp : p.Along P h Q) (hA : p.Within A) :
    p.Along P h fun a h' => Q a h' ∧ Extends A h h' := by
  have hboth := hp.and (hA h)
  clear hp hA
  suffices hs : ∀ g, Extends A g h →
      p.Along P h fun a h' => Q a h' ∧ Extends A g h' from hs h (.refl A h)
  intro g hg
  induction p generalizing h with
  | ret a => exact ⟨hboth.1, hg⟩
  | throw e => exact hboth.1
  | query q k ih =>
      exact fun s => ⟨(hboth s).1.1, ih _ (hboth s).2 (hg.trans (.cons (hboth s).1.2 id))⟩
  | update u k ih =>
      exact fun hit => ⟨(hboth hit).1.1, ih _ (hboth hit).2 (hg.trans (.cons (hboth hit).1.2 id))⟩
  | call c k ih =>
      exact fun a => ⟨(hboth a).1.1, ih _ (hboth a).2 (hg.trans (.cons (hboth a).1.2 id))⟩
  | commit k ih => exact hboth.1.2.elim
  | rollback k ih => exact hboth.1.2.elim

theorem Within.skip {A : S.Update → Prop} {α β : Type} {p : Prog S β} {f : β → Prog S α}
    {h : List (Event S)} {Q : α → List (Event S) → Prop}
    (hP : ∀ h e, WithinTx A h e → P h e) (hp : p.Within A)
    (hk : ∀ b h', Extends A h h' → (f b).Along P h' Q) : (p >>= f).Along P h Q :=
  along_seq.2 ((((hp h).weaken hP).within hp).mono fun b h' hh => hk b h' hh.2)

end Prog

/-! ## Traces -/

namespace World

def initial (db : Store S.Key S.Row) : World S R where
  db := db
  tx _ := []
  log := []

/-- The history of process `i`. -/
def own (w : World S R) (i : ℕ) : List (Event S) :=
  (w.log.filter fun entry => entry.pid == i).map Entry.event

/-- One event of process `i` and the world after it. -/
inductive Act (w : World S R) (i : ℕ) (r : R) : Event S → World S R → Prop where
  | query (q : S.Query) :
      w.Act i r (.query q (S.eval q (w.view i))) (w.note i r (.query q (S.eval q (w.view i))))
  | hit (u : S.Update) (hguard : S.guard u ((w.view i).row (S.key u)) = true)
      (hfree : w.Free i (S.key u)) : w.Act i r (.update u true) (w.push i r u)
  | miss (u : S.Update) (hguard : S.guard u ((w.view i).row (S.key u)) = false) :
      w.Act i r (.update u false) (w.note i r (.update u false))
  | call (c : S.Call) (a : S.Answer c) : w.Act i r (.call c a) (w.note i r (.call c a))
  | commit : w.Act i r (.committed (w.tx i)) (w.commit i r (.committed (w.tx i)))
  | rollback : w.Act i r .rolledBack (w.abort i r .rolledBack)
  | done : w.Act i r (.returned (w.tx i)) (w.commit i r (.returned (w.tx i)))
  | throw (err : S.Err) : w.Act i r (.threw err) (w.abort i r (.threw err))

/-- A step of a trace: process `i` goes through an event the protocol and the
condition on the run allow. -/
structure Move (P : Protocol S R) (allow : World S R → ℕ → R → Event S → Prop)
    (w : World S R) (i : ℕ) (r : R) (e : Event S) (w' : World S R) : Prop where
  act : w.Act i r e w'
  lawful : P r (w.own i) e
  allowed : allow w i r e
  request : ∀ entry ∈ w.log, entry.pid = i → entry.request = r
  live : ¬ Finished (w.own i)

/-- Any number of moves of any processes in any order. -/
def Trace (P : Protocol S R) (allow : World S R → ℕ → R → Event S → Prop) :
    World S R → World S R → Prop :=
  Relation.ReflTransGen fun w w' => ∃ i r e, w.Move P allow i r e w'

/-- The bookkeeping of a trace: locks are exclusive, and an open transaction
holds what its process has written since the last end of a transaction. -/
structure Tidy (w : World S R) : Prop where
  exclusive : w.Exclusive
  tx_eq : ∀ i, w.tx i = openTx (w.own i)

variable {P : Protocol S R} {allow : World S R → ℕ → R → Event S → Prop}
  {w w' : World S R} {i : ℕ} {r : R} {e : Event S}

theorem Act.log_eq (h : w.Act i r e w') : w'.log = ⟨i, r, e⟩ :: w.log := by
  cases h <;> rfl

theorem Act.own_self (h : w.Act i r e w') : w'.own i = e :: w.own i := by
  simp [own, h.log_eq]

theorem Act.own_of_ne (h : w.Act i r e w') {j : ℕ} (hj : j ≠ i) : w'.own j = w.own j := by
  simp [own, h.log_eq, hj.symm]

theorem Act.query_eq {q : S.Query} {x : S.Result q} (h : w.Act i r (.query q x) w') :
    S.eval q (w.view i) = x := by
  cases h
  rfl

theorem Act.query_view {q : S.Query} {x : S.Result q} (h : w.Act i r (.query q x) w') (j : ℕ) :
    w'.view j = w.view j := by
  cases h
  rfl

theorem Act.tx_of_ne (h : w.Act i r e w') {j : ℕ} (hj : j ≠ i) : w'.tx j = w.tx j := by
  cases h with
  | query q => rfl
  | hit u hguard hfree => exact push_tx_of_ne w r u hj
  | miss u hguard => rfl
  | call c a => rfl
  | commit => exact commit_tx_of_ne w r _ hj
  | rollback => exact abort_tx_of_ne w r _ hj
  | done => exact commit_tx_of_ne w r _ hj
  | throw err => exact abort_tx_of_ne w r _ hj

theorem initial_tidy (db : Store S.Key S.Row) : (initial db : World S R).Tidy :=
  ⟨fun _ _ _ _ hk => (nomatch hk), fun _ => rfl⟩

theorem Tidy.act (hw : w.Tidy) (h : w.Act i r e w') : w'.Tidy := by
  refine ⟨?_, fun j => ?_⟩
  · cases h with
    | query q => exact hw.exclusive
    | hit u hguard hfree => exact hw.exclusive.push r hfree
    | miss u hguard => exact hw.exclusive
    | call c a => exact hw.exclusive
    | commit => exact hw.exclusive.commit i r _
    | rollback => exact hw.exclusive.abort i r _
    | done => exact hw.exclusive.commit i r _
    | throw err => exact hw.exclusive.abort i r _
  · by_cases hj : j = i
    · subst hj
      rw [h.own_self]
      cases h <;> simp [hw.tx_eq]
    · rw [h.own_of_ne hj, h.tx_of_ne hj]
      exact hw.tx_eq j

/-- No other process changes a committed row that an open transaction has locked. -/
theorem Tidy.db_row (hw : w.Tidy) (h : w.Act i r e w') {j : ℕ} (hj : j ≠ i) {k : S.Key}
    (hk : k ∈ locks (w.tx j)) : w'.db.row k = w.db.row k := by
  cases h with
  | commit => exact commit_row_of_mem hw.exclusive r _ hj hk
  | done => exact commit_row_of_mem hw.exclusive r _ hj hk
  | _ => rfl

/-- Another process holds an update of the kind in its open transaction. -/
def pending (w : World S R) (i : ℕ) (p : S.Update → Bool) : Bool :=
  w.log.any fun entry => entry.pid != i && (w.tx entry.pid).any p

theorem Tidy.pending_of_mem (hw : w.Tidy) {p : S.Update → Bool} {j : ℕ} (hj : j ≠ i)
    {u : S.Update} (hu : u ∈ w.tx j) (hp : p u = true) : w.pending i p = true := by
  have hopen := hu
  rw [hw.tx_eq j] at hopen
  obtain ⟨later, earlier, hown, -⟩ := exists_of_mem_openTx hopen
  have hevent : .update u true ∈ w.own j := by simp [hown]
  obtain ⟨entry, hentry, -⟩ := List.mem_map.1 hevent
  obtain ⟨hmem, hpid⟩ := List.mem_filter.1 hentry
  have hpid : entry.pid = j := by simpa using hpid
  refine List.any_eq_true.2 ⟨entry, hmem, ?_⟩
  simp only [hpid, Bool.and_eq_true, bne_iff_ne, List.any_eq_true]
  exact ⟨hj, u, hu, hp⟩

theorem Trace.tidy (hw : w.Tidy) (h : Trace P allow w w') : w'.Tidy := by
  induction h with
  | refl => exact hw
  | tail _ hm ih =>
      obtain ⟨i, r, e, hm⟩ := hm
      exact ih.act hm.act

theorem Trace.weaken {P' : Protocol S R} (hP : ∀ r h e, P r h e → P' r h e)
    (h : Trace P allow w w') : Trace P' allow w w' := by
  induction h with
  | refl => exact .refl
  | tail _ hm ih =>
      obtain ⟨i, r, e, hm⟩ := hm
      exact ih.tail ⟨i, r, e, hm.act, hP r _ e hm.lawful, hm.allowed, hm.request, hm.live⟩

theorem Trace.log_suffix (h : Trace P allow w w') : w.log <:+ w'.log := by
  induction h with
  | refl => exact List.suffix_refl _
  | tail _ hm ih =>
      obtain ⟨i, r, e, hm⟩ := hm
      rw [hm.act.log_eq]
      exact ih.trans (List.suffix_cons _ _)

/-- The rule of invariance: what the first world satisfies and every move keeps
is satisfied by the last world. -/
theorem Trace.induct {I : World S R → Prop} (h : Trace P allow w w') (hw : w.Tidy)
    (hI : I w)
    (hmove : ∀ w i r e w', w.Tidy → I w → w.Move P allow i r e w' → I w') : I w' := by
  induction h with
  | refl => exact hI
  | tail htr hm ih =>
      obtain ⟨i, r, e, hm⟩ := hm
      exact hmove _ i r e _ (Trace.tidy hw htr) ih hm

theorem Trace.not_final (h : Trace P allow w w') (htidy : w.Tidy)
    (hw : ∀ i, ∀ e ∈ (w.own i).tail, ¬ e.Final) : ∀ i, ∀ e ∈ (w'.own i).tail, ¬ e.Final := by
  refine h.induct (I := fun w => ∀ i, ∀ e ∈ (w.own i).tail, ¬ e.Final) htidy hw ?_
  intro w i r e w' _ hI hm j e' he'
  by_cases hj : j = i
  · subst hj
    rw [hm.act.own_self, List.tail_cons] at he'
    cases hown : w.own j with
    | nil =>
        rw [hown] at he'
        cases he'
    | cons e₀ h₀ =>
        have hrest := hI j
        rw [hown] at he' hrest
        rcases List.mem_cons.1 he' with rfl | he'
        · intro hfinal
          exact hm.live ⟨e', by rw [hown]; rfl, hfinal⟩
        · exact hrest e' he'
  · rw [hm.act.own_of_ne hj] at he'
    exact hI j e' he'

/-- Under a protocol that lets only processes throw that have committed
nothing, a process that threw has left nothing behind. -/
theorem Trace.threw_nothing (h : Trace P allow w w') (htidy : w.Tidy) (hw : w.log = [])
    (hP : ∀ r h e, P r h (.threw e) → ∀ tx, .committed tx ∉ h) {i : ℕ} {e : S.Err}
    (he : .threw e ∈ w'.own i) (tx : List S.Update) :
    .committed tx ∉ w'.own i ∧ .returned tx ∉ w'.own i := by
  have hnone : ∀ i, w.own i = [] := fun i => by simp [own, hw]
  have hfinal := h.not_final htidy fun i e he => by simp [hnone i] at he
  refine h.induct (I := fun w => (∀ i, ∀ e ∈ (w.own i).tail, ¬ e.Final) → ∀ i e,
    .threw e ∈ w.own i → .committed tx ∉ w.own i ∧ .returned tx ∉ w.own i) htidy
    (fun _ i e he => by simp [hnone i] at he) ?_ hfinal i e he
  intro w i r e w' _ hI hm hlast j e' he'
  have hold : (∀ i, ∀ e ∈ (w.own i).tail, ¬ e.Final) := fun k e hk => by
    by_cases hki : k = i
    · subst hki
      refine hlast k e ?_
      rw [hm.act.own_self]
      exact List.mem_of_mem_tail hk
    · refine hlast k e ?_
      rw [hm.act.own_of_ne hki]
      exact hk
  by_cases hj : j = i
  · subst hj
    rw [hm.act.own_self] at he' ⊢
    have htail := hlast j
    rw [hm.act.own_self, List.tail_cons] at htail
    rcases List.mem_cons.1 he' with rfl | he'
    · have hthrew := hP r _ e' hm.lawful tx
      constructor
      · simpa using hthrew
      · intro hret
        rcases List.mem_cons.1 hret with hret | hret
        · cases hret
        · exact htail _ hret trivial
    · exact absurd trivial (htail _ he')
  · rw [hm.act.own_of_ne hj] at he' ⊢
    exact hI hold j e' he'

end World

/-! ## Runs of programs are traces -/

/-- A system whose processes are all on paths of their programs that keep to
the protocol. -/
structure Traced (P : Protocol S R) (s : System S R) : Prop where
  sane : s.Sane
  tidy : s.world.Tidy
  idle : ∀ i, s.proc i = .idle → s.world.own i = []
  running : ∀ i r p, s.proc i = .running r p →
    p.Along (P r) (s.world.own i) (fun _ h => P r h (.returned (openTx h))) ∧
      ¬ Finished (s.world.own i) ∧
      ∀ entry ∈ s.world.log, entry.pid = i → entry.request = r
  done : ∀ i r, s.proc i = .done r → Finished (s.world.own i)

namespace System

variable {P : Protocol S R} {handler : R → Prog S Unit} {starts : R → Prop}
  {allow : World S R → ℕ → R → Event S → Prop} {s t : System S R}

theorem initial_traced (db : Store S.Key S.Row) : Traced P (initial db : System S R) where
  sane := initial_sane db
  tidy := World.initial_tidy db
  idle _ _ := rfl
  running _ _ _ h := nomatch h
  done _ _ h := nomatch h

/-- A statement of a program is an event of the world; what remains of the
process goes on from the longer history. -/
theorem act_of_advance (hs : s.Sane) {i : ℕ} {r : R} {p : Prog S Unit}
    {answer : (c : S.Call) → S.Answer c} {e : Event S} {w : World S R} {q : Proc S R}
    (hstep : s.advance i r answer p = some (e, w, q)) : s.world.Act i r e w := by
  cases p with
  | ret a =>
      simp only [advance, Option.some.injEq, Prod.mk.injEq] at hstep
      obtain ⟨rfl, rfl, -⟩ := hstep
      exact .done
  | throw err =>
      simp only [advance, Option.some.injEq, Prod.mk.injEq] at hstep
      obtain ⟨rfl, rfl, -⟩ := hstep
      exact .throw err
  | query q' k =>
      simp only [advance, Option.some.injEq, Prod.mk.injEq] at hstep
      obtain ⟨rfl, rfl, -⟩ := hstep
      exact .query q'
  | update u k =>
      simp only [advance] at hstep
      split at hstep
      · next hguard =>
          split at hstep
          · next hfree =>
              simp only [Option.some.injEq, Prod.mk.injEq] at hstep
              obtain ⟨rfl, rfl, -⟩ := hstep
              exact .hit u hguard (hs.free_of hfree)
          · cases hstep
      · next hguard =>
          simp only [Option.some.injEq, Prod.mk.injEq] at hstep
          obtain ⟨rfl, rfl, -⟩ := hstep
          exact .miss u (Bool.not_eq_true _ ▸ hguard)
  | call c k =>
      simp only [advance, Option.some.injEq, Prod.mk.injEq] at hstep
      obtain ⟨rfl, rfl, -⟩ := hstep
      exact .call c _
  | commit k =>
      simp only [advance, Option.some.injEq, Prod.mk.injEq] at hstep
      obtain ⟨rfl, rfl, -⟩ := hstep
      exact .commit
  | rollback k =>
      simp only [advance, Option.some.injEq, Prod.mk.injEq] at hstep
      obtain ⟨rfl, rfl, -⟩ := hstep
      exact .rollback

/-- The event of a statement is one the protocol admits, and what remains of
the process keeps to the protocol or has ended. -/
theorem along_advance {i : ℕ} {r : R} {p : Prog S Unit} (hs : s.world.Tidy)
    (hp : p.Along (P r) (s.world.own i) fun _ h => P r h (.returned (openTx h)))
    {answer : (c : S.Call) → S.Answer c} {e : Event S} {w : World S R} {q : Proc S R}
    (hstep : s.advance i r answer p = some (e, w, q)) :
    P r (s.world.own i) e ∧
      ((∃ p', q = .running r p' ∧ ¬ e.Final ∧
          p'.Along (P r) (e :: s.world.own i) fun _ h => P r h (.returned (openTx h))) ∨
        q = .done r ∧ e.Final) := by
  cases p with
  | ret a =>
      simp only [advance, Option.some.injEq, Prod.mk.injEq] at hstep
      obtain ⟨rfl, -, rfl⟩ := hstep
      rw [hs.tx_eq]
      exact ⟨hp, .inr ⟨rfl, trivial⟩⟩
  | throw err =>
      simp only [advance, Option.some.injEq, Prod.mk.injEq] at hstep
      obtain ⟨rfl, -, rfl⟩ := hstep
      exact ⟨hp, .inr ⟨rfl, trivial⟩⟩
  | query q' k =>
      simp only [advance, Option.some.injEq, Prod.mk.injEq] at hstep
      obtain ⟨rfl, -, rfl⟩ := hstep
      exact ⟨(hp _).1, .inl ⟨_, rfl, id, (hp _).2⟩⟩
  | update u k =>
      simp only [advance] at hstep
      split at hstep
      · split at hstep
        · simp only [Option.some.injEq, Prod.mk.injEq] at hstep
          obtain ⟨rfl, -, rfl⟩ := hstep
          exact ⟨(hp true).1, .inl ⟨_, rfl, id, (hp true).2⟩⟩
        · cases hstep
      · simp only [Option.some.injEq, Prod.mk.injEq] at hstep
        obtain ⟨rfl, -, rfl⟩ := hstep
        exact ⟨(hp false).1, .inl ⟨_, rfl, id, (hp false).2⟩⟩
  | call c k =>
      simp only [advance, Option.some.injEq, Prod.mk.injEq] at hstep
      obtain ⟨rfl, -, rfl⟩ := hstep
      exact ⟨(hp _).1, .inl ⟨_, rfl, id, (hp _).2⟩⟩
  | commit k =>
      simp only [advance, Option.some.injEq, Prod.mk.injEq] at hstep
      obtain ⟨rfl, -, rfl⟩ := hstep
      rw [hs.tx_eq]
      exact ⟨hp.1, .inl ⟨_, rfl, id, hp.2⟩⟩
  | rollback k =>
      simp only [advance, Option.some.injEq, Prod.mk.injEq] at hstep
      obtain ⟨rfl, -, rfl⟩ := hstep
      exact ⟨hp.1, .inl ⟨_, rfl, id, hp.2⟩⟩

end System

namespace Traced

variable {P : Protocol S R} {handler : R → Prog S Unit} {starts : R → Prop}
  {allow : World S R → ℕ → R → Event S → Prop} {s t : System S R}

theorem spawn (hP : ∀ r, starts r → (handler r).Follows (P r)) (hs : Traced P s) (j : ℕ) (r : R)
    (hidle : s.proc j = .idle) (hr : starts r) :
    Traced P (s.spawn j (.running r (handler r))) where
  sane := by
    refine ⟨hs.sane.exclusive, fun a ha => ?_, fun a ha => ?_⟩
    · by_cases haj : a = j
      · simp [haj]
      · rw [s.spawn_proc_of_ne _ haj] at ha
        exact List.mem_cons_of_mem _ (hs.sane.started a ha)
    · by_cases haj : a = j
      · subst haj
        exact absurd (s.spawn_proc_self a _) (ha r (handler r))
      · rw [s.spawn_proc_of_ne _ haj] at ha
        exact hs.sane.closed a ha
  tidy := hs.tidy
  idle a ha := by
    by_cases haj : a = j
    · subst haj
      exact hs.idle a hidle
    · rw [s.spawn_proc_of_ne _ haj] at ha
      exact hs.idle a ha
  running a r' p hap := by
    by_cases haj : a = j
    · subst haj
      rw [s.spawn_proc_self] at hap
      cases hap
      have hown : s.world.own a = [] := hs.idle a hidle
      refine ⟨?_, ?_, fun entry hmem hpid => ?_⟩
      · rw [System.spawn_world, hown]
        exact hP _ hr
      · rw [System.spawn_world, hown]
        exact not_finished_nil
      · have : entry.event ∈ s.world.own a :=
          List.mem_map_of_mem (List.mem_filter.2 ⟨hmem, by simp [hpid]⟩)
        rw [hown] at this
        cases this
    · rw [s.spawn_proc_of_ne _ haj] at hap
      exact hs.running a r' p hap
  done a r' hap := by
    by_cases haj : a = j
    · subst haj
      rw [s.spawn_proc_self] at hap
      cases hap
    · rw [s.spawn_proc_of_ne _ haj] at hap
      exact hs.done a r' hap

theorem resume (hs : Traced P s) {j : ℕ} {r : R} {p : Prog S Unit}
    {answer : (c : S.Call) → S.Answer c} {e : Event S} {w : World S R} {q : Proc S R}
    (hproc : s.proc j = .running r p) (hstep : s.advance j r answer p = some (e, w, q))
    (hallow : allow s.world j r e) :
    s.world.Move P allow j r e w ∧ Traced P (s.resume j w q) := by
  obtain ⟨hp, hlive, hreq⟩ := hs.running j r p hproc
  have hact := System.act_of_advance hs.sane hstep
  obtain ⟨hlaw, hrest⟩ := System.along_advance hs.tidy hp hstep
  have htidy := hs.tidy.act hact
  refine ⟨⟨hact, hlaw, hallow, hreq, hlive⟩, ⟨⟨htidy.exclusive, fun a ha => ?_, fun a ha => ?_⟩,
    htidy, fun a ha => ?_, fun a r' p' hap => ?_, fun a r' hap => ?_⟩⟩
  · by_cases haj : a = j
    · exact haj ▸ hs.sane.started j (by simp [hproc])
    · rw [s.resume_proc_of_ne _ _ haj] at ha
      exact hs.sane.started a ha
  · by_cases haj : a = j
    · subst haj
      rw [s.resume_proc_self] at ha
      rcases hrest with ⟨p', rfl, -, -⟩ | ⟨rfl, hfinal⟩
      · exact absurd rfl (ha r p')
      · rw [System.resume_world, htidy.tx_eq, hact.own_self]
        cases e <;> first | rfl | cases hfinal
    · rw [s.resume_proc_of_ne _ _ haj] at ha
      exact (hact.tx_of_ne haj).trans (hs.sane.closed a ha)
  · by_cases haj : a = j
    · subst haj
      rw [s.resume_proc_self] at ha
      rcases hrest with ⟨p', rfl, -, -⟩ | ⟨rfl, -⟩ <;> cases ha
    · rw [s.resume_proc_of_ne _ _ haj] at ha
      exact (hact.own_of_ne haj).trans (hs.idle a ha)
  · by_cases haj : a = j
    · subst haj
      rw [s.resume_proc_self] at hap
      subst hap
      rcases hrest with ⟨p'', hq, hnot, halong⟩ | ⟨hq, -⟩
      · cases hq
        rw [System.resume_world, hact.own_self]
        refine ⟨halong, fun ⟨e', he', hf⟩ => ?_, fun entry hmem hpid => ?_⟩
        · simp only [List.head?_cons, Option.mem_some] at he'
          exact hnot (he' ▸ hf)
        · rw [hact.log_eq] at hmem
          rcases List.mem_cons.1 hmem with rfl | hmem
          · rfl
          · exact hreq entry hmem hpid
      · cases hq
    · rw [s.resume_proc_of_ne _ _ haj] at hap
      rw [System.resume_world, hact.own_of_ne haj]
      obtain ⟨h1, h2, h3⟩ := hs.running a r' p' hap
      refine ⟨h1, h2, fun entry hmem hpid => ?_⟩
      rw [hact.log_eq] at hmem
      rcases List.mem_cons.1 hmem with rfl | hmem
      · exact absurd hpid.symm haj
      · exact h3 entry hmem hpid
  · by_cases haj : a = j
    · subst haj
      rw [s.resume_proc_self] at hap
      subst hap
      rcases hrest with ⟨p', hq, -, -⟩ | ⟨-, hfinal⟩
      · cases hq
      · rw [System.resume_world, hact.own_self]
        exact ⟨e, rfl, hfinal⟩
    · rw [s.resume_proc_of_ne _ _ haj] at hap
      rw [System.resume_world, hact.own_of_ne haj]
      exact hs.done a r' hap

/-- The worlds of a run form a trace of the protocol. -/
theorem trace (hP : ∀ r, starts r → (handler r).Follows (P r)) (hs : Traced P s)
    (hrun : System.Runs handler starts allow s t) :
    World.Trace P allow s.world t.world ∧ Traced P t := by
  induction hrun with
  | refl => exact ⟨.refl, hs⟩
  | tail _ hst ih =>
      cases hst with
      | start j r hidle hr => exact ⟨ih.1, ih.2.spawn hP j r hidle hr⟩
      | run j r p answer e w q hproc hstep hallow =>
          obtain ⟨hmove, ht⟩ := ih.2.resume hproc hstep hallow
          exact ⟨ih.1.tail ⟨j, r, e, hmove⟩, ht⟩

end Traced

/-- A run from the empty log of programs that follow a protocol is a trace of it. -/
theorem trace_of_runs {P : Protocol S R} {handler : R → Prog S Unit} {starts : R → Prop}
    {allow : World S R → ℕ → R → Event S → Prop}
    (hP : ∀ r, starts r → (handler r).Follows (P r)) {db : Store S.Key S.Row} {t : System S R}
    (hrun : System.Runs handler starts allow (System.initial db) t) :
    World.Trace P allow (World.initial db) t.world :=
  (Traced.trace hP (System.initial_traced db) hrun).1

end ReadCommitted
