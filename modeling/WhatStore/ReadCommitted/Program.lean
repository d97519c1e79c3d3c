import WhatStore.ReadCommitted.Store

/-!
# Programs of database statements

A `Schema` names the rows of a database, the statements a service may run on
it and the calls it makes outside of it. A `Prog S α` is a service function
written over a schema: a tree whose nodes are single statements, each
continuing with what the statement answered. `commit` ends a database
transaction in the middle of a function and `rollback` gives one up; a function
that throws rolls its own transaction back and one that returns commits it.

An update names one row. It changes the row when the row satisfies the
condition of its `where` clause and reports whether it did, so a conditional
`UPDATE`, an `INSERT` on a primary key and a `DELETE` are all updates.
-/

namespace ReadCommitted

/-- The rows, statements and outside calls of a family of services. -/
structure Schema where
  Key : Type
  [keyDecEq : DecidableEq Key]
  Row : Key → Type
  Query : Type
  Result : Query → Type
  /-- What a query answers on a store. -/
  eval : (q : Query) → Store Key Row → Result q
  Update : Type
  /-- The row an update is about. -/
  key : Update → Key
  /-- The condition of the update's `where` clause on that row. -/
  guard : (u : Update) → Option (Row (key u)) → Bool
  /-- The row after the update, when the condition holds. -/
  change : (u : Update) → Option (Row (key u)) → Option (Row (key u))
  Call : Type
  Answer : Call → Type
  Err : Type

attribute [instance] Schema.keyDecEq

/-- A service function as the tree of its statements. -/
inductive Prog (S : Schema) (α : Type) where
  | ret (a : α)
  | throw (e : S.Err)
  | query (q : S.Query) (k : S.Result q → Prog S α)
  | update (u : S.Update) (k : Bool → Prog S α)
  | call (c : S.Call) (k : S.Answer c → Prog S α)
  | commit (k : Prog S α)
  | rollback (k : Prog S α)

namespace Prog

/-- Sequencing: the first program's value is handed to the second. -/
def bind {S : Schema} {α β : Type} : Prog S α → (α → Prog S β) → Prog S β
  | .ret a, f => f a
  | .throw e, _ => .throw e
  | .query q k, f => .query q fun r => (k r).bind f
  | .update u k, f => .update u fun hit => (k hit).bind f
  | .call c k, f => .call c fun a => (k a).bind f
  | .commit k, f => .commit (k.bind f)
  | .rollback k, f => .rollback (k.bind f)

instance {S : Schema} : Monad (Prog S) where
  pure := .ret
  bind := bind

/-- Runs `p` as the body of a `try` block: when it throws, its transaction is
rolled back and the caller goes on with `none`. -/
def attempt {S : Schema} {α : Type} : Prog S α → Prog S (Option α)
  | .ret a => .ret (some a)
  | .throw _ => .rollback (.ret none)
  | .query q k => .query q fun r => (k r).attempt
  | .update u k => .update u fun hit => (k hit).attempt
  | .call c k => .call c fun a => (k a).attempt
  | .commit k => .commit k.attempt
  | .rollback k => .rollback k.attempt

/-- Throws `e` when the condition holds. -/
def throwIf {S : Schema} (c : Bool) (e : S.Err) : Prog S Unit :=
  if c then .throw e else .ret ()

/-- Runs `p` when the condition holds. -/
def runIf {S : Schema} (c : Bool) (p : Prog S Unit) : Prog S Unit :=
  if c then p else .ret ()

/-- The value, or `e` thrown in its place. -/
def orThrow {S : Schema} {α : Type} (o : Option α) (e : S.Err) : Prog S α :=
  match o with
  | some a => .ret a
  | none => .throw e

/-- The value of a pure computation, or its error thrown. -/
def ofExcept {S : Schema} {α : Type} : Except S.Err α → Prog S α
  | .ok a => .ret a
  | .error e => .throw e

/-- Runs a body on each element of a list in order. -/
def each {S : Schema} {α : Type} (body : α → Prog S Unit) : List α → Prog S Unit
  | [] => .ret ()
  | a :: as => (body a).bind fun _ => each body as

/-- Runs a body on each element of a list in order and keeps the values. -/
def collect {S : Schema} {α β : Type} (body : α → Prog S β) : List α → Prog S (List β)
  | [] => .ret []
  | a :: as => (body a).bind fun b => (collect body as).bind fun bs => .ret (b :: bs)

@[simp] theorem bind_eq {S : Schema} {α β : Type} (p : Prog S α) (f : α → Prog S β) :
    p >>= f = p.bind f := rfl

@[simp] theorem pure_eq {S : Schema} {α : Type} (a : α) :
    (pure a : Prog S α) = .ret a := rfl

theorem bind_assoc {S : Schema} {α β γ : Type} (p : Prog S α) (f : α → Prog S β)
    (g : β → Prog S γ) : (p.bind f).bind g = p.bind fun a => (f a).bind g := by
  induction p with
  | ret a => rfl
  | throw e => rfl
  | query q k ih => simp only [bind, ih]
  | update u k ih => simp only [bind, ih]
  | call c k ih => simp only [bind, ih]
  | commit k ih => simp only [bind, ih]
  | rollback k ih => simp only [bind, ih]

end Prog

end ReadCommitted
