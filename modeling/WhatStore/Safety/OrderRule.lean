import WhatStore.Protocol.Corrections
import WhatStore.ReadCommitted.Schedule

/-!
# Rules about single orders

`OrderWrite` lists every way the row of an order is rewritten, with the
condition its `where` clause asks of the row it finds. An `OrderRule` is an
invariant of orders and a relation between an order and its later rows; it
holds of every run once each of these writes keeps it.
-/

namespace WhatStore

open ReadCommitted

/-- The update turns the order `id` from `o` into `o'`. -/
inductive OrderWrite : Update → Id → Order → Order → Prop where
  | confirmMessage (id : Id) (o : Order) :
      OrderWrite (.confirmMessage id) id o { o with status := .confirmed }
  | claimStatus (id : Id) (old new : OrderStatus) (pay : Option PaymentStatus) (o : Order)
      (hold : o.status = old) : OrderWrite (.claimStatus id old new pay) id o
        { o with status := new, paymentStatus := pay.getD o.paymentStatus }
  | restatus (id : Id) (status : OrderStatus) (pay : Option PaymentStatus) (o : Order) :
      OrderWrite (.restatus id status pay) id o
        { o with status := status, paymentStatus := pay.getD o.paymentStatus }
  | editOrder (id : Id) (e : OrderEdit) (o : Order) : OrderWrite (.editOrder id e) id o (o.edit e)
  | settle (id : Id) (g : Gateway) (payment : Option Id) (o : Order)
      (hpaid : o.paymentStatus ≠ .paid) (hterm : o.status.terminal = false) :
      OrderWrite (.settle id g payment) id o
        { o.record g payment with paymentStatus := .paid, status := .confirmed }
  | failPayPal (id : Id) (o : Order) (hpay : o.paymentStatus = .pending) :
      OrderWrite (.failPayPal id) id o { o with paymentStatus := .failed }
  | sweepCancel (id : Id) (o : Order) (hstatus : o.status = .pending)
      (hpay : o.paymentStatus = .pending) :
      OrderWrite (.sweepCancel id) id o { o with status := .cancelled }
  | markLost (id : Id) (lost : Lost) (o : Order) (hpay : lost.applies o.paymentStatus = true) :
      OrderWrite (.markLost id lost) id o (o.markLost lost)
  | confirmManual (id : Id) (o : Order) : OrderWrite (.confirmManual id) id o
      { o with paymentStatus := .paid, status := .confirmed }
  | rejectManual (id : Id) (o : Order) : OrderWrite (.rejectManual id) id o
      { o with paymentProofUrl := none, paymentReference := none }
  | submitProof (id : Id) (url : String) (reference : Option String) (o : Order) :
      OrderWrite (.submitProof id url reference) id o
        { o with paymentProofUrl := some url
                 paymentReference := reference.orElse fun _ => o.paymentReference }
  | bindCheckout (id : Id) (g : Gateway) (reference : Id) (o : Order) :
      OrderWrite (.bindCheckout id g reference) id o (o.bind g reference)
  | hideOrder (id : Id) (time : Time) (o : Order) :
      OrderWrite (.hideOrder id time) id o { o with hiddenAt := some time }

/-- What an update whose condition holds does to the orders: it creates one,
rewrites one, or is about another table. -/
inductive OrderEffect (u : Update) (s : Database) : Prop where
  | insert (id : Id) (o : Order) (hu : u = .insertOrder id o) (hnone : s.row (.order id) = none)
  | write (id : Id) (o o' : Order) (hkey : u.key = .order id) (hwrite : OrderWrite u id o o')
      (ho : s.row (.order id) = some o) (ho' : (applyUpdate (S := shop) u s).row (.order id) = some o')
  | other (hkey : ∀ id, u.key ≠ .order id)

private theorem effect_of_isSome {u : Update} {s : Database} {id : Id} (f : Order → Order)
    (hu : ∀ o, OrderWrite u id o (f o)) (hkey : u.key = .order id)
    (hchange : (applyUpdate (S := shop) u s).row (.order id) = (s.row (.order id)).map f)
    (h : (s.row (.order id)).isSome = true) : OrderEffect u s := by
  obtain ⟨o, ho⟩ := Option.isSome_iff_exists.1 h
  exact .write id o (f o) hkey (hu o) ho (by rw [hchange, ho]; rfl)

private theorem effect_of_any {u : Update} {s : Database} {id : Id} (f : Order → Order)
    {c : Order → Bool} (hu : ∀ o, c o = true → OrderWrite u id o (f o)) (hkey : u.key = .order id)
    (hchange : (applyUpdate (S := shop) u s).row (.order id) = (s.row (.order id)).map f)
    (h : (s.row (.order id)).any c = true) : OrderEffect u s := by
  obtain ⟨o, ho, hc⟩ := (Option.any_eq_true _ _).1 h
  exact .write id o (f o) hkey (hu o hc) ho (by rw [hchange, ho]; rfl)

theorem orderEffect {u : Update} {s : Database} (hguard : shop.guard u (s.row u.key) = true) :
    OrderEffect u s := by
  have hself := applyUpdate_row_self (S := shop) u s
  cases u with
  | insertOrder id o => exact .insert id o rfl (Option.isNone_iff_eq_none.1 hguard)
  | confirmMessage id => exact effect_of_isSome _ (.confirmMessage id) rfl hself hguard
  | claimStatus id old new pay =>
      exact effect_of_any _ (fun o hc => .claimStatus id old new pay o (by simpa using hc)) rfl
        hself hguard
  | restatus id status pay => exact effect_of_isSome _ (.restatus id status pay) rfl hself hguard
  | editOrder id e => exact effect_of_isSome _ (.editOrder id e) rfl hself hguard
  | settle id g payment =>
      refine effect_of_any _ (fun o hc => ?_) rfl hself hguard
      simp only [Bool.and_eq_true, bne_iff_ne, ne_eq, Bool.not_eq_true'] at hc
      exact .settle id g payment o hc.1 hc.2
  | failPayPal id =>
      exact effect_of_any _ (fun o hc => .failPayPal id o (by simpa using hc)) rfl hself hguard
  | sweepCancel id =>
      refine effect_of_any _ (fun o hc => ?_) rfl hself hguard
      simp only [Bool.and_eq_true, beq_iff_eq] at hc
      exact .sweepCancel id o hc.1 hc.2
  | markLost id lost => exact effect_of_any _ (fun o hc => .markLost id lost o hc) rfl hself hguard
  | confirmManual id => exact effect_of_isSome _ (.confirmManual id) rfl hself hguard
  | rejectManual id => exact effect_of_isSome _ (.rejectManual id) rfl hself hguard
  | submitProof id url reference =>
      exact effect_of_isSome _ (.submitProof id url reference) rfl hself hguard
  | bindCheckout id g reference =>
      exact effect_of_isSome _ (.bindCheckout id g reference) rfl hself hguard
  | hideOrder id time => exact effect_of_isSome _ (.hideOrder id time) rfl hself hguard
  | take row n => cases row <;> exact .other nofun
  | give row n => cases row <;> exact .other nofun
  | _ => exact .other nofun

/-- An invariant of the order with a given id, and how an order may change. -/
structure OrderRule where
  ok : Id → Order → Prop
  rel : Id → Order → Order → Prop
  refl : ∀ id o, rel id o o
  trans : ∀ id o₁ o₂ o₃, rel id o₁ o₂ → rel id o₂ o₃ → rel id o₁ o₃

theorem row_of_wrote {w : StoreWorld} (htidy : w.Tidy) {i : ℕ} {id : Id} {o : Order}
    (h : Wrote (S := shop) (.insertOrder id o) (w.own i)) :
    (w.view i).row (.order id) = some o := by
  obtain ⟨v, hv⟩ := h.row w.db
  rwa [← htidy.tx_eq i] at hv

namespace OrderRule

variable (ρ : OrderRule)

def okRow : (k : Key) → Option (Row k) → Prop
  | .order id, v => ∀ o, v = some o → ρ.ok id o
  | _, _ => True

def relRow : (k : Key) → Option (Row k) → Option (Row k) → Prop
  | .order id, v, v' => ∀ o, v = some o → ∃ o', v' = some o' ∧ ρ.rel id o o'
  | _, _, _ => True

def discipline : Discipline shop :=
  Discipline.ofRows ρ.okRow ρ.relRow
    (fun k v => by
      cases k with
      | order id => exact fun o ho => ⟨o, ho, ρ.refl id o⟩
      | _ => trivial)
    (fun k u v w => by
      cases k with
      | order id =>
          intro huv hvw o ho
          obtain ⟨o', ho', h⟩ := huv o ho
          obtain ⟨o'', ho'', h'⟩ := hvw o' ho'
          exact ⟨o'', ho'', ρ.trans id o o' o'' h h'⟩
      | _ => exact fun _ _ => trivial)

/-- What an update finds: the order `id` is `o`, which is one of the rule's
orders and has moved along the rule's relation since the process read it. -/
structure Finds (h : List Ev) (id : Id) (o : Order) : Prop where
  ok : ρ.ok id o
  saw : ∀ o₀, OrderSaw id o₀ h → ρ.ok id o₀ ∧ ρ.rel id o₀ o
  wrote : ∀ o₀, Wrote (S := shop) (.insertOrder id o₀) h → o = o₀

structure Kept (starts : Request → Prop) (allow : StepCondition) : Prop where
  insert : ∀ r h id o, Justified r h (.insertOrder id o) → ρ.ok id o
  write : ∀ w i r u id o o', starts r → OrderWrite u id o o' →
    (w.view i).row (.order id) = some o → Justified r (w.own i) u → allow w i r (.update u true) → ρ.Finds (w.own i) id o →
    ρ.ok id o' ∧ ρ.rel id o o'

variable {ρ} {starts : Request → Prop} {allow : StepCondition}

theorem finds {w : StoreWorld} (htidy : w.Tidy) (hw : ρ.discipline.Inv w) {i : ℕ} {id : Id}
    {o : Order} (ho : (w.view i).row (.order id) = some o) : ρ.Finds (w.own i) id o where
  ok := hw.view_good i (.order id) o ho
  saw o₀ hsaw := by
    obtain ⟨hok, hrel⟩ := hw.knows i (.order id) _ hsaw
    obtain ⟨o', ho', h⟩ := hrel o₀ rfl
    cases ho'.symm.trans ho
    exact ⟨hok o₀ rfl, h⟩
  wrote o₀ hwrote := Option.some.inj (ho.symm.trans (row_of_wrote htidy hwrote))

/-- A rule every write keeps is a discipline of the store. -/
theorem Kept.discipline (hρ : ρ.Kept starts allow) : ρ.discipline.Kept (Among starts) allow := by
  rintro w i r u htidy hw ⟨hr, hlaw⟩ hallow hguard
  cases orderEffect hguard with
  | insert id o hu hnone =>
      subst hu
      refine Discipline.respects_ofRows ?_ ?_
      · rintro _ ⟨⟩
        exact hρ.insert r (w.own i) id o hlaw
      · intro o' ho'
        cases hnone.symm.trans ho'
  | write id o o' hkey hwrite ho ho' =>
      obtain ⟨hok, hrel⟩ := hρ.write w i r u id o o' hr hwrite ho hlaw hallow (finds htidy hw ho)
      refine Discipline.Respects.of_row hkey ?_ ?_ fun x => x.elim
      · rw [ho']
        rintro _ ⟨⟩
        exact hok
      · rw [ho', ho]
        rintro _ ⟨⟩
        exact ⟨o', rfl, hrel⟩
  | other hkey =>
      have htrivial : ∀ k, (∀ id, k ≠ .order id) → (∀ v, ρ.okRow k v) ∧ ∀ v v', ρ.relRow k v v' := by
        intro k hk
        cases k with
        | order id => exact absurd rfl (hk id)
        | _ => exact ⟨fun _ => trivial, fun _ _ => trivial⟩
      exact Discipline.respects_ofRows ((htrivial _ hkey).1 _) ((htrivial _ hkey).2 _ _)

variable {db : Database} {s t : StoreSystem}

def Holds (ρ : OrderRule) (db : Database) : Prop :=
  ∀ id o, db.row (.order id) = some o → ρ.ok id o

theorem Holds.good (h : ρ.Holds db) : ρ.discipline.Good db := by
  intro k
  cases k with
  | order id => exact h id
  | _ => exact trivial

/-- A rule every write keeps holds in every state of a run. -/
theorem Kept.holds (hρ : ρ.Kept starts allow) (hdb : ρ.Holds db)
    (hrun : Runs starts allow (System.initial db) s) : ρ.Holds s.world.db := by
  have htrace := trace_of_runs handler_among hrun
  have hinv := hρ.discipline.inv (World.initial_tidy db) (Discipline.inv_initial hdb.good) htrace
  exact fun id o ho => hinv.good (.order id) o ho

/-- Between two states of a run an order moves along the rule's relation. -/
theorem Kept.moves (hρ : ρ.Kept starts allow) (hdb : ρ.Holds db)
    (hrun : Runs starts allow (System.initial db) s) (hlater : Runs starts allow s t)
    {id : Id} {o : Order} (ho : s.world.db.row (.order id) = some o) :
    ∃ o', t.world.db.row (.order id) = some o' ∧ ρ.rel id o o' := by
  have htrace := trace_of_runs handler_among hrun
  have hs := (Traced.trace handler_among (System.initial_traced db) hrun).2
  have hinv := hρ.discipline.inv (World.initial_tidy db) (Discipline.inv_initial hdb.good) htrace
  have htrace' := (Traced.trace handler_among hs hlater).1
  exact hρ.discipline.rel hs.tidy hinv htrace' (.order id) o ho

end OrderRule

theorem quiescent_of_runs {starts : Request → Prop} {allow : StepCondition} {db : Database}
    {s : StoreSystem} (hrun : Runs starts allow (System.initial db) s) (hquiet : s.quiet = true) :
    s.Quiescent :=
  System.quiescent_of_quiet
    (Traced.trace handler_among (System.initial_traced db) hrun).2.sane hquiet

end WhatStore
