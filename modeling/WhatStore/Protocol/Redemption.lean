import WhatStore.Protocol.Corrections
import WhatStore.ReadCommitted.Histories

/-!
# What a redeemed link has gone through

A link is redeemed by one look-up of its token, before anything else is read or
written, and the call returns only when the grant it found was alive by the
clock it read.
-/

namespace WhatStore

open ReadCommitted ReadCommitted.Prog

/-- The process has found the grant of its token and found it alive. -/
def FoundAlive (token : Id) (h : List Ev) : Prop := ∃ x status paymentStatus time,
  .query (.grantByToken (hashDownloadToken token)) (some x) ∈ h ∧
    x.delivery = some (status, paymentStatus) ∧ .call .now time ∈ h ∧
    deadLink x.grant status paymentStatus time = none

def RedeemLaw (token : Id) (h : List Ev) : Ev → Prop
  | .query _ _ => h = []
  | .returned _ => FoundAlive token h
  | _ => True

def Redeeming : Protocol shop Request
  | .redeem token => RedeemLaw token
  | _ => fun _ _ => True

theorem FoundAlive.cons {token : Id} {h : List Ev} (hf : FoundAlive token h) (e : Ev) :
    FoundAlive token (e :: h) := by
  obtain ⟨x, status, pay, time, hx, hd, ht, halive⟩ := hf
  exact ⟨x, status, pay, time, List.mem_cons_of_mem _ hx, hd, List.mem_cons_of_mem _ ht, halive⟩

theorem redeem_redeems (token : Id) :
    (redeem token >>= fun _ => .ret ()).Follows (RedeemLaw token) := by
  refine along_seq.2 (along_ask (fun _ => rfl) fun s => ?_)
  split
  · exact ⟨trivial, trivial⟩
  next x hx =>
  refine along_seq.2 (along_orThrow.2 ⟨fun _ => trivial, fun asset _ => ?_⟩)
  refine along_seq.2 (along_orThrow.2 ⟨fun _ => trivial, fun state hstate => ?_⟩)
  refine along_invoke (fun _ => trivial) fun time => ?_
  split
  · exact ⟨trivial, trivial⟩
  next halive =>
  have hfound : FoundAlive token [.call .now time, .query (.grantByToken (hashDownloadToken token))
      (shop.eval (.grantByToken (hashDownloadToken token)) s)] := by
    refine ⟨x, state.1, state.2, time, ?_, hstate, List.mem_cons_self, halive⟩
    rw [show shop.eval (.grantByToken (hashDownloadToken token)) s = some x from hx]
    exact List.mem_cons_of_mem _ List.mem_cons_self
  refine fun clicked => ⟨trivial, fun taken => ⟨trivial, trivial, ?_⟩⟩
  refine along_seq.2 (along_seq.2 (along_throwIf.2 ⟨fun _ => trivial, fun _ => ?_⟩))
  refine along_invoke (fun _ => trivial) fun url => ?_
  refine along_orThrow.2 ⟨fun _ => trivial, fun _ _ => ?_⟩
  exact (((hfound.cons _).cons _).cons _).cons _

theorem handler_redeems (r : Request) : (handler r).Follows (Redeeming r) := by
  cases r with
  | redeem token => exact redeem_redeems token
  | _ => exact follows_anything _

/-! ## A redeemed link in a trace -/

variable {P : Protocol shop Request} {allow : StepCondition} {w w' : StoreWorld} {i : ℕ}
  {token : Id} {tx : List Update}

/-- A call that returns looked its token up in a committed state in between, and
the grant it found there was alive. -/
theorem redeemed_found (hP : ∀ r h e, P r h e → Redeeming r h e) (htidy : w.Tidy)
    (h : World.Trace P allow w w') (hidle : w.own i = [])
    (hret : (⟨i, .redeem token, .returned tx⟩ : Entry shop Request) ∈ w'.log) :
    ∃ v x status paymentStatus time, World.Trace P allow w v ∧ World.Trace P allow v w' ∧
      Query.eval (.grantByToken (hashDownloadToken token)) v.db = some x ∧
        x.delivery = some (status, paymentStatus) ∧ .call .now time ∈ w'.own i ∧
        deadLink x.grant status paymentStatus time = none := by
  have hnew : ∀ e, (⟨i, .redeem token, e⟩ : Entry shop Request) ∉ w.log := by
    intro e hmem
    have hown : e ∈ w.own i := World.mem_own.2 ⟨_, hmem⟩
    rw [hidle] at hown
    cases hown
  obtain ⟨v, v', hv, hm, hrest⟩ := h.exists_move hret (hnew _)
  obtain ⟨x, status, pay, time, hquery, hdelivery, htime, halive⟩ :
      FoundAlive token (v.own i) := hP _ _ _ hm.lawful
  -- the look-up was the first event of the process
  obtain ⟨r, hentry⟩ := World.mem_own.1 hquery
  cases hm.request _ hentry rfl
  obtain ⟨u, u', hu, hmu, hrestu⟩ := hv.exists_move hentry (hnew _)
  have hfirst : u.own i = [] := hP _ _ _ hmu.lawful
  have htx : u.tx i = [] := by
    rw [(World.Trace.tidy htidy hu).tx_eq, hfirst]
    rfl
  have heval : Query.eval (.grantByToken (hashDownloadToken token)) u.db = some x := by
    rw [← World.view_of_tx_nil htx]
    exact hmu.act.query_eq
  have huv : World.Trace P allow u v :=
    (Relation.ReflTransGen.single ⟨i, _, _, hmu⟩).trans hrestu
  have hvw : World.Trace P allow v w' :=
    (Relation.ReflTransGen.single ⟨i, _, _, hm⟩).trans hrest
  refine ⟨u, x, status, pay, time, hu, huv.trans hvw, heval, hdelivery, ?_, halive⟩
  obtain ⟨r, hmem⟩ := World.mem_own.1 htime
  exact World.mem_own.2 ⟨r, hvw.log_suffix.subset hmem⟩

end WhatStore
