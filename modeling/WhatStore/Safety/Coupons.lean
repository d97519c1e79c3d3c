import WhatStore.Protocol.Coupons
import WhatStore.Safety.OrderRule

/-!
# Coupon accounts

A coupon's count is the number of its orders that are not cancelled. Creating
an order takes a use and cancelling it gives the use back, each in the
transaction that moves the order, and a cancellation happens once: the
conditional write that cancels finds the order not cancelled yet. So the count
and the orders move together, and the release of a use always finds one.
-/

namespace WhatStore

open ReadCommitted

/-- The order holds a use of the coupon `c`. -/
def Order.holds (c : Id) (o : Order) : Bool := o.couponId == some c && o.status != .cancelled

/-- How often the coupon `c` is counted as used. -/
def usageCount (c : Id) (db : Database) : ℤ :=
  ((db.row (.coupon c)).map fun x : Coupon => x.usageCount).getD 0

/-- The number of orders with the coupon `c` that are not cancelled. -/
def ordersHolding (c : Id) (db : Database) : ℤ := (ordersWhere db (Order.holds c)).length

/-- The coupon `c` is not used more often than its limit allows. -/
def WithinLimit (c : Id) (db : Database) : Prop :=
  ∀ x limit, db.row (.coupon c) = some x → x.usageLimit = some limit → x.usageCount ≤ limit

/-! ## The balance of a coupon -/

/-- The count of the coupon `c`, at its row. -/
def countMeasure (c : Id) : (k : Key) → Option (Row k) → ℤ
  | .coupon id, v => if id = c then (v.map fun x : Coupon => x.usageCount).getD 0 else 0
  | _, _ => 0

/-- One for each order that holds a use of the coupon `c`. -/
def holdsMeasure (c : Id) : (k : Key) → Option (Row k) → ℤ
  | .order _, v => if v.any (Order.holds c) then 1 else 0
  | _, _ => 0

/-- One if the order has the coupon `c`. -/
def hasCoupon (c : Id) (o : Order) : ℤ := if o.couponId = some c then 1 else 0

/-- By how much an update moves the count of the coupon `c` less the orders
that hold it. -/
def couponFlow (c : Id) : (u : Update) → Option (Row u.key) → ℤ
  | .redeem id _, _ => if id = c then 1 else 0
  | .releaseCoupon id, _ => if id = c then -1 else 0
  | .insertOrder _ o, _ => -hasCoupon c o
  | .claimStatus _ _ new _, v => if new = .cancelled then (v.map (hasCoupon c)).getD 0 else 0
  | .sweepCancel _, v => (v.map (hasCoupon c)).getD 0
  | _, _ => 0

def CouponOk (c : Id) : (k : Key) → Option (Row k) → Prop
  | .coupon id, v => id = c → ∀ x limit, v = some x → x.usageLimit = some limit →
      x.usageCount ≤ limit
  | _, _ => True

/-- A coupon keeps its limit; an order keeps its coupon, and its status once
that is terminal. -/
def CouponRel : (k : Key) → Option (Row k) → Option (Row k) → Prop
  | .coupon _, v, v' => ∀ x : Coupon, v = some x →
      ∃ x' : Coupon, v' = some x' ∧ x'.usageLimit = x.usageLimit
  | .order _, v, v' => ∀ o : Order, v = some o → ∃ o' : Order, v' = some o' ∧
      o'.couponId = o.couponId ∧ (o.status.terminal = true → o'.status = o.status)
  | _, _, _ => True

theorem couponRel_refl (k : Key) (v : Option (Row k)) : CouponRel k v v := by
  cases k with
  | coupon id => exact fun x hx => ⟨x, hx, rfl⟩
  | order id => exact fun o ho => ⟨o, ho, rfl, fun _ => rfl⟩
  | _ => trivial

theorem couponRel_trans (k : Key) (u v w : Option (Row k)) (h : CouponRel k u v)
    (h' : CouponRel k v w) : CouponRel k u w := by
  cases k with
  | coupon id =>
      intro x hx
      obtain ⟨y, hy, hxy⟩ := h x hx
      obtain ⟨z, hz, hyz⟩ := h' y hy
      exact ⟨z, hz, hyz.trans hxy⟩
  | order id =>
      intro o ho
      obtain ⟨o', ho', hc, hs⟩ := h o ho
      obtain ⟨o'', ho'', hc', hs'⟩ := h' o' ho'
      refine ⟨o'', ho'', hc'.trans hc, fun hterm => ?_⟩
      rw [hs' (by rw [hs hterm]; exact hterm), hs hterm]
  | _ => trivial

/-- What an update on an order adds to the balance depends on its coupon alone. -/
theorem hasCoupon_rel {c id : Id} {v w : Option Order} (h : CouponRel (.order id) v w)
    (hv : v.isSome = true) : (v.map (hasCoupon c)).getD 0 = (w.map (hasCoupon c)).getD 0 := by
  obtain ⟨o, rfl⟩ := Option.isSome_iff_exists.1 hv
  obtain ⟨o', rfl, hc, -⟩ := h o rfl
  simp [hasCoupon, hc]

/-- The discipline of the coupon `c`. -/
def couponDiscipline (c : Id) : Discipline shop where
  ok := CouponOk c
  rel := CouponRel
  rel_refl := couponRel_refl
  rel_trans := couponRel_trans
  Index := Unit
  measure _ k v := countMeasure c k v - holdsMeasure c k v
  measure_none _ k := by cases k <;> simp [countMeasure, holdsMeasure]
  flow _ u v := couponFlow c u v
  flow_rel _ u v w hguard hrel := by
    cases u with
    | claimStatus id old new pay =>
        obtain ⟨o, rfl, -⟩ := (Option.any_eq_true _ _).1 hguard
        simp only [couponFlow]
        rw [hasCoupon_rel hrel rfl]
    | sweepCancel id =>
        obtain ⟨o, rfl, -⟩ := (Option.any_eq_true _ _).1 hguard
        exact hasCoupon_rel hrel rfl
    | _ => rfl

private theorem any_eq_isSome (p : Order → Bool) (id : Id) (v : Option Order) :
    (if v.any p then 1 else 0 : ℤ) = if ((v.filter p).map (Prod.mk id)).isSome then 1 else 0 := by
  cases v with
  | none => rfl
  | some o => cases hp : p o <;> simp [Option.filter, hp]

theorem total_balance (c : Id) (db : Database) :
    Store.total ((couponDiscipline c).measure ()) db = usageCount c db - ordersHolding c db := by
  have hcount : Store.total (countMeasure c) db = usageCount c db := by
    rw [Store.total_single (countMeasure c) (fun k => by cases k <;> simp [countMeasure]) db
      (.coupon c)]
    · simp [countMeasure, usageCount]
    · intro k hk v
      cases k with
      | coupon id => exact if_neg fun hid => hk (congrArg _ hid)
      | _ => rfl
  have hholds : Store.total (holdsMeasure c) db = ordersHolding c db := by
    refine Store.total_count (holdsMeasure c) _ db fun k => ?_
    cases k with
    | order id => exact any_eq_isSome (Order.holds c) id (db.row (.order id))
    | _ => rfl
  exact (Store.total_sub (countMeasure c) (holdsMeasure c) db).trans (by rw [hcount, hholds])

/-! ## Every write keeps the balance -/

theorem measure_order (c id : Id) (o : Order) : (couponDiscipline c).measure () (.order id) (some o) =
    if o.status = .cancelled then 0 else -hasCoupon c o := by
  by_cases hs : o.status = .cancelled
  · simp [couponDiscipline, countMeasure, holdsMeasure, Order.holds, hs]
  · by_cases hc : o.couponId = some c <;>
      simp [couponDiscipline, countMeasure, holdsMeasure, Order.holds, hasCoupon, hs, hc]

theorem order_balanced {c id : Id} {o o' : Order} {n : ℤ} (hc : o'.couponId = o.couponId)
    (hs : o'.status = .cancelled ↔ o.status = .cancelled) (hn : n = 0) :
    (couponDiscipline c).measure () (.order id) (some o') =
      (couponDiscipline c).measure () (.order id) (some o) + n := by
  rw [measure_order, measure_order, hn, add_zero]
  simp [hasCoupon, hc, hs]

theorem respects_order {c id : Id} {u : Update} {s : Database} {o o' : Order}
    (hkey : u.key = .order id) (ho : s.row (.order id) = some o)
    (ho' : (applyUpdate (S := shop) u s).row (.order id) = some o')
    (hc : o'.couponId = o.couponId) (hterm : o.status.terminal = true → o'.status = o.status)
    (hflow : (couponDiscipline c).measure () (.order id) (some o') =
      (couponDiscipline c).measure () (.order id) (some o) +
        couponFlow c u (u.change (s.row u.key))) :
    (couponDiscipline c).Respects u s := by
  refine Discipline.Respects.of_row hkey trivial ?_ fun _ => ?_
  · rw [ho', ho]
    rintro _ ⟨⟩
    exact ⟨o', rfl, hc, hterm⟩
  · rw [ho', ho]
    exact hflow

theorem measure_cancelled {c id : Id} {o o' : Order} (ho : o.status ≠ .cancelled)
    (ho' : o'.status = .cancelled) : (couponDiscipline c).measure () (.order id) (some o') =
      (couponDiscipline c).measure () (.order id) (some o) + hasCoupon c o := by
  rw [measure_order, measure_order, if_pos ho', if_neg ho]
  ring

/-- Only a status that ends an order comes with a payment status. -/
theorem measure_coupon (c id : Id) (x : Coupon) :
    (couponDiscipline c).measure () (.coupon id) (some x) = if id = c then x.usageCount else 0 := by
  simp [couponDiscipline, countMeasure, holdsMeasure]

theorem respects_coupon {c id : Id} {u : Update} {s : Database} {x x' : Coupon}
    (hkey : u.key = .coupon id) (hx : s.row (.coupon id) = some x)
    (hx' : (applyUpdate (S := shop) u s).row (.coupon id) = some x')
    (hlimit : x'.usageLimit = x.usageLimit)
    (hok : id = c → ∀ limit, x.usageLimit = some limit → x'.usageCount ≤ limit)
    (hflow : couponFlow c u (u.change (s.row u.key)) =
      if id = c then x'.usageCount - x.usageCount else 0) :
    (couponDiscipline c).Respects u s := by
  refine Discipline.Respects.of_row hkey ?_ ?_ fun () => ?_
  · rw [hx']
    rintro hid _ limit ⟨⟩ hlim
    exact hok hid limit (hlimit ▸ hlim)
  · rw [hx', hx]
    rintro _ ⟨⟩
    exact ⟨x', rfl, hlimit⟩
  · rw [hx', hx, measure_coupon, measure_coupon]
    refine Eq.trans ?_ (congrArg _ hflow.symm)
    split <;> ring

/-- A use is taken while the limit, which is the one that was read, leaves one. -/
theorem respects_redeem {c id : Id} {h : List Ev} {s : Database} {limit : Option ℤ}
    (hknows : (couponDiscipline c).Knows h s)
    (hread : ∃ x, Saw (S := shop) (.coupon id) (some x) h ∧ limit = x.usageLimit)
    (hguard : shop.guard (.redeem id limit) (s.row (.coupon id)) = true) :
    (couponDiscipline c).Respects (.redeem id limit) s := by
  obtain ⟨x, hx, hleft⟩ := (Option.any_eq_true _ _).1 hguard
  obtain ⟨x₀, hsaw, rfl⟩ := hread
  obtain ⟨x', hx', hlimit⟩ := (hknows (.coupon id) _ hsaw).2 x₀ rfl
  cases hx'.symm.trans hx
  have hrow : (applyUpdate (S := shop) (.redeem id x₀.usageLimit) s).row (.coupon id) =
      some { x with usageCount := x.usageCount + 1 } := by
    rw [applyUpdate_row_self (S := shop) (.redeem id x₀.usageLimit) s]
    exact congrArg _ hx
  refine respects_coupon rfl hx hrow rfl ?_ ?_
  · intro _ limit hlim
    simp only [← hlimit, hlim, Option.isNone_some, Option.getD_some, Bool.false_or,
      decide_eq_true_eq] at hleft
    exact hleft
  · simp [couponFlow]

theorem respects_releaseCoupon {c id : Id} {s : Database}
    (hok : CouponOk c (.coupon id) (s.row (.coupon id)))
    (hguard : shop.guard (.releaseCoupon id) (s.row (.coupon id)) = true) :
    (couponDiscipline c).Respects (.releaseCoupon id) s := by
  obtain ⟨x, hx, -⟩ := (Option.any_eq_true _ _).1 hguard
  have hrow : (applyUpdate (S := shop) (.releaseCoupon id) s).row (.coupon id) =
      some { x with usageCount := x.usageCount - 1 } := by
    rw [applyUpdate_row_self (S := shop) (.releaseCoupon id) s]
    exact congrArg _ hx
  refine respects_coupon rfl hx hrow rfl ?_ ?_
  · intro hid limit hlim
    have := hok hid x limit hx hlim
    simp only
    omega
  · simp [couponFlow]

def CouponProtocol : Protocol shop Request :=
  fun r h e => Among (Request.trades ·) r h e ∧ CouponLaw h e

theorem couponDiscipline_kept (c : Id) {allow : StepCondition} :
    (couponDiscipline c).Kept CouponProtocol allow := by
  rintro w i r u htidy hw ⟨⟨hr, hlaw⟩, -⟩ - hguard
  cases orderEffect hguard with
  | insert id o hu hnone =>
      subst hu
      obtain ⟨t, dto, tenant, coupon, totals, time, -, rfl⟩ := hlaw
      refine ⟨trivial, fun o ho => ?_, fun _ => ?_⟩
      · cases hnone.symm.trans ho
      · refine (measure_order c id _).trans ?_
        have hbefore : (couponDiscipline c).measure () (.order id)
            ((w.view i).row (.order id)) = 0 := by
          rw [hnone]
          exact (couponDiscipline c).measure_none () (.order id)
        refine Eq.trans ?_ (congrArg (· + -hasCoupon c _) hbefore.symm)
        simp [newOrder]
  | write id o o' hkey hwrite ho ho' =>
      have hkeep := respects_order (c := c) hkey ho ho'
      cases hwrite with
      | confirmMessage =>
          obtain ⟨-, o₀, hpending, hwrote⟩ := hlaw
          cases (row_of_wrote htidy hwrote).symm.trans ho
          exact hkeep rfl (by simp [hpending, OrderStatus.terminal])
            (order_balanced rfl (by simp [hpending]) rfl)
      | claimStatus _ old new pay _ hold =>
          obtain ⟨-, o₀, -, -, hne, hopen, -⟩ := hlaw
          refine hkeep rfl (by simp [hold, hopen]) ?_
          by_cases hnew : new = .cancelled
          · subst hnew
            refine (measure_cancelled (by rw [hold]; exact hne) rfl).trans (congrArg _ ?_)
            simp only [couponFlow, Update.change, if_true]
            rw [ho]
            rfl
          · refine order_balanced rfl ?_ (if_neg hnew)
            simp only [hnew, false_iff]
            rintro hcancelled
            rw [← hold, hcancelled] at hopen
            cases hopen
      | restatus _ status pay =>
          obtain ⟨-, o₀, hsaw, rfl, rfl, hsome⟩ := hlaw
          obtain ⟨o', ho', -, hs⟩ := (hw.knows i (.order id) _ hsaw).2 o₀ rfl
          cases ho'.symm.trans ho
          have hsame : o₀.status = o.status := (hs (terminal_of_paymentData hsome)).symm
          exact hkeep rfl (fun _ => hsame) (order_balanced rfl (by rw [hsame]) rfl)
      | editOrder => exact hkeep rfl (fun _ => rfl) (order_balanced rfl Iff.rfl rfl)
      | settle => exact absurd hlaw.1 (by simp [Request.settles_of_trades hr])
      | failPayPal => exact hkeep rfl (fun _ => rfl) (order_balanced rfl Iff.rfl rfl)
      | sweepCancel _ _ hstatus =>
          refine hkeep rfl (by simp [hstatus, OrderStatus.terminal]) ?_
          refine (measure_cancelled (by simp [hstatus]) rfl).trans (congrArg _ ?_)
          simp only [couponFlow, Update.change]
          rw [ho]
          rfl
      | markLost =>
          obtain ⟨e, rfl⟩ := hlaw
          cases hr
      | confirmManual =>
          obtain ⟨⟨t, rfl⟩, -⟩ := hlaw
          cases hr
      | rejectManual => exact hkeep rfl (fun _ => rfl) (order_balanced rfl Iff.rfl rfl)
      | submitProof => exact hkeep rfl (fun _ => rfl) (order_balanced rfl Iff.rfl rfl)
      | bindCheckout _ g =>
          cases g <;> exact hkeep rfl (fun _ => rfl) (order_balanced rfl Iff.rfl rfl)
      | hideOrder => exact hkeep rfl (fun _ => rfl) (order_balanced rfl Iff.rfl rfl)
  | other hkey =>
      cases u with
      | redeem id limit => exact respects_redeem (hw.knows i) hlaw.2 hguard
      | releaseCoupon id => exact respects_releaseCoupon (hw.view_good i (.coupon id)) hguard
      | take row n => cases row <;> exact ⟨trivial, trivial, fun _ => rfl⟩
      | give row n => cases row <;> exact ⟨trivial, trivial, fun _ => rfl⟩
      | _ => first | exact ⟨trivial, trivial, fun _ => rfl⟩ | exact absurd rfl (hkey _)

/-! ## Every transaction keeps the balance -/

theorem couponFlow_of_couponFree {c : Id} {u : Update} (hu : u.couponFree)
    (v : Option (Row u.key)) : couponFlow c u v = 0 := by
  cases u with
  | claimStatus id old new pay =>
      refine if_neg ?_
      rintro rfl
      cases hu
  | insertOrder id o => cases hu
  | sweepCancel id => cases hu
  | redeem id limit => cases hu
  | releaseCoupon id => cases hu
  | _ => rfl

/-- By how much a list of updates moves the balance. -/
def couponFlows (c : Id) (us : List Update) (db : Database) : ℤ :=
  (us.map fun u => couponFlow c u (db.row u.key)).sum

@[simp] theorem couponFlows_nil (c : Id) (db : Database) : couponFlows c [] db = 0 := rfl

@[simp] theorem couponFlows_cons (c : Id) (u : Update) (us : List Update) (db : Database) :
    couponFlows c (u :: us) db = couponFlow c u (db.row u.key) + couponFlows c us db := rfl

theorem couponFlows_filter (c : Id) (us : List Update) (db : Database) :
    couponFlows c (us.filter Update.movesCoupon) db = couponFlows c us db := by
  induction us with
  | nil => rfl
  | cons u us ih =>
      by_cases hu : u.movesCoupon = true
      · rw [List.filter_cons_of_pos hu, couponFlows_cons, couponFlows_cons, ih]
      · rw [List.filter_cons_of_neg hu, couponFlows_cons, ih,
          couponFlow_of_couponFree (by simpa [Update.couponFree] using hu), zero_add]

variable {c : Id} {w : StoreWorld} {i : ℕ}

/-- A cancellation adds the coupon of the order that was read, since no write
changes the coupon of an order. -/
theorem couponFlow_cancels (hw : (couponDiscipline c).Inv w) {u : Update} {id : Id} {o : Order}
    (hu : u.Cancels id) (hread : ReadsOrder id o (w.own i)) :
    couponFlow c u ((w.view i).row u.key) = hasCoupon c o := by
  have hrow : ∃ o', (w.view i).row (.order id) = some o' ∧ o'.couponId = o.couponId := by
    rcases hread with hsaw | hsees
    · obtain ⟨o', ho', hc, -⟩ := (hw.knows i (.order id) _ hsaw).2 o rfl
      exact ⟨o', ho', hc⟩
    · exact ⟨o, (hw.sees i (.order id) _ hsees).2, rfl⟩
  obtain ⟨o', ho', hc⟩ := hrow
  have hsame : hasCoupon c o' = hasCoupon c o := by simp [hasCoupon, hc]
  cases u with
  | claimStatus id' old new pay =>
      obtain ⟨rfl, rfl⟩ := hu
      simp only [couponFlow, if_true]
      rw [ho', ← hsame]
      rfl
  | sweepCancel id' =>
      cases (show id' = id from hu)
      simp only [couponFlow]
      rw [ho', ← hsame]
      rfl
  | _ => exact hu.elim

/-- No release of a use of the coupon `c` has missed. -/
def NoneMissed (c : Id) (w : StoreWorld) : Prop :=
  ∀ i, .update (.releaseCoupon c) false ∉ w.own i

/-- The balance of a view: what its coupon updates add to the committed one. -/
theorem view_balance (htidy : w.Tidy) (hw : (couponDiscipline c).Inv w) :
    usageCount c (w.view i) - ordersHolding c (w.view i) =
      usageCount c w.db - ordersHolding c w.db + couponFlows c (couponTx (w.own i)) (w.view i) := by
  have htotal := hw.view_total i ()
  rw [total_balance, total_balance] at htotal
  rw [couponTx, couponFlows_filter, ← htidy.tx_eq i]
  exact htotal

theorem couponFlows_balanced (hw : (couponDiscipline c).Inv w) (hmiss : NoneMissed c w)
    (hb : CouponsBalanced (w.own i)) : couponFlows c (couponTx (w.own i)) (w.view i) = 0 := by
  cases hb with
  | untouched htx => rw [htx, couponFlows_nil]
  | created id o couponId limit htx ho => simp [htx, couponFlow, hasCoupon, ho]
  | createdWithout id o htx ho => simp [htx, couponFlow, hasCoupon, ho]
  | cancelled u id o couponId hu hread htx ho =>
      rw [htx, couponFlows_cons, couponFlows_cons, couponFlow_cancels hw hu hread]
      by_cases hc : couponId = c <;> simp [couponFlow, hasCoupon, ho, hc]
  | cancelledWithout u id o hu hread htx ho =>
      rw [htx, couponFlows_cons, couponFlow_cancels hw hu hread]
      simp [hasCoupon, ho]
  | missed u id o couponId hu hread htx ho hmissed =>
      have hne : couponId ≠ c := by
        rintro rfl
        exact hmiss i hmissed
      rw [htx, couponFlows_cons, couponFlow_cancels hw hu hread]
      simp [hasCoupon, ho, hne]

theorem ordersHolding_nonneg (c : Id) (db : Database) : 0 ≤ ordersHolding c db :=
  Int.natCast_nonneg _

/-- The release of the coupon of a cancelled order finds a use: the order has
stopped holding one and the count has not moved yet. -/
theorem release_hits (htidy : w.Tidy) (hw : (couponDiscipline c).Inv w)
    (hbalance : usageCount c w.db = ordersHolding c w.db) {hit : Bool}
    (hlaw : CouponLaw (w.own i) (.update (.releaseCoupon c) hit)) :
    shop.guard (.releaseCoupon c) ((w.view i).row (.coupon c)) = true := by
  obtain ⟨u, id, o, hu, htx, hread, ho⟩ := hlaw
  have hbefore := view_balance (i := i) htidy hw
  rw [htx, couponFlows_cons, couponFlow_cancels hw hu hread, couponFlows_nil, hbalance] at hbefore
  have hone : hasCoupon c o = 1 := if_pos ho
  have hused : 0 < usageCount c (w.view i) := by
    have := ordersHolding_nonneg c (w.view i)
    omega
  cases hx : (w.view i).row (.coupon c) with
  | none => simp [usageCount, hx] at hused
  | some x =>
      simp only [usageCount, hx, Option.map_some, Option.getD_some] at hused
      simpa [Update.guard] using hused

theorem noneMissed_move {allow : StepCondition} {r : Request} {e : Ev} {w' : StoreWorld}
    (htidy : w.Tidy) (hw : (couponDiscipline c).Inv w)
    (hbalance : usageCount c w.db = ordersHolding c w.db) (hmiss : NoneMissed c w)
    (hm : w.Move CouponProtocol allow i r e w') : NoneMissed c w' := by
  intro j hmem
  by_cases hj : j = i
  · subst hj
    rw [hm.act.own_self] at hmem
    rcases List.mem_cons.1 hmem with rfl | hmem
    · have hhit := release_hits htidy hw hbalance hm.lawful.2
      cases hm.act with
      | miss u hguard => cases hhit.symm.trans hguard
    · exact hmiss j hmem
  · rw [hm.act.own_of_ne hj] at hmem
    exact hmiss j hmem

/-- In every run of orders created, moved, corrected and swept, the coupon `c`
stays within its limit, and its count stays the number of its orders that are
not cancelled. -/
theorem coupon_accounts {db : Database} {s : StoreSystem} (hlimit : WithinLimit c db)
    (hcount : usageCount c db = ordersHolding c db)
    (hrun : Runs (Request.trades ·) (anyOrder · · · ·) (System.initial db) s) :
    WithinLimit c s.world.db ∧ usageCount c s.world.db = ordersHolding c s.world.db := by
  have htrace : World.Trace CouponProtocol (anyOrder · · · ·) (World.initial db) s.world :=
    trace_of_runs (fun r hr => (handler_among r hr).and (handler_coupons r hr)) hrun
  have hkept : (couponDiscipline c).Kept CouponProtocol (anyOrder · · · ·) :=
    couponDiscipline_kept c
  have hgood : (couponDiscipline c).Good db := by
    intro k
    cases k with
    | coupon id =>
        rintro rfl
        exact hlimit
    | _ => exact trivial
  have hinv := hkept.inv (World.initial_tidy db) (Discipline.inv_initial hgood) htrace
  have htotal : Store.total ((couponDiscipline c).measure ()) s.world.db =
      Store.total ((couponDiscipline c).measure ()) db := by
    refine hkept.conserved (J := NoneMissed c) (fun i => by simp [World.initial, World.own]) ?_ ?_
      hgood htrace
    · intro w i r e w' htidy hw htotal hmiss hm
      refine noneMissed_move htidy hw ?_ hmiss hm
      rw [total_balance, total_balance, hcount] at htotal
      omega
    · intro w i r e htidy hw hmiss hlaw hend
      have hb : CouponsBalanced (w.own i) := by
        rcases hend with rfl | rfl
        · exact hlaw.2
        · exact hlaw.2
      have hflows : couponFlows c (w.tx i) (w.view i) = 0 := by
        rw [← couponFlows_filter, htidy.tx_eq i]
        exact couponFlows_balanced hw hmiss hb
      exact hflows
  refine ⟨hinv.good (.coupon c) rfl, ?_⟩
  rw [total_balance, total_balance, hcount] at htotal
  omega

/-- An order without a coupon holds no use of one. -/
example : ordersHolding 0 (storeWith Tenant.plain (.fresh .stripe 1000)) = 0 := by
  decide +kernel

def tenOff : Coupon where
  tenantId := 0
  code := "TEN"
  discountType := .percentage
  discountValue := 1000
  usageLimit := some 1
  usageCount := 0
  expiresAt := none
  isActive := true

def couponStore : Database :=
  ((Store.empty.set (.tenant 0) (some Tenant.plain)).set (.product 0)
    (some (Product.plain 1000 5))).set (.coupon 0) (some tenOff)

def mugWithCoupon : CreateOrder := .single (some "TEN")

/-- The only use is taken by an order, comes back when the order is cancelled,
and is taken by a second order. -/
theorem coupon_accounts_reused : ∃ s : StoreSystem, usageCount 0 s.world.db = 1 ∧
    usageCount 0 s.world.db = ordersHolding 0 s.world.db := by
  obtain ⟨s, hs, hused⟩ := System.exists_run_of_play handler Request.trades anyOrder
    (System.initial couponStore)
    (arrive 0 (.create 0 mugWithCoupon) 13 ++ arrive 1 (.updateStatus 0 0 .cancelled true) 7 ++
      arriveWith { fresh := 1 } 2 (.create 0 mugWithCoupon) 13)
    (fun s : StoreSystem => (s.quiet, s.status 0, s.status 1, usageCount 0 s.world.db))
    (by decide +kernel : _ = some (true, some .cancelled, some .pending, (1 : ℤ)))
  simp only [Prod.mk.injEq] at hused
  have hlimit : ∀ x limit, couponStore.row (.coupon 0) = some x → x.usageLimit = some limit →
      x.usageCount ≤ limit := by
    rintro x limit ⟨⟩ ⟨⟩
    decide
  exact ⟨s, hused.2.2.2, (coupon_accounts hlimit rfl hs).2⟩

end WhatStore
