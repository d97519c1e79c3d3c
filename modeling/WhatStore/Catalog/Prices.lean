import WhatStore.Catalog.Rules

/-!
# Scheduled prices

The sweep copies the latest due price of each product into the product and marks every due
row as applied. What it does is a function of the rows alone, so sweeping at several
instants leaves the prices and the applied rows that sweeping once at the last of them
does: a row that falls due early is superseded, or is the latest one still.
-/

namespace WhatStore.Catalog

open ReadCommitted ReadCommitted.Prog DigitalService

variable {answer : Answers catalog} {db db' : Database} {productId x : Id} {t t' : Time}

/-! ## The latest row of each product -/

/-- `Map.get`. -/
def mapGet {β : Type} (m : List (Id × β)) (k : Id) : Option β :=
  (m.find? fun e => e.1 == k).map Prod.snd

theorem mapGet_cons {β : Type} (e : Id × β) (m : List (Id × β)) (k : Id) :
    mapGet (e :: m) k = if e.1 = k then some e.2 else mapGet m k := by
  by_cases hk : e.1 = k <;> simp [mapGet, hk]

theorem mapGet_append {β : Type} (m m' : List (Id × β)) (k : Id) :
    mapGet (m ++ m') k = (mapGet m k).or (mapGet m' k) := by
  induction m with
  | nil => rfl
  | cons e m ih =>
      rw [List.cons_append, mapGet_cons, mapGet_cons, ih]
      split <;> rfl

theorem mapGet_isSome {β : Type} (m : List (Id × β)) (k : Id) :
    (mapGet m k).isSome = m.any fun e => e.1 == k := by
  induction m with
  | nil => rfl
  | cons e m ih =>
      rw [mapGet_cons, List.any_cons, ← ih]
      by_cases hk : e.1 = k <;> simp [hk]

theorem mapGet_map {β : Type} (m : List (Id × β)) (k j : Id) (v : β) :
    mapGet (m.map fun e => if e.1 = k then (k, v) else e) j =
      if j = k then (mapGet m k).map fun _ => v else mapGet m j := by
  induction m with
  | nil => simp [mapGet]
  | cons e m ih =>
      rw [List.map_cons, mapGet_cons, mapGet_cons, mapGet_cons, ih]
      by_cases hj : j = k
      · subst hj
        by_cases he : e.1 = j <;> simp [he]
      · by_cases he : e.1 = k
        · subst he
          simp [hj, Ne.symm hj]
        · simp [hj, he]

theorem mapGet_set {β : Type} (m : List (Id × β)) (k j : Id) (v : β) :
    mapGet (mapSet m k v) j = if j = k then some v else mapGet m j := by
  unfold mapSet
  split
  · next hmem =>
      rw [← mapGet_isSome] at hmem
      obtain ⟨w, hw⟩ := Option.isSome_iff_exists.1 hmem
      rw [mapGet_map, hw, Option.map_some]
  · next hmem =>
      rw [← mapGet_isSome, Bool.not_eq_true, Option.isSome_eq_false_iff,
        Option.isNone_iff_eq_none] at hmem
      rw [mapGet_append, mapGet_cons]
      by_cases hj : j = k
      · subst hj
        simp [hmem]
      · simp [hj, Ne.symm hj, mapGet]

def lastOf (productId : Id) : List (Id × ProductPriceSchedule) → Option ProductPriceSchedule
  | [] => none
  | row :: rows => (lastOf productId rows).or
      (if row.2.productId = productId then some row.2 else none)

theorem mapGet_latest (due : List (Id × ProductPriceSchedule)) (productId : Id) :
    mapGet (latest due) productId = lastOf productId due := by
  have hfold : ∀ m : List (Id × ProductPriceSchedule),
      mapGet (due.foldl (fun m row => mapSet m row.2.productId row.2) m) productId =
        (lastOf productId due).or (mapGet m productId) := by
    induction due with
    | nil => exact fun m => rfl
    | cons row due ih =>
        intro m
        rw [List.foldl_cons, ih, mapGet_set, lastOf, Option.or_assoc]
        congr 1
        by_cases hrow : productId = row.2.productId
        · simp [hrow]
        · simp [hrow, Ne.symm hrow]
  rw [latest, hfold]
  exact Option.or_none

/-- The keys of a map are distinct, and each row is kept under its product. -/
structure ByProduct (m : List (Id × ProductPriceSchedule)) : Prop where
  nodup : (m.map Prod.fst).Nodup
  key : ∀ e ∈ m, e.2.productId = e.1

theorem ByProduct.set {m : List (Id × ProductPriceSchedule)} (h : ByProduct m)
    (row : ProductPriceSchedule) : ByProduct (mapSet m row.productId row) := by
  unfold mapSet
  split
  · have hkeys : (m.map fun e => if e.1 = row.productId then (row.productId, row) else e).map
        Prod.fst = m.map Prod.fst := by
      rw [List.map_map]
      apply List.map_congr_left
      intro e _
      by_cases he : e.1 = row.productId <;> simp [he]
    refine ⟨hkeys ▸ h.nodup, ?_⟩
    intro e he
    obtain ⟨e', he', rfl⟩ := List.mem_map.1 he
    split
    · exact rfl
    · exact h.key e' he'
  · next hnew =>
      constructor
      · rw [List.map_append, List.nodup_append]
        refine ⟨h.nodup, List.nodup_singleton _, ?_⟩
        intro a ha b hb hab
        obtain ⟨e, he, rfl⟩ := List.mem_map.1 ha
        rw [List.map_singleton, List.mem_singleton] at hb
        exact hnew (List.any_eq_true.2 ⟨e, he, by simp [hab, hb]⟩)
      · intro e he
        rcases List.mem_append.1 he with he | he
        · exact h.key e he
        · rw [List.mem_singleton.1 he]

theorem byProduct_latest (due : List (Id × ProductPriceSchedule)) : ByProduct (latest due) := by
  have hfold : ∀ m, ByProduct m →
      ByProduct (due.foldl (fun m row => mapSet m row.2.productId row.2) m) := by
    induction due with
    | nil => exact fun _ hm => hm
    | cons row due ih => exact fun m hm => ih _ (hm.set row.2)
  exact hfold [] ⟨List.nodup_nil, nofun⟩

theorem lastOf_eq_none {due : List (Id × ProductPriceSchedule)} :
    lastOf productId due = none ↔ ∀ e ∈ due, e.2.productId ≠ productId := by
  induction due with
  | nil => simp [lastOf]
  | cons first due ih =>
      rw [lastOf, Option.or_eq_none_iff, ih, List.forall_mem_cons, and_comm]
      simp

theorem lastOf_spec {due : List (Id × ProductPriceSchedule)}
    (hsorted : due.Pairwise fun a b => a.2.effectiveFrom ≤ b.2.effectiveFrom)
    {row : ProductPriceSchedule} (h : lastOf productId due = some row) :
    (∃ id, (id, row) ∈ due) ∧ row.productId = productId ∧
      ∀ e ∈ due, e.2.productId = productId → e.2.effectiveFrom ≤ row.effectiveFrom := by
  induction due with
  | nil => cases h
  | cons first due ih =>
      rw [List.pairwise_cons] at hsorted
      rw [lastOf] at h
      cases hrest : lastOf productId due with
      | some last =>
          rw [hrest, Option.some_or] at h
          cases h
          obtain ⟨⟨id, hid⟩, hproduct, hlatest⟩ := ih hsorted.2 hrest
          refine ⟨⟨id, List.mem_cons_of_mem _ hid⟩, hproduct, ?_⟩
          intro e he heproduct
          rcases List.mem_cons.1 he with rfl | he
          · exact hsorted.1 _ hid
          · exact hlatest e he heproduct
      | none =>
          rw [hrest, Option.none_or] at h
          split at h
          · next hproduct =>
              cases h
              refine ⟨⟨first.1, List.mem_cons_self⟩, hproduct, ?_⟩
              intro e he heproduct
              rcases List.mem_cons.1 he with rfl | he
              · exact le_refl _
              · exact (lastOf_eq_none.1 hrest e he heproduct).elim
          · cases h

/-! ## The sweep as a function of the rows -/

def productAt (db : Database) (id : Id) : Option Product := db.row (.product id)

def priceOf (db : Database) (id : Id) : Option Cents := (productAt db id).map Product.price

def scheduleAt (db : Database) (id : Id) : Option ProductPriceSchedule := db.row (.schedule id)

theorem scheduleAt_set (db : Database) (id x : Id) (v : Option ProductPriceSchedule) :
    scheduleAt (db.set (.schedule id) v) x = if x = id then v else scheduleAt db x := by
  by_cases hx : x = id
  · subst hx
    rw [if_pos rfl]
    exact Store.set_row_self ..
  · rw [if_neg hx]
    exact Store.set_row_of_ne (k := .schedule id) db v (by simpa using hx)

theorem productAt_setPrice (id : Id) (price : Cents) (db : Database) (productId : Id) :
    productAt (touch (.setPrice id price) db) productId =
      if productId = id then (productAt db productId).map fun p => { p with price }
      else productAt db productId := by
  by_cases hid : productId = id
  · subst hid
    rw [if_pos rfl]
    cases hrow : db.row (.product productId) with
    | none => simp [productAt, touch, Update.guard, Update.key, hrow]
    | some p =>
        rw [touch_hit (by simp [Update.guard, Update.key, hrow])]
        exact applyUpdate_row_self (S := catalog) _ _
  · rw [if_neg hid]
    exact touch_row_of_ne (by simpa [Update.key] using hid)

theorem scheduleAt_markApplied (id : Id) (now : Time) (db : Database) (x : Id) :
    scheduleAt (touch (.markApplied id now) db) x =
      if x = id then (scheduleAt db x).map fun r => { r with appliedAt := some now }
      else scheduleAt db x := by
  by_cases hid : x = id
  · subst hid
    rw [if_pos rfl]
    cases hrow : db.row (.schedule x) with
    | none => simp [scheduleAt, touch, Update.guard, Update.key, hrow]
    | some p =>
        rw [touch_hit (by simp [Update.guard, Update.key, hrow])]
        exact applyUpdate_row_self (S := catalog) _ _
  · rw [if_neg hid]
    exact touch_row_of_ne (by simpa [Update.key] using hid)

def setPrices (rows : List (Id × ProductPriceSchedule)) (db : Database) : Database :=
  touchAll (fun row => .setPrice row.2.productId row.2.price) rows db

def markAll (now : Time) (rows : List (Id × ProductPriceSchedule)) (db : Database) : Database :=
  touchAll (fun row => .markApplied row.1 now) rows db

theorem productAt_setPrices {m : List (Id × ProductPriceSchedule)} (hm : ByProduct m)
    (db : Database) (productId : Id) :
    productAt (setPrices m db) productId = (productAt db productId).map fun p =>
      { p with price := ((mapGet m productId).map ProductPriceSchedule.price).getD p.price } := by
  induction m generalizing db with
  | nil =>
      change productAt db productId = _
      cases productAt db productId <;> rfl
  | cons e m ih =>
      have hnodup := List.nodup_cons.1 hm.nodup
      have hrest : ByProduct m := ⟨hnodup.2, fun e' he' => hm.key e' (List.mem_cons_of_mem _ he')⟩
      refine (ih hrest (touch (.setPrice e.2.productId e.2.price) db)).trans ?_
      rw [productAt_setPrice, mapGet_cons, hm.key e List.mem_cons_self]
      by_cases he : e.1 = productId
      · have hnone : mapGet m productId = none := by
          rw [← Option.isNone_iff_eq_none, ← Option.isSome_eq_false_iff, mapGet_isSome,
            List.any_eq_false]
          intro e' he' heq
          exact hnodup.1 (List.mem_map.2 ⟨e', he', by simpa [he] using heq⟩)
        subst he
        simp only [if_true, hnone]
        cases productAt db e.1 <;> rfl
      · simp [he, Ne.symm he]

theorem scheduleAt_markAll (now : Time) (rows : List (Id × ProductPriceSchedule)) (db : Database)
    (x : Id) : scheduleAt (markAll now rows db) x =
      if x ∈ rows.map Prod.fst then (scheduleAt db x).map fun r => { r with appliedAt := some now }
      else scheduleAt db x := by
  induction rows generalizing db with
  | nil => simp [markAll, touchAll]
  | cons row rows ih =>
      refine (ih (touch (.markApplied row.1 now) db)).trans ?_
      rw [scheduleAt_markApplied]
      by_cases hx : x = row.1
      · simp [hx]
        intros
        cases scheduleAt db row.1 <;> rfl
      · simp only [hx, if_false, List.map_cons, List.mem_cons, false_or]

theorem mem_schedulesWhere {q : ProductPriceSchedule → Bool} {r : ProductPriceSchedule} :
    (x, r) ∈ schedulesWhere db q ↔ scheduleAt db x = some r ∧ q r = true := by
  constructor
  · intro h
    obtain ⟨k, -, hk⟩ := List.mem_filterMap.1 h
    cases k with
    | schedule id' =>
        obtain ⟨r', hr', heq⟩ := Option.map_eq_some_iff.1 hk
        cases heq
        simpa [Option.filter_eq_some_iff, scheduleAt] using hr'
    | template _ => cases hk
    | product _ => cases hk
    | image _ => cases hk
  · rintro ⟨hr, hq⟩
    apply List.mem_filterMap.2
    refine ⟨.schedule x, db.mem_keys_of_row hr, ?_⟩
    have hrow : db.row (.schedule x) = some r := hr
    simp [hrow, hq]

theorem mem_due {r : ProductPriceSchedule} :
    (x, r) ∈ Query.eval (.due t) db ↔ scheduleAt db x = some r ∧ r.isDue t = true := by
  rw [Query.eval, List.mem_insertionSort, mem_schedulesWhere]

def swept (now : Time) (db : Database) : Database :=
  markAll now (Query.eval (.due now) db) (setPrices (latest (Query.eval (.due now) db)) db)

theorem serve_applyDuePrices (now : Time) :
    serve answer (handler (.applyDuePrices now)) db = swept now db := by
  have happly : EndsWith answer (applyDuePrices now) 0 (.start db) fun v _ σ' =>
      (∃ count, v = .ok count) ∧ σ'.view = swept now db := by
    apply ends_ask
    apply ends_each_updateMany
    apply ends_each_updateMany
    exact ⟨⟨_, rfl⟩, rfl⟩
  suffices hends : EndsWith answer (handler (.applyDuePrices now)) 0 (.start db) fun _ _ σ' =>
      σ'.view = swept now db from hends
  apply happly.seq
  · intro _ n σ' hdone
    exact hdone.2
  · rintro e n σ' ⟨⟨_, herror⟩, -⟩
    cases herror

theorem swept_of_nothing_due (h : ∀ id r, scheduleAt db id = some r → r.isDue t = false) :
    swept t db = db := by
  have hnone : Query.eval (.due t) db = [] := by
    apply List.eq_nil_iff_forall_not_mem.2
    rintro ⟨id, r⟩ hr
    obtain ⟨hrow, hdue⟩ := mem_due.1 hr
    exact absurd ((h id r hrow).symm.trans hdue) (by simp)
  rw [swept, hnone]
  rfl

/-- The due row of the product that takes effect last. -/
def IsLatest (db : Database) (t : Time) (productId : Id) (r : ProductPriceSchedule) : Prop :=
  (∃ id, scheduleAt db id = some r) ∧ r.isDue t = true ∧ r.productId = productId ∧
    ∀ id r', scheduleAt db id = some r' → r'.isDue t = true → r'.productId = productId →
      r'.effectiveFrom ≤ r.effectiveFrom

def NothingDue (db : Database) (t : Time) (productId : Id) : Prop :=
  ∀ id r, scheduleAt db id = some r → r.isDue t = true → r.productId ≠ productId

def marked (now : Time) (r : ProductPriceSchedule) : ProductPriceSchedule :=
  if r.isDue now then { r with appliedAt := some now } else r

/-- Each product has the price of its latest due row, or the one it had when no row of it
is due; and every due row is applied. -/
structure Swept (t : Time) (db db' : Database) : Prop where
  prices : ∀ productId,
    (∃ r, IsLatest db t productId r ∧
      priceOf db' productId = (priceOf db productId).map fun _ => r.price) ∨
    (NothingDue db t productId ∧ priceOf db' productId = priceOf db productId)
  schedules : ∀ id, scheduleAt db' id = (scheduleAt db id).map (marked t)

theorem pairwise_due (t : Time) (db : Database) : (Query.eval (.due t) db).Pairwise
    fun a b => a.2.effectiveFrom ≤ b.2.effectiveFrom := by
  have htotal : Std.Total fun a b : Id × ProductPriceSchedule =>
      a.2.effectiveFrom ≤ b.2.effectiveFrom := ⟨fun a b => le_total _ _⟩
  have htrans : IsTrans (Id × ProductPriceSchedule) fun a b =>
      a.2.effectiveFrom ≤ b.2.effectiveFrom := ⟨fun a b c => le_trans⟩
  exact List.pairwise_insertionSort _ _

theorem swept_spec (t : Time) (db : Database) : Swept t db (swept t db) := by
  constructor
  · intro productId
    have hproduct : productAt (swept t db) productId = (productAt db productId).map fun p =>
        { p with price := ((lastOf productId (Query.eval (.due t) db)).map
            ProductPriceSchedule.price).getD p.price } := by
      rw [← mapGet_latest]
      refine Eq.trans ?_ (productAt_setPrices (byProduct_latest _) db productId)
      exact touchAll_row_of_ne (by simp [Update.key])
    cases hlast : lastOf productId (Query.eval (.due t) db) with
    | some r =>
        obtain ⟨⟨id, hid⟩, hr, hlatest⟩ := lastOf_spec (pairwise_due t db) hlast
        left
        refine ⟨r, ⟨⟨id, (mem_due.1 hid).1⟩, (mem_due.1 hid).2, hr, ?_⟩, ?_⟩
        · intro id' r' hr' hdue hproduct'
          exact hlatest (id', r') (mem_due.2 ⟨hr', hdue⟩) hproduct'
        · rw [priceOf, hproduct, hlast, priceOf]
          cases productAt db productId <;> rfl
    | none =>
        right
        constructor
        · intro id r hr hdue
          exact lastOf_eq_none.1 hlast (id, r) (mem_due.2 ⟨hr, hdue⟩)
        · rw [priceOf, hproduct, hlast, priceOf]
          cases productAt db productId <;> rfl
  · intro id
    have hkept : scheduleAt (setPrices (latest (Query.eval (.due t) db)) db) id =
        scheduleAt db id := touchAll_row_of_ne (by simp [Update.key])
    rw [swept, scheduleAt_markAll, hkept]
    cases hrow : scheduleAt db id with
    | none => simp
    | some r =>
        have hmem : id ∈ (Query.eval (.due t) db).map Prod.fst ↔ r.isDue t = true := by
          constructor
          · intro h
            obtain ⟨⟨_, r'⟩, hr', rfl⟩ := List.mem_map.1 h
            obtain ⟨hrow', hdue⟩ := mem_due.1 hr'
            cases hrow.symm.trans hrow'
            exact hdue
          · intro hdue
            exact List.mem_map.2 ⟨(id, r), mem_due.2 ⟨hrow, hdue⟩, rfl⟩
        simp only [hmem, marked, Option.map_some]
        split <;> rfl

/-! ## Sweeping at several instants -/

/-- No product has two scheduled prices for one moment. -/
def Distinct (db : Database) : Prop :=
  ∀ a b r r', scheduleAt db a = some r → scheduleAt db b = some r' →
    r.productId = r'.productId → r.effectiveFrom = r'.effectiveFrom → a = b

def IsApplied (db : Database) (id : Id) : Prop :=
  ∃ r, scheduleAt db id = some r ∧ r.appliedAt.isSome = true

structure SamePrices (db db' : Database) : Prop where
  prices : ∀ productId, priceOf db' productId = priceOf db productId
  applied : ∀ id, IsApplied db' id ↔ IsApplied db id

theorem SamePrices.refl (db : Database) : SamePrices db db := ⟨fun _ => rfl, fun _ => Iff.rfl⟩

theorem SamePrices.trans {db'' : Database} (h : SamePrices db db') (h' : SamePrices db' db'') :
    SamePrices db db'' :=
  ⟨fun productId => (h'.prices productId).trans (h.prices productId),
    fun id => (h'.applied id).trans (h.applied id)⟩

theorem marked_fields (now : Time) (r : ProductPriceSchedule) :
    (marked now r).productId = r.productId ∧ (marked now r).price = r.price ∧
      (marked now r).effectiveFrom = r.effectiveFrom := by
  unfold marked
  split <;> exact ⟨rfl, rfl, rfl⟩

theorem marked_isDue (r : ProductPriceSchedule) :
    (marked t r).isDue t' = true ↔ r.isDue t = false ∧ r.isDue t' = true := by
  cases hdue : r.isDue t with
  | true =>
      rw [marked, if_pos hdue]
      simp [ProductPriceSchedule.isDue]
  | false => simp [marked, hdue]

theorem isDue_mono {r : ProductPriceSchedule} (htt' : t ≤ t') (h : r.isDue t = true) :
    r.isDue t' = true := by
  simp only [ProductPriceSchedule.isDue, Bool.and_eq_true, decide_eq_true_eq] at h ⊢
  exact ⟨h.1, h.2.trans htt'⟩

theorem lt_of_not_due {r : ProductPriceSchedule} (h : r.isDue t = false) (h' : r.isDue t' = true) :
    t < r.effectiveFrom := by
  simp only [ProductPriceSchedule.isDue, Bool.and_eq_true, decide_eq_true_eq,
    Bool.and_eq_false_iff, decide_eq_false_iff_not, not_le] at h h'
  exact h.resolve_left (by simp [h'.1])

theorem le_of_due {r : ProductPriceSchedule} (h : r.isDue t = true) : r.effectiveFrom ≤ t := by
  simp only [ProductPriceSchedule.isDue, Bool.and_eq_true, decide_eq_true_eq] at h
  exact h.2

theorem Swept.row (h : Swept t db db') {r : ProductPriceSchedule} (hr : scheduleAt db' x = some r) :
    ∃ r₀, scheduleAt db x = some r₀ ∧ r = marked t r₀ := by
  rw [h.schedules] at hr
  obtain ⟨r₀, hr₀, heq⟩ := Option.map_eq_some_iff.1 hr
  exact ⟨r₀, hr₀, heq.symm⟩

/-- After a sweep the rows due later are those that were not due at it. -/
theorem Swept.due_iff (h : Swept t db db') {r : ProductPriceSchedule} :
    (scheduleAt db' x = some r ∧ r.isDue t' = true) ↔
      scheduleAt db x = some r ∧ r.isDue t = false ∧ r.isDue t' = true := by
  constructor
  · rintro ⟨hr, hdue⟩
    obtain ⟨r₀, hr₀, rfl⟩ := h.row hr
    obtain ⟨hnot, hlater⟩ := marked_isDue r₀ |>.1 hdue
    have hsame : marked t r₀ = r₀ := by simp [marked, hnot]
    rw [hsame]
    exact ⟨hr₀, hnot, hlater⟩
  · rintro ⟨hr, hnot, hlater⟩
    refine ⟨?_, hlater⟩
    rw [h.schedules, hr, Option.map_some]
    simp [marked, hnot]

theorem Swept.applied (h : Swept t db db') :
    IsApplied db' x ↔ IsApplied db x ∨ ∃ r, scheduleAt db x = some r ∧ r.isDue t = true := by
  constructor
  · rintro ⟨r, hr, happlied⟩
    obtain ⟨r₀, hr₀, rfl⟩ := h.row hr
    cases hdue : r₀.isDue t with
    | true => exact .inr ⟨r₀, hr₀, hdue⟩
    | false => exact .inl ⟨r₀, hr₀, by simpa [marked, hdue] using happlied⟩
  · rintro (⟨r, hr, happlied⟩ | ⟨r, hr, hdue⟩)
    · refine ⟨marked t r, by rw [h.schedules, hr, Option.map_some], ?_⟩
      unfold marked
      split
      · exact rfl
      · exact happlied
    · exact ⟨marked t r, by rw [h.schedules, hr, Option.map_some], by simp [marked, hdue]⟩

theorem Swept.distinct (h : Swept t db db') (hdb : Distinct db) : Distinct db' := by
  intro a b r r' hr hr' hproduct heffective
  obtain ⟨r₀, hr₀, rfl⟩ := h.row hr
  obtain ⟨r₁, hr₁, rfl⟩ := h.row hr'
  apply hdb a b r₀ r₁ hr₀ hr₁
  · rw [← (marked_fields t r₀).1, hproduct, (marked_fields t r₁).1]
  · rw [← (marked_fields t r₀).2.2, heffective, (marked_fields t r₁).2.2]

theorem IsLatest.unique (hdb : Distinct db) {r r' : ProductPriceSchedule}
    (h : IsLatest db t productId r) (h' : IsLatest db t productId r') : r = r' := by
  obtain ⟨⟨id, hid⟩, hdue, hproduct, hlatest⟩ := h
  obtain ⟨⟨id', hid'⟩, hdue', hproduct', hlatest'⟩ := h'
  have hsame : id = id' := by
    apply hdb id id' r r' hid hid' (hproduct.trans hproduct'.symm)
    exact le_antisymm (hlatest' id r hid hdue hproduct) (hlatest id' r' hid' hdue' hproduct')
  subst hsame
  exact Option.some.inj (hid.symm.trans hid')

/-- A sweep decides the price: two of them from the same database agree. -/
theorem Swept.price_eq (hdb : Distinct db) (h : Swept t db db') {r : ProductPriceSchedule}
    (hr : IsLatest db t productId r) :
    priceOf db' productId = (priceOf db productId).map fun _ => r.price := by
  rcases h.prices productId with ⟨r', hr', hprice⟩ | ⟨hnone, -⟩
  · rw [hr.unique hdb hr']
    exact hprice
  · obtain ⟨⟨id, hid⟩, hdue, hproduct, -⟩ := hr
    exact (hnone id r hid hdue hproduct).elim

theorem Swept.price_eq_of_none (h : Swept t db db') (hnone : NothingDue db t productId) :
    priceOf db' productId = priceOf db productId := by
  rcases h.prices productId with ⟨r, ⟨⟨id, hid⟩, hdue, hproduct, -⟩, -⟩ | ⟨-, hprice⟩
  · exact (hnone id r hid hdue hproduct).elim
  · exact hprice

/-- A sweep on the way to another one leaves nothing to tell them from that one alone. -/
theorem Swept.skip {db₁ db₂ : Database} (hdb : Distinct db) (htt' : t ≤ t') (h : Swept t db db₁)
    (hafter : Swept t' db₁ db₂) (honce : Swept t' db db') : SamePrices db' db₂ := by
  constructor
  · intro productId
    rcases hafter.prices productId with ⟨r, ⟨⟨id, hid⟩, hdue, hproduct, hlatest⟩, hprice⟩ |
      ⟨hnone, hprice⟩
    · -- a row due after the first sweep takes effect after all that it applied
      obtain ⟨hold, hnot, -⟩ := h.due_iff.1 ⟨hid, hdue⟩
      have hr : IsLatest db t' productId r := by
        refine ⟨⟨id, hold⟩, hdue, hproduct, ?_⟩
        intro id' r' hr' hdue' hproduct'
        cases hfirst : r'.isDue t with
        | true => exact (le_of_due hfirst).trans (lt_of_not_due hnot hdue).le
        | false =>
            have hlater := h.due_iff.2 ⟨hr', hfirst, hdue'⟩
            exact hlatest id' r' hlater.1 hlater.2 hproduct'
      rw [hprice, honce.price_eq hdb hr]
      rcases h.prices productId with ⟨_, -, hfirst⟩ | ⟨-, hfirst⟩
      · rw [hfirst, Option.map_map]
        rfl
      · rw [hfirst]
    · rw [hprice]
      have hfirst : ∀ id r, scheduleAt db id = some r → r.isDue t' = true →
          r.productId = productId → r.isDue t = true := by
        intro id r hr hdue hproduct
        by_contra hnot
        have hlater := h.due_iff.2 ⟨hr, by simpa using hnot, hdue⟩
        exact hnone id r hlater.1 hlater.2 hproduct
      rcases h.prices productId with ⟨r, ⟨hid, hdue, hproduct, hlatest⟩, hearly⟩ | ⟨hearly, hkept⟩
      · have hr : IsLatest db t' productId r := by
          refine ⟨hid, isDue_mono htt' hdue, hproduct, ?_⟩
          intro id' r' hr' hdue' hproduct'
          exact hlatest id' r' hr' (hfirst id' r' hr' hdue' hproduct') hproduct'
        rw [hearly, honce.price_eq hdb hr]
      · have hnothing : NothingDue db t' productId := by
          intro id r hr hdue hproduct
          exact hearly id r hr (hfirst id r hr hdue hproduct) hproduct
        rw [hkept, honce.price_eq_of_none hnothing]
  · intro id
    rw [hafter.applied, h.applied, honce.applied]
    constructor
    · rintro ((happlied | ⟨r, hr, hdue⟩) | ⟨r, hr, hdue⟩)
      · exact .inl happlied
      · exact .inr ⟨r, hr, isDue_mono htt' hdue⟩
      · obtain ⟨hold, -, -⟩ := h.due_iff.1 ⟨hr, hdue⟩
        exact .inr ⟨r, hold, hdue⟩
    · rintro (happlied | ⟨r, hr, hdue⟩)
      · exact .inl (.inl happlied)
      · cases hfirst : r.isDue t with
        | true => exact .inl (.inr ⟨r, hr, hfirst⟩)
        | false =>
            have hlater := h.due_iff.2 ⟨hr, hfirst, hdue⟩
            exact .inr ⟨r, hlater.1, hlater.2⟩

theorem swept_swept (t : Time) (db : Database) : swept t (swept t db) = swept t db := by
  apply swept_of_nothing_due
  intro id r hr
  cases hdue : r.isDue t with
  | false => rfl
  | true =>
      obtain ⟨-, hnot, -⟩ := (swept_spec t db).due_iff.1 ⟨hr, hdue⟩
      exact absurd (hnot.symm.trans hdue) (by simp)

def runAt (answer : Answers catalog) (instants : List Time) (db : Database) : Database :=
  instants.foldl (fun db now => serve answer (handler (.applyDuePrices now)) db) db

theorem runAt_append (instants : List Time) (t : Time) (db : Database) :
    runAt answer (instants ++ [t]) db = swept t (runAt answer instants db) := by
  rw [runAt, List.foldl_append]
  exact serve_applyDuePrices t

theorem samePrices_runAt (hdb : Distinct db) {instants : List Time}
    (hinstants : ∀ now ∈ instants, now ≤ t) :
    SamePrices (swept t db) (swept t (runAt answer instants db)) := by
  induction instants generalizing db with
  | nil => exact .refl _
  | cons now instants ih =>
      rw [List.forall_mem_cons] at hinstants
      have hfirst := swept_spec now db
      have hrest := ih (hfirst.distinct hdb) hinstants.2
      rw [runAt, List.foldl_cons, serve_applyDuePrices]
      exact (hfirst.skip hdb hinstants.1 (swept_spec t _) (swept_spec t db)).trans hrest

/-- The row of the product that took effect last by `t`, applied or not. -/
def IsCurrent (db : Database) (t : Time) (productId : Id) (r : ProductPriceSchedule) : Prop :=
  (∃ id, scheduleAt db id = some r) ∧ r.effectiveFrom ≤ t ∧ r.productId = productId ∧
    ∀ id r', scheduleAt db id = some r' → r'.effectiveFrom ≤ t → r'.productId = productId →
      r'.effectiveFrom ≤ r.effectiveFrom

/-- Prices no one but the sweep has changed by `t`: the applied rows took effect before the
others of their product, and the last of them gave the product its price. Where no row is
applied every price will do. -/
structure Settled (t : Time) (db : Database) : Prop where
  past : ∀ id r, scheduleAt db id = some r → r.appliedAt.isSome = true → r.effectiveFrom ≤ t
  order : ∀ a b r r', scheduleAt db a = some r → scheduleAt db b = some r' →
    r.productId = r'.productId → r.appliedAt.isSome = true → r'.appliedAt = none →
      r.effectiveFrom < r'.effectiveFrom
  price : ∀ id r, scheduleAt db id = some r → r.appliedAt.isSome = true →
    (∀ id' r', scheduleAt db id' = some r' → r'.productId = r.productId →
      r'.appliedAt.isSome = true → r'.effectiveFrom ≤ r.effectiveFrom) →
    priceOf db r.productId = (priceOf db r.productId).map fun _ => r.price

theorem settled_of_unapplied (h : ∀ id r, scheduleAt db id = some r → r.appliedAt = none) :
    Settled t db := by
  constructor
  · intro id r hr happlied
    rw [h id r hr] at happlied
    cases happlied
  · intro a b r r' hr _ _ happlied
    rw [h a r hr] at happlied
    cases happlied
  · intro id r hr happlied
    rw [h id r hr] at happlied
    cases happlied

/-- Where the sweep alone changes prices, the latest row by its instant sets the price. -/
theorem Swept.current (hdb : Distinct db) (hsettled : Settled t db) (h : Swept t db db')
    {r : ProductPriceSchedule} (hr : IsCurrent db t productId r) :
    priceOf db' productId = (priceOf db productId).map fun _ => r.price := by
  obtain ⟨⟨id, hid⟩, htime, hproduct, hlatest⟩ := hr
  cases happlied : r.appliedAt with
  | none =>
      apply h.price_eq hdb
      refine ⟨⟨id, hid⟩, by simp [ProductPriceSchedule.isDue, happlied, htime], hproduct, ?_⟩
      intro id' r' hr' hdue hproduct'
      exact hlatest id' r' hr' (le_of_due hdue) hproduct'
  | some at_ =>
      have hnothing : NothingDue db t productId := by
        intro id' r' hr' hdue hproduct'
        have hpending : r'.appliedAt = none := by
          simp only [ProductPriceSchedule.isDue, Bool.and_eq_true, Option.isNone_iff_eq_none] at hdue
          exact hdue.1
        have hlater := hsettled.order id id' r r' hid hr' (hproduct.trans hproduct'.symm)
          (by simp [happlied]) hpending
        exact absurd (hlatest id' r' hr' (le_of_due hdue) hproduct') (not_le.2 hlater)
      rw [h.price_eq_of_none hnothing]
      subst hproduct
      apply hsettled.price id r hid (by simp [happlied])
      intro id' r' hr' hproduct' happlied'
      exact hlatest id' r' hr' (hsettled.past id' r' hr' happlied') hproduct'

theorem Swept.applied_row (h : Swept t db db') {r : ProductPriceSchedule}
    (hr : scheduleAt db' x = some r) (happlied : r.appliedAt.isSome = true) :
    ∃ r₀, scheduleAt db x = some r₀ ∧ r = marked t r₀ ∧
      (r₀.isDue t = true ∨ r₀.appliedAt.isSome = true) := by
  obtain ⟨r₀, hr₀, rfl⟩ := h.row hr
  refine ⟨r₀, hr₀, rfl, ?_⟩
  cases hdue : r₀.isDue t with
  | true => exact .inl rfl
  | false => exact .inr (by simpa [marked, hdue] using happlied)

theorem Swept.pending_row (h : Swept t db db') {r : ProductPriceSchedule}
    (hr : scheduleAt db' x = some r) (hpending : r.appliedAt = none) :
    scheduleAt db x = some r ∧ t < r.effectiveFrom := by
  obtain ⟨r₀, hr₀, rfl⟩ := h.row hr
  cases hdue : r₀.isDue t with
  | true => simp [marked, hdue] at hpending
  | false =>
      have hsame : marked t r₀ = r₀ := by simp [marked, hdue]
      rw [hsame] at hpending ⊢
      refine ⟨hr₀, not_le.1 fun hle => ?_⟩
      simp [ProductPriceSchedule.isDue, hpending, hle] at hdue

/-- Sweeping keeps prices that no one else has changed. -/
theorem Swept.settled (hdb : Distinct db) (hsettled : Settled t db) (htt' : t ≤ t')
    (h : Swept t' db db') : Settled t' db' := by
  constructor
  · intro id r hr happlied
    obtain ⟨r₀, hr₀, rfl, hdue | hbefore⟩ := h.applied_row hr happlied
    · exact (marked_fields t' r₀).2.2 ▸ le_of_due hdue
    · exact (marked_fields t' r₀).2.2 ▸ (hsettled.past id r₀ hr₀ hbefore).trans htt'
  · intro a b r r' hr hr' hproduct happlied hpending
    obtain ⟨hr₁, hlater⟩ := h.pending_row hr' hpending
    obtain ⟨r₀, hr₀, rfl, hdue | hbefore⟩ := h.applied_row hr happlied
    · exact (marked_fields t' r₀).2.2 ▸ (le_of_due hdue).trans_lt hlater
    · rw [(marked_fields t' r₀).1] at hproduct
      exact (marked_fields t' r₀).2.2 ▸ hsettled.order a b r₀ r' hr₀ hr₁ hproduct hbefore hpending
  · intro id r hr happlied hlatest
    obtain ⟨r₀, hr₀, rfl, hcause⟩ := h.applied_row hr happlied
    obtain ⟨hproduct, hprice, heffective⟩ := marked_fields t' r₀
    rw [hproduct, hprice]
    rw [hproduct, heffective] at hlatest
    rcases h.prices r₀.productId with ⟨r₁, hlast, hnew⟩ | ⟨hnone, hkept⟩
    · -- the row applied last is the one just applied
      have hsame : r₀ = r₁ := by
        obtain ⟨⟨id₁, hid₁⟩, hdue₁, hproduct₁, hlatest₁⟩ := hlast
        have hle : r₁.effectiveFrom ≤ r₀.effectiveFrom := by
          have hr₁ : scheduleAt db' id₁ = some (marked t' r₁) := by
            rw [h.schedules, hid₁, Option.map_some]
          have hmarked := marked_fields t' r₁
          have hmem := hlatest id₁ _ hr₁ (hmarked.1.trans hproduct₁) (by simp [marked, hdue₁])
          exact hmarked.2.2 ▸ hmem
        rcases hcause with hdue | hbefore
        · have hid : id = id₁ := by
            apply hdb id id₁ r₀ r₁ hr₀ hid₁ hproduct₁.symm
            exact le_antisymm (hlatest₁ id r₀ hr₀ hdue rfl) hle
          subst hid
          exact Option.some.inj (hr₀.symm.trans hid₁)
        · have hpending : r₁.appliedAt = none := by
            simp only [ProductPriceSchedule.isDue, Bool.and_eq_true,
              Option.isNone_iff_eq_none] at hdue₁
            exact hdue₁.1
          have hlt := hsettled.order id id₁ r₀ r₁ hr₀ hid₁ hproduct₁.symm hbefore hpending
          exact absurd hle (not_le.2 hlt)
      rw [hnew, hsame, Option.map_map]
      rfl
    · rw [hkept]
      rcases hcause with hdue | hbefore
      · exact (hnone id r₀ hr₀ hdue rfl).elim
      · apply hsettled.price id r₀ hr₀ hbefore
        intro id' r' hr' hproduct' happlied'
        have hmarked := marked_fields t' r'
        have hr'' : scheduleAt db' id' = some (marked t' r') := by
          rw [h.schedules, hr', Option.map_some]
        have hstill : (marked t' r').appliedAt.isSome = true := by
          unfold marked
          split
          · exact rfl
          · exact happlied'
        have hmem := hlatest id' _ hr'' (hmarked.1.trans hproduct') hstill
        exact hmarked.2.2 ▸ hmem

/-- Whenever the sweep runs, running it once at the last instant gives the same prices and
the same applied rows: those of the latest rows by then. Running it again changes nothing. -/
theorem prices_follow_schedule (answer : Answers catalog) (hdb : Distinct db)
    (instants : List Time) (last : Time) (hordered : (instants ++ [last]).Pairwise (· ≤ ·)) :
    SamePrices (runAt answer [last] db) (runAt answer (instants ++ [last]) db) ∧
      (∀ productId, (∀ id r, scheduleAt db id = some r → r.productId = productId →
          last < r.effectiveFrom) →
        priceOf (runAt answer (instants ++ [last]) db) productId = priceOf db productId) ∧
      (Settled last db → ∀ productId r, IsCurrent db last productId r →
        priceOf (runAt answer (instants ++ [last]) db) productId =
          (priceOf db productId).map fun _ => r.price) ∧
      serve answer (handler (.applyDuePrices last)) (runAt answer (instants ++ [last]) db) =
        runAt answer (instants ++ [last]) db := by
  have honce : runAt answer [last] db = swept last db := serve_applyDuePrices last
  have hlast : ∀ now ∈ instants, now ≤ last := by
    intro now hnow
    exact (List.pairwise_append.1 hordered).2.2 now hnow last (List.mem_singleton_self last)
  have hsame := @samePrices_runAt answer _ _ hdb _ hlast
  rw [honce, runAt_append, serve_applyDuePrices]
  refine ⟨hsame, ?_, ?_, swept_swept last _⟩
  · intro productId hnone
    rw [hsame.prices]
    apply (swept_spec last db).price_eq_of_none
    intro id r hr hdue hproduct
    exact absurd (le_of_due hdue) (not_le.2 (hnone id r hr hproduct))
  · intro hsettled productId r hr
    rw [hsame.prices]
    exact (swept_spec last db).current hdb hsettled hr

/-! ### A product with two scheduled prices -/

def scheduled : Database :=
  ((((Store.empty : Database).set (.product 1) (some ⟨1, 500⟩)).set (.schedule 1)
    (some ⟨1, 1, 600, 10, none⟩)).set (.schedule 2) (some ⟨1, 1, 700, 20, none⟩))

theorem scheduleAt_scheduled {r : ProductPriceSchedule} (h : scheduleAt scheduled x = some r) :
    (x = 1 ∧ r = ⟨1, 1, 600, 10, none⟩) ∨ (x = 2 ∧ r = ⟨1, 1, 700, 20, none⟩) := by
  rw [scheduled, scheduleAt_set, scheduleAt_set] at h
  split at h
  · next hx =>
      cases h
      exact .inr ⟨hx, rfl⟩
  split at h
  · next hx =>
      cases h
      exact .inl ⟨hx, rfl⟩
  · cases h

theorem distinct_scheduled : Distinct scheduled := by
  intro a b r r' hr hr' _ heffective
  rcases scheduleAt_scheduled hr with ⟨rfl, rfl⟩ | ⟨rfl, rfl⟩ <;>
    rcases scheduleAt_scheduled hr' with ⟨rfl, rfl⟩ | ⟨rfl, rfl⟩ <;>
    first | rfl | cases heffective

theorem settled_scheduled : Settled 30 scheduled := by
  apply settled_of_unapplied
  intro id r hr
  rcases scheduleAt_scheduled hr with ⟨-, rfl⟩ | ⟨-, rfl⟩ <;> rfl

theorem prices_follow_schedule_thrice :
    priceOf (runAt (naming 0) [12, 25, 30] scheduled) 1 = some 700 ∧
      SamePrices (runAt (naming 0) [30] scheduled) (runAt (naming 0) [12, 25, 30] scheduled) := by
  have hrun := prices_follow_schedule (naming 0) distinct_scheduled [12, 25] 30 (by decide)
  refine ⟨(hrun.2.2.1 settled_scheduled 1 ⟨1, 1, 700, 20, none⟩ ?_).trans rfl, hrun.1⟩
  refine ⟨⟨2, rfl⟩, by decide, rfl, ?_⟩
  intro id r hr _ _
  rcases scheduleAt_scheduled hr with ⟨-, rfl⟩ | ⟨-, rfl⟩ <;> decide

/-! ## Scheduling -/

theorem Distinct.insert (hdb : Distinct db) {id : Id} {row : ProductPriceSchedule}
    (hfree : ∀ x r, scheduleAt db x = some r → r.productId = row.productId →
      r.effectiveFrom ≠ row.effectiveFrom) : Distinct (db.set (.schedule id) (some row)) := by
  intro a b r r' hr hr' hproduct heffective
  rw [scheduleAt_set] at hr hr'
  split at hr
  · next ha =>
      cases hr
      split at hr'
      · next hb => exact ha.trans hb.symm
      · exact (hfree b r' hr' hproduct.symm heffective.symm).elim
  · split at hr'
    · cases hr'
      exact (hfree a r hr hproduct heffective).elim
    · exact hdb a b r r' hr hr' hproduct heffective

theorem Distinct.delete (hdb : Distinct db) (id : Id) : Distinct (db.set (.schedule id) none) := by
  intro a b r r' hr hr'
  rw [scheduleAt_set] at hr hr'
  split at hr
  · cases hr
  split at hr'
  · cases hr'
  exact hdb a b r r' hr hr'

theorem Distinct.addSchedule (hdb : Distinct db) (tenantId productId : Id) (price : Cents)
    (effectiveFrom : Time) :
    Distinct (serve answer (handler (.addSchedule tenantId productId price effectiveFrom)) db) := by
  suffices hends : EndsWith answer (handler (.addSchedule tenantId productId price effectiveFrom)) 0
      (.start db) fun _ _ σ => Distinct σ.view from hends
  refine ends_ask (ends_check (fun _ => hdb) fun _ => ends_invoke (ends_check (fun _ => hdb) fun _ => ?_))
  refine ends_ask (ends_check (fun _ => hdb) fun hfree => ends_invoke ?_)
  apply ends_insertOne
  · intro _
    apply hdb.insert
    intro x r hr hproduct heffective
    have hmem : (x, r) ∈ schedulesWhere db fun row =>
        row.productId == productId && row.effectiveFrom == effectiveFrom :=
      mem_schedulesWhere.2 ⟨hr, by simp [hproduct, heffective]⟩
    have hnone : (schedulesWhere db fun row =>
        row.productId == productId && row.effectiveFrom == effectiveFrom) = [] := by
      simpa [Query.eval] using hfree
    rw [hnone] at hmem
    cases hmem
  · exact fun _ => hdb

theorem Distinct.removeSchedule (hdb : Distinct db) (tenantId productId id : Id) :
    Distinct (serve answer (handler (.removeSchedule tenantId productId id)) db) := by
  suffices hends : EndsWith answer (handler (.removeSchedule tenantId productId id)) 0
      (.start db) fun _ _ σ => Distinct σ.view from hends
  refine ends_ask (ends_demand (fun _ => hdb) fun row _ => ends_check (fun _ => hdb) fun _ => ?_)
  apply ends_updateOne
  · exact fun _ => hdb.delete id
  · exact fun _ => hdb

/-- Whatever is scheduled, taken back and swept, no product has two prices for a moment. -/
theorem distinct_of_serial (hdb : Distinct db) (h : Serial handler (fun _ _ => True) db db') :
    Distinct db' := by
  apply h.induct hdb
  intro db answer r hdb _
  cases r with
  | addSchedule tenantId productId price effectiveFrom => exact hdb.addSchedule tenantId productId price effectiveFrom
  | removeSchedule tenantId productId id => exact hdb.removeSchedule tenantId productId id
  | applyDuePrices now =>
      rw [serve_applyDuePrices]
      exact (swept_spec now db).distinct hdb

end WhatStore.Catalog
