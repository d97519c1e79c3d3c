import WhatStore.Protocol.Payments

/-!
# Stock, the sweep and the settings keep to the protocol
-/

namespace WhatStore

open ReadCommitted ReadCommitted.Prog

variable {α : Type} {r : Request} {h : List Ev} {Q : α → List Ev → Prop}

/-! ## Which updates a piece of a transaction issues -/

theorem within_updateOne {A : Update → Prop} {u : Update} (hu : A u) :
    (updateOne u).Within (S := shop) A := fun h hit => by
  cases hit <;> exact ⟨hu, trivial⟩

theorem within_insertOne {A : Update → Prop} {u : Update} (hu : A u) :
    (insertOne u).Within (S := shop) A := fun h hit => by
  cases hit <;> exact ⟨hu, trivial⟩

theorem within_bind {A : Update → Prop} {β γ : Type} {p : Prog shop β} {f : β → Prog shop γ}
    (hp : p.Within (S := shop) A) (hf : ∀ b, (f b).Within (S := shop) A) :
    (p >>= f).Within (S := shop) A :=
  fun h => along_seq.2 ((hp h).mono fun b h' _ => hf b h')

theorem within_each {A : Update → Prop} {β : Type} {body : β → Prog shop Unit} {as : List β}
    (hbody : ∀ a, (body a).Within (S := shop) A) : (each body as).Within (S := shop) A := by
  intro h
  exact along_each (I := fun _ _ => True) trivial fun a _ h _ => hbody a h

theorem within_throwIf {A : Update → Prop} {c : Bool} {e : Err} :
    (throwIf c e : Prog shop Unit).Within (S := shop) A :=
  fun _ => along_throwIf.2 ⟨fun _ => trivial, fun _ => trivial⟩

theorem within_orThrow {A : Update → Prop} {β : Type} {o : Option β} {e : Err} :
    (orThrow o e : Prog shop β).Within (S := shop) A :=
  fun _ => along_orThrow.2 ⟨fun _ => trivial, fun _ _ => trivial⟩

theorem within_runIf {A : Update → Prop} {c : Bool} {p : Prog shop Unit}
    (hp : p.Within (S := shop) A) : (runIf c p).Within (S := shop) A :=
  fun h => along_runIf.2 ⟨fun _ => hp h, fun _ => trivial⟩

theorem within_query {A : Update → Prop} {q : Query} :
    (Prog.query q .ret : Prog shop q.Result).Within (S := shop) A := fun _ _ => ⟨trivial, trivial⟩

theorem within_call {A : Update → Prop} {c : Call} :
    (Prog.call c .ret : Prog shop c.Answer).Within (S := shop) A := fun _ _ => ⟨trivial, trivial⟩

theorem within_updateMany {A : Update → Prop} {u : Update} (hu : A u) :
    (updateMany u).Within (S := shop) A := fun h hit => by
  cases hit <;> exact ⟨hu, trivial⟩

theorem within_ret {A : Update → Prop} {β : Type} {b : β} :
    (.ret b : Prog shop β).Within (S := shop) A := fun _ => trivial

/-! ## Stock -/

def Update.isTake : Update → Prop
  | .take _ _ => True
  | _ => False

def Update.isGive : Update → Prop
  | .give _ _ => True
  | _ => False

theorem within_reserveStock (lines : List PricedLine) :
    (reserveStock lines).Within (S := shop) Update.isTake :=
  within_each fun _ => within_bind (within_updateMany trivial) fun _ => within_throwIf

theorem within_releaseStock (items : List ReleasedItem) :
    (releaseStock items).Within (S := shop) Update.isGive := by
  refine within_each fun item => ?_
  split
  · exact within_bind (within_updateMany trivial) fun _ => within_ret
  · exact within_ret

theorem lawful_reserveStock {lines : List PricedLine}
    (hr : (∃ t dto, r = .create t dto) ∨ ∃ t id dto, r = .updateDetails t id dto)
    (hpos : ∀ l ∈ lines, 0 ≤ l.quantity) :
    (reserveStock lines).Along (Lawful r) h fun _ _ => True := by
  refine lawful_each fun l hl h' _ => ?_
  refine (lawful_permissive r).write ⟨hr, hpos l hl⟩ fun _ => ?_
  exact along_throwIf.2 ⟨fun _ => trivial, fun _ => trivial⟩

theorem lawful_releaseStock {items : List ReleasedItem}
    (hpos : PositiveLines h → ∀ i ∈ items, 0 ≤ i.quantity) :
    (releaseStock items).Along (Lawful r) h fun _ _ => True := by
  refine lawful_each fun i hi h' hh => ?_
  split
  · refine (lawful_permissive r).write (fun hlines => ?_) fun _ => trivial
    exact hpos (fun id x hx => hlines id x (Saw.mono hx hh)) i hi
  · exact trivial

theorem lawful_releaseCoupon {o : Order}
    (hr : (∃ t id c, r = .updateStatus t id .cancelled c) ∨ r = .sweep) :
    (releaseCoupon o).Along (Lawful r) h fun _ _ => True := by
  unfold releaseCoupon
  split
  · exact (lawful_permissive r).write hr fun _ => trivial
  · exact trivial

theorem released_nonneg {items : List (Id × OrderItem)}
    (hitems : ∀ i ∈ items, Saw (S := shop) (.item i.1) (some i.2) h) (hlines : PositiveLines h) :
    ∀ i ∈ items.map fun i => i.2.released, 0 ≤ i.quantity := by
  intro i hi
  obtain ⟨x, hx, rfl⟩ := List.mem_map.1 hi
  exact le_trans (by decide) (hlines _ _ (hitems x hx))

/-! ## The sweep -/

theorem lawful_expireOrder (t id : Id) (hopen : openTx (S := shop) h = []) :
    (expireOrder t id).Along (Lawful .sweep) h fun _ h' => openTx (S := shop) h' = [] := by
  refine (lawful_permissive _).write rfl fun claimed => ?_
  refine Permissive.skipIf (fun hclaimed => ?_) fun _ _ => ⟨trivial, rfl⟩
  subst hclaimed
  refine (lawful_permissive _).ask fun s => (lawful_permissive _).demand fun x hx => ?_
  have hitems : ∀ i ∈ x.2, Saw (S := shop) (.item i.1) (some i.2) _ := fun i hi =>
    (itemSaw_orderWithItems (h := .update (.sweepCancel id) true :: h) hx hi
      (by simp [locks, hopen])).2
  refine Permissive.skip (lawful_getTenant t) fun tenant h₁ hh₁ => ?_
  refine Permissive.skipIf (fun _ => ?_) fun _ _ => lawful_releaseCoupon (.inr rfl)
  exact lawful_releaseStock
    (released_nonneg fun i hi => Saw.mono (hitems i hi) hh₁)

theorem sweep_follows : sweep.Follows (Lawful .sweep) := by
  refine (lawful_permissive _).invoke fun time => (lawful_permissive _).ask fun s => ?_
  refine Permissive.finish trivial ?_
  refine (along_each (I := fun _ h' => openTx (S := shop) h' = []) rfl
    fun x _ h' hopen => ?_).mono fun _ _ _ => trivial
  refine along_seq.2 (Permissive.attempt ?_ fun _ => ⟨trivial, rfl⟩)
  exact (lawful_expireOrder x.2 x.1 hopen).mono fun _ _ hh => hh

/-! ## Settings -/

theorem lawful_tenantEdit (t : Id) (dto : UpdateTenant) :
    (tenantEdit t dto).Along (Lawful r) h fun _ _ => True := by
  unfold tenantEdit
  split
  · exact trivial
  refine Permissive.skip (lawful_getTenant t) fun current _ _ => ?_
  refine Permissive.skipIf (fun _ => ?_) fun _ _ => ?_
  · refine (lawful_permissive r).ask fun _ => ?_
    exact along_throwIf.2 ⟨fun _ => trivial, fun _ => trivial⟩
  · split
    · exact (lawful_permissive r).check fun _ => trivial
    · exact trivial

theorem updateTenant_follows (t : Id) (dto : UpdateTenant) :
    (updateTenant t dto).Follows (Lawful (.updateTenant t dto)) := by
  refine (lawful_permissive _).ask fun s => ?_
  refine Permissive.skip (lawful_tenantEdit t dto) fun edit _ _ => ?_
  refine (lawful_updateOne_last ?_).mono fun _ _ _ => trivial
  exact ⟨dto, rfl⟩

theorem lawful_removeVariant (hr : r.dropsVariants) (id : Id) :
    (removeVariant id).Along (Lawful r) h fun _ _ => True := by
  refine (lawful_permissive r).write hr fun _ => ?_
  refine (lawful_permissive r).ask fun s => lawful_each fun i _ h' _ => ?_
  exact (lawful_permissive r).write hr fun _ => trivial

theorem lawful_replaceVariants {t p id : Id} {dto : UpdateProduct} (variants : List VariantInput) :
    (replaceVariants t p variants).Along (Lawful (.updateProduct t id dto)) h fun _ _ => True := by
  refine (lawful_permissive _).ask fun s => ?_
  refine Permissive.skip (lawful_each fun v _ h' _ => ?_) fun _ _ _ =>
    lawful_each fun v _ h' _ => ?_
  · exact lawful_removeVariant (.inl ⟨t, id, dto, rfl⟩) v
  · refine (lawful_permissive _).invoke fun vid => lawful_insertOne_last ?_
    exact ⟨⟨t, id, dto, rfl⟩, v.quantity_nonneg⟩

theorem updateProduct_follows (t id : Id) (dto : UpdateProduct) :
    (updateProduct t id dto).Follows (Lawful (.updateProduct t id dto)) := by
  refine (lawful_permissive _).ask fun s => (lawful_permissive _).demand fun x _ => ?_
  have hlast : ∀ h', (updateOne (.editProduct id
      { name := dto.name, price := dto.price, quantity := dto.quantity, isActive := dto.isActive
        isPublished := dto.isPublished
        hasVariants := dto.variants.map fun variants => !variants.isEmpty })).Along
      (Lawful (.updateProduct t id dto)) h' fun _ _ => True :=
    fun h' => lawful_updateOne_last ⟨t, dto, rfl, rfl⟩
  refine Permissive.skipIf (fun _ => ?_) fun _ _ => ?_
  · refine (lawful_permissive _).invoke fun _ => ?_
    exact along_throwIf.2 ⟨fun _ => trivial, fun _ => trivial⟩
  · split
    · exact Permissive.skip (lawful_replaceVariants _) fun _ h' _ => hlast h'
    · exact hlast _

end WhatStore
