import WhatStore.Catalog.Rules
import Mathlib.Data.Finset.Card
import Mathlib.Data.Finset.Dedup

/-!
# The covers of products

A product is to have at most one cover, and a request for a product is to change no image
of another one. Images are added, removed and reordered inside their product. The new cover
is looked up by its id alone: when it is an image of another product, that product gets a
second cover and its images change.
-/

namespace WhatStore.Catalog

open ReadCommitted ReadCommitted.Prog ProductsService

variable {answer : Answers catalog} {db db' : Database} {tenantId productId imageId x : Id}

/-! ## Images -/

def imageAt (db : Database) (id : Id) : Option ProductImage := db.row (.image id)

def IsCover (db : Database) (productId id : Id) : Prop :=
  ∃ i : ProductImage, imageAt db id = some i ∧ i.productId = productId ∧ i.isCover = true

def OneCover (db : Database) : Prop :=
  ∀ productId a b, IsCover db productId a → IsCover db productId b → a = b

def HasProduct (db : Database) (tenantId productId : Id) : Prop :=
  ∃ p : Product, db.row (.product productId) = some p ∧ p.tenantId = tenantId

/-- An image belongs to the store of its product. -/
def Owned (db : Database) : Prop :=
  ∀ id i, imageAt db id = some i → HasProduct db i.tenantId i.productId

structure WellKept (db : Database) : Prop where
  owned : Owned db
  oneCover : OneCover db

/-- Nothing changes but rows of images of the product. -/
structure ChangesOnly (productId : Id) (db db' : Database) : Prop where
  others : ∀ k, (∀ id, k ≠ .image id) → db'.row k = db.row k
  before : ∀ id i, imageAt db' id ≠ imageAt db id → imageAt db id = some i → i.productId = productId
  after : ∀ id i, imageAt db' id ≠ imageAt db id → imageAt db' id = some i → i.productId = productId

theorem ChangesOnly.refl (productId : Id) (db : Database) : ChangesOnly productId db db :=
  ⟨fun _ _ => rfl, fun _ _ h => (h rfl).elim, fun _ _ h => (h rfl).elim⟩

theorem ChangesOnly.trans {db'' : Database} (h : ChangesOnly productId db db')
    (h' : ChangesOnly productId db' db'') : ChangesOnly productId db db'' := by
  constructor
  · intro k hk
    exact (h'.others k hk).trans (h.others k hk)
  · intro id i hchanged hi
    by_cases hsame : imageAt db' id = imageAt db id
    · exact h'.before id i (hsame ▸ hchanged) (hsame.trans hi)
    · exact h.before id i hsame hi
  · intro id i hchanged hi
    by_cases hsame : imageAt db'' id = imageAt db' id
    · exact h.after id i (hsame ▸ hchanged) (hsame.symm.trans hi)
    · exact h'.after id i hsame hi

theorem image_ne {id : Id} (h : x ≠ id) : Key.image x ≠ Key.image id := by simpa using h

theorem product_ne_image (k id : Id) : Key.product k ≠ .image id := nofun

theorem imageAt_set (db : Database) (id x : Id) (v : Option ProductImage) :
    imageAt (db.set (.image id) v) x = if x = id then v else imageAt db x := by
  by_cases hx : x = id
  · subst hx
    rw [if_pos rfl]
    exact Store.set_row_self ..
  · rw [if_neg hx]
    exact Store.set_row_of_ne (k := .image id) db v (image_ne hx)

theorem changesOnly_set {id : Id} {v : Option ProductImage}
    (hbefore : ∀ i, imageAt db id = some i → i.productId = productId)
    (hafter : ∀ i, v = some i → i.productId = productId) :
    ChangesOnly productId db (db.set (.image id) v) := by
  have hchanged : ∀ x, imageAt (db.set (.image id) v) x ≠ imageAt db x → x = id := by
    intro x h
    by_contra hx
    rw [imageAt_set, if_neg hx] at h
    exact h rfl
  constructor
  · intro k hk
    exact Store.set_row_of_ne db v (hk id)
  · intro x i hx hi
    cases hchanged x hx
    exact hbefore i hi
  · intro x i hx hi
    cases hchanged x hx
    rw [imageAt_set, if_pos rfl] at hi
    exact hafter i hi

theorem ChangesOnly.isCover (h : ChangesOnly productId db db') {q : Id} (hq : q ≠ productId)
    (hx : IsCover db' q x) : IsCover db q x := by
  obtain ⟨i, hi, hiq, hcover⟩ := hx
  by_cases hsame : imageAt db' x = imageAt db x
  · exact ⟨i, hsame.symm.trans hi, hiq, hcover⟩
  · exact (hq (hiq.symm.trans (h.after x i hsame hi))).elim

/-- Every image is where one was with the same owners, or new in a product of the store. -/
def OwnersKept (db db' : Database) : Prop :=
  ∀ id i, imageAt db' id = some i → HasProduct db i.tenantId i.productId ∨
    ∃ j, imageAt db id = some j ∧ j.tenantId = i.tenantId ∧ j.productId = i.productId

theorem ChangesOnly.wellKept (h : ChangesOnly productId db db') (hdb : WellKept db)
    (howners : OwnersKept db db')
    (hone : ∀ a b, IsCover db' productId a → IsCover db' productId b → a = b) :
    WellKept db' := by
  constructor
  · intro id i hi
    rw [HasProduct, h.others _ (product_ne_image _)]
    rcases howners id i hi with hnew | ⟨j, hj, htenant, hproduct⟩
    · exact hnew
    · exact htenant ▸ hproduct ▸ hdb.owned id j hj
  · intro q a b ha hb
    by_cases hq : q = productId
    · subst hq
      exact hone a b ha hb
    · exact hdb.oneCover q a b (h.isCover hq ha) (h.isCover hq hb)

/-! ## Statements -/

variable {n : ℕ} {σ : Session catalog}

theorem mem_imagesWhere {q : ProductImage → Bool} {i : ProductImage} :
    (x, i) ∈ imagesWhere db q ↔ imageAt db x = some i ∧ q i = true := by
  constructor
  · intro h
    obtain ⟨k, -, hk⟩ := List.mem_filterMap.1 h
    cases k with
    | image id' =>
        obtain ⟨i', hi', heq⟩ := Option.map_eq_some_iff.1 hk
        cases heq
        simpa [Option.filter_eq_some_iff, imageAt] using hi'
    | template _ => cases hk
    | product _ => cases hk
    | schedule _ => cases hk
  · rintro ⟨hi, hq⟩
    apply List.mem_filterMap.2
    refine ⟨.image x, db.mem_keys_of_row hi, ?_⟩
    have hrow : db.row (.image x) = some i := hi
    simp [hrow, hq]

def cleared (tenantId productId : Id) (i : ProductImage) : ProductImage :=
  if i.tenantId = tenantId ∧ i.productId = productId then { i with isCover := false } else i

def clear (tenantId productId : Id) (db : Database) : Database :=
  touchAll (fun image : Id × ProductImage => .setCover tenantId image.1 false)
    (Query.eval (.images tenantId productId) db) db

theorem imageAt_setCover (tenantId id : Id) (isCover : Bool) (db : Database) (x : Id) :
    imageAt (touch (.setCover tenantId id isCover) db) x =
      if x = id then (imageAt db x).map fun i =>
        if i.tenantId = tenantId then { i with isCover } else i
      else imageAt db x := by
  by_cases hx : x = id
  · subst hx
    cases hrow : db.row (.image x) with
    | none => simp [imageAt, touch, Update.guard, Update.key, hrow]
    | some i =>
        by_cases htenant : i.tenantId = tenantId
        · rw [touch_hit (by simp [Update.guard, Update.key, hrow, htenant])]
          refine (applyUpdate_row_self (S := catalog) _ _).trans ?_
          simp [Update.change, Update.key, imageAt, hrow, htenant]
        · rw [touch_miss (by simp [Update.guard, Update.key, hrow, htenant])]
          simp [imageAt, hrow, htenant]
  · simp only [hx, if_false]
    exact touch_row_of_ne (image_ne hx)

theorem imageAt_setCovers (tenantId : Id) (images : List (Id × ProductImage)) (db : Database)
    (x : Id) :
    imageAt (touchAll (fun image : Id × ProductImage => .setCover tenantId image.1 false) images db) x =
      if x ∈ images.map Prod.fst then (imageAt db x).map fun i =>
        if i.tenantId = tenantId then { i with isCover := false } else i
      else imageAt db x := by
  induction images generalizing db with
  | nil => simp [touchAll]
  | cons image images ih =>
      refine (ih (touch (.setCover tenantId image.1 false) db)).trans ?_
      rw [imageAt_setCover]
      by_cases hx : x = image.1
      · cases hi : imageAt db x with
        | none => simp [hx]
        | some i =>
            by_cases htenant : i.tenantId = tenantId <;> simp [hx, htenant]
      · simp only [hx, if_false, List.map_cons, List.mem_cons, false_or]

theorem imageAt_clear (tenantId productId : Id) (db : Database) (x : Id) :
    imageAt (clear tenantId productId db) x =
      (imageAt db x).map (cleared tenantId productId) := by
  rw [clear, imageAt_setCovers]
  cases hi : imageAt db x with
  | none => simp
  | some i =>
      have hmem : x ∈ (Query.eval (.images tenantId productId) db).map Prod.fst ↔
          i.tenantId = tenantId ∧ i.productId = productId := by
        constructor
        · intro h
          obtain ⟨⟨_, j⟩, hj, rfl⟩ := List.mem_map.1 h
          obtain ⟨hrow, hown⟩ := mem_imagesWhere.1 hj
          cases hi.symm.trans hrow
          simpa using hown
        · intro hown
          exact List.mem_map.2 ⟨(x, i), mem_imagesWhere.2 ⟨hi, by simp [hown]⟩, rfl⟩
      simp only [hmem, cleared, Option.map_some]
      split
      · next hown => simp [hown.1]
      · exact rfl

theorem clear_row_of_others {k : Key} (hk : ∀ id, k ≠ .image id) :
    (clear tenantId productId db).row k = db.row k :=
  touchAll_row_of_ne fun image _ => hk image.1

theorem cleared_productId (i : ProductImage) :
    (cleared tenantId productId i).productId = i.productId := by
  unfold cleared
  split <;> rfl

theorem cleared_tenantId (i : ProductImage) :
    (cleared tenantId productId i).tenantId = i.tenantId := by
  unfold cleared
  split <;> rfl

theorem cleared_of_ne {i : ProductImage} (h : i.productId ≠ productId) :
    cleared tenantId productId i = i :=
  if_neg fun hown => h hown.2

theorem clear_changesOnly (tenantId productId : Id) (db : Database) :
    ChangesOnly productId db (clear tenantId productId db) := by
  have hkept : ∀ id i, imageAt (clear tenantId productId db) id ≠ imageAt db id →
      imageAt db id = some i → i.productId = productId := by
    intro id i hchanged hi
    by_contra hother
    apply hchanged
    rw [imageAt_clear, hi, Option.map_some, cleared_of_ne hother]
  constructor
  · intro k hk
    exact clear_row_of_others hk
  · exact hkept
  · intro id j hchanged hj
    rw [imageAt_clear] at hj
    obtain ⟨i, hi, rfl⟩ := Option.map_eq_some_iff.1 hj
    rw [cleared_productId]
    exact hkept id i hchanged hi

theorem setCover_hits {isCover : Bool} :
    catalog.guard (.setCover tenantId imageId isCover)
      ((clear tenantId productId db).row (.image imageId)) = true ↔
        ∃ i, imageAt db imageId = some i ∧ i.tenantId = tenantId := by
  have hrow : (clear tenantId productId db).row (.image imageId) =
      (imageAt db imageId).map (cleared tenantId productId) := imageAt_clear _ _ db _
  rw [hrow]
  cases imageAt db imageId with
  | none => simp [Update.guard]
  | some i => simp [Update.guard, cleared_tenantId]

theorem not_isCover_clear (hdb : Owned db) {p : Product} (hp : db.row (.product productId) = some p)
    (htenant : p.tenantId = tenantId) : ¬ IsCover (clear tenantId productId db) productId x := by
  rintro ⟨j, hj, hproduct, hcover⟩
  rw [imageAt_clear] at hj
  obtain ⟨i, hi, rfl⟩ := Option.map_eq_some_iff.1 hj
  rw [cleared_productId] at hproduct
  obtain ⟨p', hp', howner⟩ := hdb x i hi
  rw [hproduct] at hp'
  cases hp.symm.trans hp'
  rw [cleared, if_pos ⟨howner.symm.trans htenant, hproduct⟩] at hcover
  cases hcover

/-! ## Requests -/

theorem ends_assertSafeImageUrl (tenantId : Id) (url field : String) :
    EndsWith answer (assertSafeImageUrl tenantId url field) n (.start db) fun _ _ σ' =>
      σ' = .start db := by
  unfold assertSafeImageUrl
  split
  · exact rfl
  split
  · apply ends_throwIf
    · exact fun _ => rfl
    · exact fun _ => rfl
  · apply ends_invoke
    apply ends_throwIf
    · exact fun _ => rfl
    · exact fun _ => rfl

theorem ends_findOne {α : Type} {f : Product → Prog catalog α}
    {R : Except Err α → ℕ → Session catalog → Prop}
    (hk : ∀ p : Product, σ.view.row (.product productId) = some p → p.tenantId = tenantId →
      EndsWith answer (f p) n σ R)
    (herror : ¬ HasProduct σ.view tenantId productId →
      R (.error (.notFound "Product not found")) n σ.rollback) :
    EndsWith answer (findOne tenantId productId >>= f) n σ R := by
  change EndsWith answer (orThrow (Query.eval (.product tenantId productId) σ.view)
    (.notFound "Product not found") >>= f) n σ R
  apply ends_demand
  · intro hnone
    apply herror
    rintro ⟨p, hp, htenant⟩
    simp [Query.eval, hp, htenant] at hnone
  · intro p hp
    obtain ⟨hrow, htenant⟩ := Option.filter_eq_some_iff.1 hp
    exact hk p hrow (by simpa using htenant)

/-- A new image joins the product, as its only cover or as no cover. -/
def Added (tenantId productId : Id) (dto : AddProductImageDto) (db db' : Database) : Prop :=
  HasProduct db tenantId productId ∧ ∃ (id : Id) (i : ProductImage), imageAt db id = none ∧
    i.tenantId = tenantId ∧ i.productId = productId ∧ i.isCover = dto.isCover.getD false ∧
    db' = ((if dto.isCover.getD false then clear tenantId productId db else db).set
      (.image id) (some i))

theorem addImage_serves (dto : AddProductImageDto) :
    serve answer (addImage tenantId productId dto) db = db ∨
      Added tenantId productId dto db (serve answer (addImage tenantId productId dto) db) := by
  suffices hends : EndsWith answer (addImage tenantId productId dto) 0 (.start db) fun _ _ σ =>
      σ.view = db ∨ Added tenantId productId dto db σ.view from hends
  apply Ends.seq (ends_assertSafeImageUrl tenantId dto.url "url")
  · rintro _ n _ rfl
    apply ends_findOne
    · intro p hp htenant
      have hcleared : EndsWith answer (runIf (dto.isCover.getD false) (clearCovers tenantId productId))
          n (.start db) fun v n' σ' => σ'.db = db ∧ v = .ok () ∧
            σ'.view = if dto.isCover.getD false then clear tenantId productId db else db := by
        apply ends_runIf
        · intro hcover
          apply ends_ask
          rw [Ends, exec_each_updateMany]
          exact ⟨rfl, rfl, (if_pos hcover).symm⟩
        · intro hcover
          exact ⟨rfl, rfl, (if_neg (by simp [hcover])).symm⟩
      apply hcleared.seq
      · rintro _ n' σ' ⟨hdb, -, hview⟩
        apply ends_ask
        apply ends_invoke
        apply ends_insertOne
        · intro hfree
          refine .inr ⟨⟨p, hp, htenant⟩, answer n' .uuid,
            ⟨tenantId, productId, dto.url, dto.isCover.getD false, _⟩, ?_, rfl, rfl, rfl,
            congrArg (fun v : Database => v.set (.image _) _) hview⟩
          rw [hview] at hfree
          have hnone := Option.isNone_iff_eq_none.1 hfree
          by_cases hcover : dto.isCover.getD false = true
          · rw [if_pos hcover] at hnone
            exact Option.map_eq_none_iff.1 ((imageAt_clear _ _ db _).symm.trans hnone)
          · rw [if_neg hcover] at hnone
            exact hnone
        · exact fun _ => .inl hdb
      · rintro e n' σ' ⟨-, herror, -⟩
        cases herror
    · exact fun _ => .inl rfl
  · rintro e n _ rfl
    exact .inl rfl

def Deleted (productId imageId : Id) (db db' : Database) : Prop :=
  ∃ i, imageAt db imageId = some i ∧ i.productId = productId ∧ db' = db.set (.image imageId) none

theorem removeImage_serves :
    serve answer (removeImage tenantId productId imageId) db = db ∨
      Deleted productId imageId db (serve answer (removeImage tenantId productId imageId) db) := by
  suffices hends : EndsWith answer (removeImage tenantId productId imageId) 0 (.start db)
      fun _ _ σ => σ.view = db ∨ Deleted productId imageId db σ.view from hends
  apply ends_findOne
  · intro p hp htenant
    apply ends_ask
    apply ends_demand
    · exact fun _ => .inl rfl
    · intro i hi
      obtain ⟨hrow, hown⟩ := Option.filter_eq_some_iff.1 hi
      simp only [Bool.and_eq_true, beq_iff_eq] at hown
      have hdeleted : EndsWith answer (updateOne (.deleteImage tenantId imageId)) 0 (.start db)
          fun v _ σ' => (v = .ok () → σ'.view = db.set (.image imageId) none) ∧
            (v ≠ .ok () → σ'.view = db) := by
        apply ends_updateOne
        · exact fun _ => ⟨fun _ => rfl, fun hok => (hok rfl).elim⟩
        · exact fun _ => ⟨nofun, fun _ => rfl⟩
      apply hdeleted.seq
      · intro _ n' σ' hok
        exact .inr ⟨i, hrow, hown.2, hok.1 rfl⟩
      · intro e n' σ' hfailed
        exact .inl (hfailed.2 nofun)
  · exact fun _ => .inl rfl

structure Coverable (db : Database) (tenantId productId imageId : Id) : Prop where
  product : HasProduct db tenantId productId
  image : ∃ i, imageAt db imageId = some i ∧ i.tenantId = tenantId

/-- The image is the cover of its product, and the product has no other one. -/
def Covered (tenantId productId imageId : Id) (db db' : Database) : Prop :=
  (¬ Coverable db tenantId productId imageId ∧ db' = db) ∨
    (Coverable db tenantId productId imageId ∧
      (∀ x, imageAt db' x = if x = imageId then
        (imageAt db x).map fun i => { cleared tenantId productId i with isCover := true }
        else (imageAt db x).map (cleared tenantId productId)) ∧
      ∀ k, (∀ id, k ≠ .image id) → db'.row k = db.row k)

theorem setCoverImage_serves :
    Covered tenantId productId imageId db
      (serve answer (setCoverImage tenantId productId imageId) db) := by
  suffices hends : EndsWith answer (setCoverImage tenantId productId imageId) 0 (.start db)
      fun _ _ σ => Covered tenantId productId imageId db σ.view from hends
  apply ends_findOne
  · intro p hp htenant
    have hcleared : EndsWith answer (clearCovers tenantId productId) 0 (.start db)
        fun v _ σ' => v = .ok () ∧ σ'.db = db ∧ σ'.view = clear tenantId productId db := by
      apply ends_ask
      rw [Ends, exec_each_updateMany]
      exact ⟨rfl, rfl, rfl⟩
    apply hcleared.seq
    · rintro _ n' σ' ⟨-, hdb, hview⟩
      apply ends_updateOne
      · intro hguard
        rw [hview] at hguard
        refine .inr ⟨⟨⟨p, hp, htenant⟩, setCover_hits.1 hguard⟩, ?_, ?_⟩
        · intro x
          rw [Session.apply_view, hview, ← touch_hit hguard, imageAt_setCover, imageAt_clear]
          split
          · next hx =>
              subst hx
              obtain ⟨i, hi, hown⟩ := setCover_hits.1 hguard
              simp [hi, cleared_tenantId, hown]
          · exact rfl
        · intro k hk
          rw [Session.apply_view, hview]
          exact (applyUpdate_row_of_ne (S := catalog) _ _ (hk imageId)).trans (clear_row_of_others hk)
      · intro hmiss
        rw [hview] at hmiss
        refine .inl ⟨fun h => ?_, hdb⟩
        exact Bool.false_ne_true (hmiss.symm.trans (setCover_hits.2 h.image))
    · rintro e n' σ' ⟨herror, -⟩
      cases herror
  · intro hmissing
    exact .inl ⟨fun h => hmissing h.product, rfl⟩

theorem mem_of_not_mismatch {existing imageIds : List Id} (h : isMismatch existing imageIds = false)
    (hx : x ∈ imageIds) : x ∈ existing := by
  simp only [isMismatch, Bool.or_eq_false_iff, bne_eq_false_iff_eq, List.any_eq_false,
    Bool.not_eq_true', Bool.not_eq_false, List.contains_iff_mem] at h
  have hsub : existing.toFinset ⊆ imageIds.toFinset := by
    intro y hy
    exact List.mem_toFinset.2 (h.2 y (List.mem_toFinset.1 hy))
  have hsame : existing.toFinset = imageIds.toFinset := by
    apply Finset.eq_of_subset_of_card_le hsub
    rw [List.card_toFinset, List.card_toFinset, h.1]
  exact List.mem_toFinset.1 (hsame ▸ List.mem_toFinset.2 hx)

structure Reordered (productId : Id) (db db' : Database) : Prop where
  others : ∀ k, (∀ id, k ≠ .image id) → db'.row k = db.row k
  images : ∀ x, imageAt db' x = imageAt db x ∨ ∃ (i : ProductImage) (sortOrder : Int),
    imageAt db x = some i ∧ i.productId = productId ∧
      imageAt db' x = some { i with sortOrder }

theorem Reordered.setSortOrder {v : Database} (h : Reordered productId db v) {i : ProductImage}
    (hi : imageAt db imageId = some i) (hproduct : i.productId = productId) (sortOrder : Int) :
    Reordered productId db
      (applyUpdate (S := catalog) (.setSortOrder tenantId imageId sortOrder) v) := by
  constructor
  · intro k hk
    exact (applyUpdate_row_of_ne (S := catalog) _ _ (hk imageId)).trans (h.others k hk)
  · intro x
    by_cases hx : x = imageId
    · subst hx
      have hchanged : imageAt (applyUpdate (S := catalog) (.setSortOrder tenantId x sortOrder) v) x =
          (imageAt v x).map fun i => { i with sortOrder } :=
        applyUpdate_row_self (S := catalog) _ _
      rw [hchanged]
      right
      rcases h.images x with hsame | ⟨j, s, hj, -, hv⟩
      · exact ⟨i, sortOrder, hi, hproduct, by rw [hsame, hi]; rfl⟩
      · cases hi.symm.trans hj
        exact ⟨i, sortOrder, hi, hproduct, by rw [hv]; rfl⟩
    · have hkept : imageAt (applyUpdate (S := catalog)
          (.setSortOrder tenantId imageId sortOrder) v) x = imageAt v x :=
        applyUpdate_row_of_ne (S := catalog) _ _ (image_ne hx)
      rw [hkept]
      exact h.images x

theorem reorderImages_serves (imageIds : List Id) :
    Reordered productId db (serve answer (reorderImages tenantId productId imageIds) db) := by
  have hsame : Reordered productId db db := ⟨fun _ _ => rfl, fun _ => .inl rfl⟩
  suffices hends : EndsWith answer (reorderImages tenantId productId imageIds) 0 (.start db)
      fun _ _ σ => Reordered productId db σ.view from hends
  apply ends_findOne
  · intro p hp htenant
    apply ends_ask
    apply ends_check
    · exact fun _ => hsame
    · intro hmatch
      apply Ends.mono (ends_each_updateOne (I := Reordered productId db) (show (Session.start db).db = db from rfl) hsame _)
      · intro v n' σ' hends
        by_cases hok : v = .ok ()
        · exact hends.1 hok
        · rw [hends.2 hok]
          exact hsame
      · rintro ⟨id, index⟩ hentry v hv
        have hid : id ∈ imageIds := (List.mem_zipIdx' hentry).2 ▸ List.getElem_mem _
        obtain ⟨⟨_, i⟩, hi, rfl⟩ := List.mem_map.1 (mem_of_not_mismatch hmatch hid)
        obtain ⟨hrow, hown⟩ := mem_imagesWhere.1 hi
        simp only [Bool.and_eq_true, beq_iff_eq] at hown
        exact hv.setSortOrder hrow hown.2 _
  · exact fun _ => hsame

/-! ## One cover each -/

theorem Added.changesOnly {dto : AddProductImageDto} (h : Added tenantId productId dto db db') :
    ChangesOnly productId db db' := by
  obtain ⟨-, id, i, hnew, -, hproduct, -, rfl⟩ := h
  have hcleared : ChangesOnly productId db
      (if dto.isCover.getD false then clear tenantId productId db else db) := by
    split
    · exact clear_changesOnly tenantId productId db
    · exact .refl productId db
  apply hcleared.trans
  apply changesOnly_set
  · intro j hj
    apply hcleared.after id j _ hj
    simp [hj, hnew]
  · intro j hj
    cases hj
    exact hproduct

theorem Added.wellKept {dto : AddProductImageDto} (h : Added tenantId productId dto db db')
    (hdb : WellKept db) : WellKept db' := by
  have hchanges := h.changesOnly
  obtain ⟨⟨p, hp, htenant⟩, id, i, hnew, hi, hproduct, hcover, hset⟩ := h
  have hrow : ∀ x, imageAt db' x = if x = id then some i
      else if dto.isCover.getD false then (imageAt db x).map (cleared tenantId productId)
      else imageAt db x := by
    intro x
    rw [hset, imageAt_set]
    congr 1
    split
    · exact imageAt_clear tenantId productId db x
    · exact rfl
  apply hchanges.wellKept hdb
  · intro x j hj
    rw [hrow] at hj
    split at hj
    · cases hj
      exact .inl ⟨p, hproduct ▸ hp, htenant.trans hi.symm⟩
    split at hj
    · obtain ⟨j', hj', rfl⟩ := Option.map_eq_some_iff.1 hj
      exact .inr ⟨j', hj', (cleared_tenantId j').symm, (cleared_productId j').symm⟩
    · exact .inr ⟨j, hj, rfl, rfl⟩
  · intro a b ha hb
    by_cases hcov : dto.isCover.getD false = true
    · have honly : ∀ x, IsCover db' productId x → x = id := by
        rintro x ⟨j, hj, hjproduct, hjcover⟩
        by_contra hx
        rw [hrow, if_neg hx, if_pos hcov, ← imageAt_clear] at hj
        exact not_isCover_clear hdb.owned hp htenant ⟨j, hj, hjproduct, hjcover⟩
      rw [honly a ha, honly b hb]
    · have hold : ∀ x, IsCover db' productId x → IsCover db productId x := by
        rintro x ⟨j, hj, hjproduct, hjcover⟩
        rw [hrow, if_neg hcov] at hj
        split at hj
        · cases hj
          exact (hcov (hcover.symm.trans hjcover)).elim
        · exact ⟨j, hj, hjproduct, hjcover⟩
      exact hdb.oneCover productId a b (hold a ha) (hold b hb)

theorem Deleted.changesOnly (h : Deleted productId imageId db db') :
    ChangesOnly productId db db' := by
  obtain ⟨i, hi, hproduct, rfl⟩ := h
  apply changesOnly_set
  · intro j hj
    cases hi.symm.trans hj
    exact hproduct
  · exact nofun

theorem Deleted.wellKept (h : Deleted productId imageId db db') (hdb : WellKept db) :
    WellKept db' := by
  have hchanges := h.changesOnly
  obtain ⟨-, -, -, hset⟩ := h
  have hkept : ∀ x j, imageAt db' x = some j → imageAt db x = some j := by
    intro x j hj
    rw [hset, imageAt_set] at hj
    split at hj
    · cases hj
    · exact hj
  apply hchanges.wellKept hdb
  · intro x j hj
    exact .inr ⟨j, hkept x j hj, rfl, rfl⟩
  · rintro a b ⟨i, hi, ha⟩ ⟨j, hj, hb⟩
    exact hdb.oneCover productId a b ⟨i, hkept a i hi, ha⟩ ⟨j, hkept b j hj, hb⟩

theorem Reordered.changesOnly (h : Reordered productId db db') : ChangesOnly productId db db' := by
  constructor
  · exact h.others
  · intro x i hx hi
    rcases h.images x with hsame | ⟨j, s, hj, hproduct, -⟩
    · exact (hx hsame).elim
    · cases hi.symm.trans hj
      exact hproduct
  · intro x i hx hi
    rcases h.images x with hsame | ⟨j, s, -, hproduct, hj⟩
    · exact (hx hsame).elim
    · cases hi.symm.trans hj
      exact hproduct

theorem Reordered.wellKept (h : Reordered productId db db') (hdb : WellKept db) :
    WellKept db' := by
  have hkept : ∀ x i, imageAt db' x = some i → ∃ j, imageAt db x = some j ∧
      j.tenantId = i.tenantId ∧ j.productId = i.productId ∧ j.isCover = i.isCover := by
    intro x i hi
    rcases h.images x with hsame | ⟨j, s, hj, -, hj'⟩
    · exact ⟨i, hsame.symm.trans hi, rfl, rfl, rfl⟩
    · cases hi.symm.trans hj'
      exact ⟨j, hj, rfl, rfl, rfl⟩
  have hold : ∀ x, IsCover db' productId x → IsCover db productId x := by
    rintro x ⟨i, hi, hproduct, hcover⟩
    obtain ⟨j, hj, -, hjproduct, hjcover⟩ := hkept x i hi
    exact ⟨j, hj, hjproduct.trans hproduct, hjcover.trans hcover⟩
  apply h.changesOnly.wellKept hdb
  · intro x i hi
    obtain ⟨j, hj, htenant, hproduct, -⟩ := hkept x i hi
    exact .inr ⟨j, hj, htenant, hproduct⟩
  · intro a b ha hb
    exact hdb.oneCover productId a b (hold a ha) (hold b hb)

/-- The new cover is an image of the product, or is the cover of its own product already. -/
def StaysOwn (db : Database) : Request → Prop
  | .setCoverImage tenantId productId imageId => Coverable db tenantId productId imageId →
      ∀ i, imageAt db imageId = some i → i.productId = productId ∨ i.isCover = true
  | _ => True

theorem Covered.owners (h : Covered tenantId productId imageId db db') {i : ProductImage}
    (hi : imageAt db' x = some i) :
    ∃ j, imageAt db x = some j ∧ j.tenantId = i.tenantId ∧ j.productId = i.productId := by
  rcases h with ⟨-, rfl⟩ | ⟨-, hrow, -⟩
  · exact ⟨i, hi, rfl, rfl⟩
  · rw [hrow] at hi
    split at hi
    · obtain ⟨j, hj, rfl⟩ := Option.map_eq_some_iff.1 hi
      exact ⟨j, hj, (cleared_tenantId j).symm, (cleared_productId j).symm⟩
    · obtain ⟨j, hj, rfl⟩ := Option.map_eq_some_iff.1 hi
      exact ⟨j, hj, (cleared_tenantId j).symm, (cleared_productId j).symm⟩

/-- The request stays within the product exactly when the image is one of it. -/
theorem Covered.changesOnly_iff (h : Covered tenantId productId imageId db db') :
    ChangesOnly productId db db' ↔ StaysOwn db (.setCoverImage tenantId productId imageId) := by
  constructor
  · intro hchanges hcoverable i hi
    by_contra hother
    rw [not_or] at hother
    rcases h with ⟨hrefused, -⟩ | ⟨-, hrow, -⟩
    · exact hrefused hcoverable
    · have hmarked : imageAt db' imageId = some { i with isCover := true } := by
        rw [hrow, if_pos rfl, hi, Option.map_some, cleared_of_ne hother.1]
      apply hother.1
      apply hchanges.before imageId i _ hi
      rw [hmarked, hi]
      intro hsame
      exact hother.2 (congrArg ProductImage.isCover (Option.some.inj hsame)).symm
  · intro hok
    have hbefore : ∀ x i, imageAt db' x ≠ imageAt db x → imageAt db x = some i →
        i.productId = productId := by
      intro x i hx hi
      by_contra hother
      apply hx
      rcases h with ⟨-, rfl⟩ | ⟨hcoverable, hrow, -⟩
      · exact rfl
      · rw [hrow, hi, Option.map_some, Option.map_some, cleared_of_ne hother]
        split
        · next hximage =>
            subst hximage
            rcases hok hcoverable i hi with hproduct | hcover
            · exact (hother hproduct).elim
            · rw [← hcover]
        · exact rfl
    constructor
    · rcases h with ⟨-, rfl⟩ | ⟨-, -, hothers⟩
      · exact fun _ _ => rfl
      · exact hothers
    · exact hbefore
    · intro x i hx hi
      obtain ⟨j, hj, -, hproduct⟩ := h.owners hi
      exact hproduct.symm.trans (hbefore x j hx hj)

theorem Covered.wellKept (h : Covered tenantId productId imageId db db') (hdb : WellKept db)
    (hok : StaysOwn db (.setCoverImage tenantId productId imageId)) : WellKept db' := by
  apply (h.changesOnly_iff.2 hok).wellKept hdb
  · intro x i hi
    exact .inr (h.owners hi)
  · intro a b ha hb
    rcases h with ⟨-, rfl⟩ | ⟨⟨⟨p, hp, htenant⟩, -⟩, hrow, -⟩
    · exact hdb.oneCover productId a b ha hb
    · have honly : ∀ x, IsCover db' productId x → x = imageId := by
        rintro x ⟨j, hj, hjproduct, hjcover⟩
        by_contra hx
        rw [hrow, if_neg hx, ← imageAt_clear] at hj
        exact not_isCover_clear hdb.owned hp htenant ⟨j, hj, hjproduct, hjcover⟩
      rw [honly a ha, honly b hb]

theorem changesOnly_iff (answer : Answers catalog) (db : Database) (r : Request) :
    ChangesOnly r.productId db (serve answer (handler r) db) ↔ StaysOwn db r := by
  cases r with
  | addImage tenantId productId dto =>
      apply iff_of_true _ trivial
      rcases @addImage_serves answer db _ _ dto with hsame | hadded
      · exact hsame.symm ▸ .refl productId db
      · exact hadded.changesOnly
  | removeImage tenantId productId imageId =>
      apply iff_of_true _ trivial
      rcases @removeImage_serves answer db _ _ _ with hsame | hdeleted
      · exact hsame.symm ▸ .refl productId db
      · exact hdeleted.changesOnly
  | setCoverImage tenantId productId imageId => exact setCoverImage_serves.changesOnly_iff
  | reorderImages tenantId productId imageIds =>
      exact iff_of_true (reorderImages_serves imageIds).changesOnly trivial

theorem WellKept.serve (hdb : WellKept db) (answer : Answers catalog) {r : Request}
    (hok : StaysOwn db r) : WellKept (serve answer (handler r) db) := by
  cases r with
  | addImage tenantId productId dto =>
      rcases @addImage_serves answer db _ _ dto with hsame | hadded
      · exact hsame.symm ▸ hdb
      · exact hadded.wellKept hdb
  | removeImage tenantId productId imageId =>
      rcases @removeImage_serves answer db _ _ _ with hsame | hdeleted
      · exact hsame.symm ▸ hdb
      · exact hdeleted.wellKept hdb
  | setCoverImage tenantId productId imageId => exact setCoverImage_serves.wellKept hdb hok
  | reorderImages tenantId productId imageIds => exact (reorderImages_serves imageIds).wellKept hdb

/-- While every new cover is an image of the product asked for, or covers its own product
already, every product has at most one cover; and these are the requests that change images
of their own product only. -/
theorem covers_stay_single (hdb : WellKept db) (h : Serial handler StaysOwn db db') :
    OneCover db' ∧ ∀ answer r,
      ChangesOnly r.productId db' (serve answer (handler r) db') ↔ StaysOwn db' r := by
  have hkept : WellKept db' := by
    apply h.induct hdb
    intro db answer r hdb hok
    exact hdb.serve answer hok
  exact ⟨hkept.oneCover, fun answer r => changesOnly_iff answer db' r⟩

/-! ### Two products of a store -/

def products : Database :=
  ((Store.empty : Database).set (.product 1) (some ⟨1, 500⟩)).set (.product 2) (some ⟨1, 700⟩)

def addCover (productId : Id) : Request :=
  .addImage 1 productId ⟨"/uploads/1/photo.webp", some true⟩

theorem wellKept_products : WellKept products := ⟨nofun, fun _ _ _ ⟨_, h, _⟩ => nomatch h⟩

def oneImage : Database := serve (naming 11) (handler (addCover 1)) products

def twoImages : Database := serve (naming 12) (handler (addCover 1)) oneImage

theorem serial_twoImages {ok : Database → Request → Prop}
    (hok : ∀ db productId, ok db (addCover productId)) : Serial handler ok products twoImages := by
  apply Relation.ReflTransGen.tail (b := oneImage)
  · exact .single ⟨_, _, hok _ _, rfl⟩
  · exact ⟨_, _, hok _ _, rfl⟩

theorem covers_stay_single_two :
    (imageAt twoImages 11).map ProductImage.isCover = some false ∧
      (imageAt twoImages 12).map ProductImage.isCover = some true ∧ OneCover twoImages := by
  refine ⟨by decide +kernel, by decide +kernel, ?_⟩
  exact (covers_stay_single wellKept_products (serial_twoImages fun _ _ => trivial)).1

/-- The second image of the first product becomes the cover of the other product. -/
def coverOfOther : Request := .setCoverImage 1 2 11

theorem covers_not_single :
    ¬ ∀ db, Serial handler (fun _ _ => True) products db →
      OneCover db ∧ ∀ answer r, ChangesOnly r.productId db (serve answer (handler r) db) := by
  intro hclaim
  have hrun : Serial handler (fun _ _ => True) products twoImages :=
    serial_twoImages fun _ _ => trivial
  have hfirst : imageAt (serve (naming 0) (handler coverOfOther) twoImages) 11 =
      some ⟨1, 1, "/uploads/1/photo.webp", true, 0⟩ := by decide +kernel
  have hsecond : imageAt (serve (naming 0) (handler coverOfOther) twoImages) 12 =
      some ⟨1, 1, "/uploads/1/photo.webp", true, 1⟩ := by decide +kernel
  have hone := (hclaim _ (hrun.tail ⟨naming 0, coverOfOther, trivial, rfl⟩)).1
  have hsame : (11 : Id) = 12 :=
    hone 1 11 12 ⟨_, hfirst, rfl, rfl⟩ ⟨_, hsecond, rfl, rfl⟩
  exact absurd hsame (by decide)

end WhatStore.Catalog
