import WhatStore.Catalog.Images
import Mathlib.Data.List.Sort

/-!
# The order of a product's images

`ProductsService.reorderImages` compares the ids it is given with the images of
the product as sets, and then writes the places of the list, all at once. A list
without repetitions becomes the order of the images, however the writes were
scheduled. A list that repeats an id passes the check as well.
-/

namespace WhatStore.Catalog

open ReadCommitted ReadCommitted.Prog ProductsService

/-- `Promise.all` sends the writes at once; they are applied as `schedule` has it. -/
def ProductsService.reorderImagesBy (schedule : List (Id × ℕ) → List (Id × ℕ))
    (tenantId productId : Id) (imageIds : List Id) : Prog catalog Unit := do
  let _ ← findOne tenantId productId
  let existing : List (Id × ProductImage) ← .query (.images tenantId productId) .ret
  Prog.throwIf (isMismatch (existing.map Prod.fst) imageIds)
    (.badRequest "imageIds must match this product's current images exactly")
  Prog.each (fun image => updateOne (.setSortOrder tenantId image.1 image.2))
    (schedule imageIds.zipIdx)

theorem reorderImagesBy_id (tenantId productId : Id) (imageIds : List Id) :
    reorderImagesBy id tenantId productId imageIds = reorderImages tenantId productId imageIds :=
  rfl

variable {answer : Answers catalog} {db : Database} {tenantId productId : Id} {imageIds : List Id}

def imagesOf (db : Database) (tenantId productId : Id) : List Id :=
  (Query.eval (.images tenantId productId) db).map Prod.fst

/-- A listing of the images with `orderBy: { sortOrder: 'asc' }`. -/
structure Listing (db : Database) (tenantId productId : Id) (images : List (Id × ProductImage)) :
    Prop where
  all : images.Perm (Query.eval (.images tenantId productId) db)
  ascending : images.Pairwise fun a b => a.2.sortOrder ≤ b.2.sortOrder

/-- The request goes through exactly when the list has each image of the product once;
then the images are listed in its order, and otherwise no row changes. -/
structure Reorders (answer : Answers catalog) (db : Database) (tenantId productId : Id)
    (imageIds : List Id) (schedule : List (Id × ℕ) → List (Id × ℕ)) : Prop where
  accepted_iff : Succeeds answer (reorderImagesBy schedule tenantId productId imageIds) db ↔
    HasProduct db tenantId productId ∧ imageIds.Perm (imagesOf db tenantId productId)
  listed : Succeeds answer (reorderImagesBy schedule tenantId productId imageIds) db →
    ∀ images, Listing (serve answer (reorderImagesBy schedule tenantId productId imageIds) db)
      tenantId productId images → images.map Prod.fst = imageIds
  rejected : ¬ Succeeds answer (reorderImagesBy schedule tenantId productId imageIds) db →
    serve answer (reorderImagesBy schedule tenantId productId imageIds) db = db

/-! ## The check -/

theorem isMismatch_eq_false_iff {existing : List Id} :
    isMismatch existing imageIds = false ↔ ∀ x, x ∈ imageIds ↔ x ∈ existing := by
  constructor
  · intro h x
    constructor
    · exact mem_of_not_mismatch h
    · intro hx
      simp only [isMismatch, Bool.or_eq_false_iff, List.any_eq_false] at h
      simpa using h.2 x hx
  · intro h
    have hsame : existing.toFinset = imageIds.toFinset := by
      ext x
      simp [h x]
    have hcard : existing.dedup.length = imageIds.dedup.length := by
      rw [← List.card_toFinset, ← List.card_toFinset, hsame]
    simp only [isMismatch, hcard, bne_self_eq_false, Bool.false_or, List.any_eq_false]
    intro x hx
    simpa using (h x).2 hx

theorem nodup_imagesWhere (db : Database) (q : ProductImage → Bool) :
    ((imagesWhere db q).map Prod.fst).Nodup := by
  apply db.nodup_scan Key.image
  intro k image hk
  cases k with
  | image id =>
      obtain ⟨i, -, rfl⟩ := Option.map_eq_some_iff.1 hk
      rfl
  | _ => cases hk

theorem mem_imagesOf {x : Id} : x ∈ imagesOf db tenantId productId ↔
    ∃ i, imageAt db x = some i ∧ i.tenantId = tenantId ∧ i.productId = productId := by
  simp [imagesOf, Query.eval, mem_imagesWhere]

/-! ## The writes -/

def place (tenantId : Id) (places : List (Id × ℕ)) (db : Database) : Database :=
  touchAll (fun image : Id × ℕ => .setSortOrder tenantId image.1 image.2) places db

theorem imageAt_setSortOrder (tenantId id : Id) (sortOrder : Int) (db : Database) (x : Id) :
    imageAt (touch (.setSortOrder tenantId id sortOrder) db) x =
      if x = id then (imageAt db x).map fun i =>
        if i.tenantId = tenantId then { i with sortOrder } else i
      else imageAt db x := by
  by_cases hx : x = id
  · subst hx
    cases hrow : db.row (.image x) with
    | none => simp [imageAt, touch, Update.guard, Update.key, hrow]
    | some i =>
        by_cases htenant : i.tenantId = tenantId
        · rw [touch_hit (by simp [Update.guard, Update.key, hrow, htenant])]
          refine (applyUpdate_row_self (S := catalog) _ _).trans ?_
          simp [Update.change, Update.key, imageAt, hrow, htenant]
        · rw [touch_miss (by simp [Update.guard, Update.key, hrow, htenant])]
          simp [imageAt, hrow, htenant]
  · simp only [hx, if_false]
    exact touch_row_of_ne (image_ne hx)

theorem place_cons (tenantId : Id) (image : Id × ℕ) (places : List (Id × ℕ)) (db : Database) :
    place tenantId (image :: places) db =
      place tenantId places (touch (.setSortOrder tenantId image.1 image.2) db) := rfl

def SameOwners (db v : Database) : Prop :=
  ∀ x, (imageAt v x).map (fun i => (i.tenantId, i.productId)) =
    (imageAt db x).map fun i => (i.tenantId, i.productId)

theorem imageAt_place_owners (places : List (Id × ℕ)) (db : Database) :
    SameOwners db (place tenantId places db) := by
  intro x
  induction places generalizing db with
  | nil => rfl
  | cons image places ih =>
      rw [place_cons, ih, imageAt_setSortOrder]
      split
      · cases imageAt db x with
        | none => rfl
        | some i =>
            simp only [Option.map_some]
            split <;> rfl
      · exact rfl

theorem imageAt_place_of_notMem {places : List (Id × ℕ)} {x : Id} (hx : x ∉ places.map Prod.fst) :
    imageAt (place tenantId places db) x = imageAt db x := by
  apply touchAll_row_of_ne
  intro image himage
  exact image_ne fun h => hx (h ▸ List.mem_map_of_mem himage)

theorem imageAt_place {places : List (Id × ℕ)} (hnodup : (places.map Prod.fst).Nodup) {x : Id}
    {k : ℕ} (hmem : (x, k) ∈ places) {i : ProductImage} (hi : imageAt db x = some i)
    (htenant : i.tenantId = tenantId) :
    imageAt (place tenantId places db) x = some { i with sortOrder := k } := by
  induction places generalizing db with
  | nil => cases hmem
  | cons image places ih =>
      rw [List.map_cons, List.nodup_cons] at hnodup
      rw [place_cons]
      rcases List.mem_cons.1 hmem with rfl | hmem
      · rw [imageAt_place_of_notMem hnodup.1, imageAt_setSortOrder, if_pos rfl, hi]
        simp [htenant]
      · apply ih hnodup.2 hmem
        rw [imageAt_setSortOrder, if_neg, hi]
        intro hx
        exact hnodup.1 (hx ▸ List.mem_map_of_mem hmem)

theorem mem_imagesOf_place {places : List (Id × ℕ)} {x : Id} :
    x ∈ imagesOf (place tenantId places db) tenantId productId ↔
      x ∈ imagesOf db tenantId productId := by
  have howners := (imageAt_place_owners places db : SameOwners db (place tenantId places db)) x
  rw [mem_imagesOf, mem_imagesOf]
  cases hi : imageAt db x <;> cases hj : imageAt (place tenantId places db) x <;>
    simp_all

/-! ## The request -/

/-- The product is one of the store, and the ids given are its images as a set. -/
def SameSet (db : Database) (tenantId productId : Id) (imageIds : List Id) : Prop :=
  HasProduct db tenantId productId ∧ ∀ x, x ∈ imageIds ↔ x ∈ imagesOf db tenantId productId

theorem exec_each_updateOne {α : Type} {f : α → Update} {as : List α} {I : Database → Prop} {n : ℕ}
    {σ : Session catalog} (hI : I σ.view)
    (hhit : ∀ a ∈ as, ∀ v, I v → catalog.guard (f a) (v.row (catalog.key (f a))) = true)
    (hstep : ∀ a ∈ as, ∀ v, I v → I (touch (f a) v)) :
    (each (fun a => updateOne (f a)) as).exec (S := catalog) answer n σ =
      ⟨.ok (), n, { σ with view := touchAll f as σ.view }⟩ := by
  induction as generalizing σ with
  | nil => rfl
  | cons a as ih =>
      have hguard := hhit a List.mem_cons_self σ.view hI
      have hview : (σ.apply (f a)).view = touch (f a) σ.view := (touch_hit hguard).symm
      rw [each, exec_bind, updateOne, bind_eq, exec_bind, exec_update_hit hguard]
      have hrest := @ih (σ.apply (f a)) (hview.symm ▸ hstep a List.mem_cons_self _ hI)
        (fun b hb => hhit b (List.mem_cons_of_mem _ hb))
        (fun b hb => hstep b (List.mem_cons_of_mem _ hb))
      refine hrest.trans ?_
      rw [hview]
      rfl

theorem ends_each_hits {α : Type} {f : α → Update} {as : List α} {I : Database → Prop} {n : ℕ}
    {σ : Session catalog} {R : Except Err Unit → ℕ → Session catalog → Prop} (hI : I σ.view)
    (hhit : ∀ a ∈ as, ∀ v, I v → catalog.guard (f a) (v.row (catalog.key (f a))) = true)
    (hstep : ∀ a ∈ as, ∀ v, I v → I (touch (f a) v))
    (hk : R (.ok ()) n { σ with view := touchAll f as σ.view }) :
    EndsWith answer (each (fun a => updateOne (f a)) as) n σ R := by
  rw [EndsWith, Ends, exec_each_updateOne hI hhit hstep]
  exact hk

/-- The list is compared with the images and then written out. -/
theorem reorderImagesBy_ends {schedule : List (Id × ℕ) → List (Id × ℕ)}
    (hschedule : ∀ places, (schedule places).Perm places) :
    EndsWith answer (reorderImagesBy schedule tenantId productId imageIds) 0 (.start db)
      fun v _ σ =>
        (SameSet db tenantId productId imageIds ∧ v = .ok () ∧
          σ.view = place tenantId (schedule imageIds.zipIdx) db) ∨
        (¬ SameSet db tenantId productId imageIds ∧ v ≠ .ok () ∧ σ.view = db) := by
  apply ends_findOne
  · intro p hp htenant
    apply ends_ask
    apply ends_check
    · intro hmismatch
      refine .inr ⟨?_, by simp, rfl⟩
      intro hsame
      have hmatch := isMismatch_eq_false_iff.2 hsame.2
      exact absurd (hmatch.symm.trans hmismatch) (by decide)
    · intro hmatch
      have hsame := isMismatch_eq_false_iff.1 hmatch
      have howned : ∀ image ∈ schedule imageIds.zipIdx, ∃ i, imageAt db image.1 = some i ∧
          i.tenantId = tenantId ∧ i.productId = productId := by
        intro image himage
        apply mem_imagesOf.1
        apply (hsame image.1).1
        have hentry := (hschedule _).mem_iff.1 himage
        exact (List.mem_zipIdx' hentry).2 ▸ List.getElem_mem _
      apply ends_each_hits (I := SameOwners db) (fun _ => rfl)
      · intro image himage v hv
        obtain ⟨i, hi, htenant, -⟩ := howned image himage
        have howners := hv image.1
        rw [hi, Option.map_some, Option.map_eq_some_iff] at howners
        obtain ⟨j, hj, hji⟩ := howners
        have hrow : v.row (.image image.1) = some j := hj
        have htenant' : j.tenantId = tenantId := (congrArg Prod.fst hji).trans htenant
        simpa [Update.guard, Update.key, hrow] using htenant'
      · intro image himage v hv x
        exact (imageAt_place_owners [image] v x).trans (hv x)
      · exact .inl ⟨⟨⟨p, hp, htenant⟩, hsame⟩, rfl, rfl⟩
  · intro hmissing
    exact .inr ⟨fun hsame => hmissing hsame.1, by simp, rfl⟩

section Outcome

variable {schedule : List (Id × ℕ) → List (Id × ℕ)}
  (hschedule : ∀ places, (schedule places).Perm places)

include hschedule

theorem succeeds_iff :
    Succeeds answer (reorderImagesBy schedule tenantId productId imageIds) db ↔
      SameSet db tenantId productId imageIds := by
  have hends : EndsWith answer (reorderImagesBy schedule tenantId productId imageIds) 0 (.start db) _ :=
    reorderImagesBy_ends hschedule
  rcases hends with
    ⟨hsame, hok, -⟩ | ⟨hother, herror, -⟩
  · exact iff_of_true hok hsame
  · exact iff_of_false herror hother

theorem serve_of_sameSet (h : SameSet db tenantId productId imageIds) :
    serve answer (reorderImagesBy schedule tenantId productId imageIds) db =
      place tenantId (schedule imageIds.zipIdx) db := by
  have hends : EndsWith answer (reorderImagesBy schedule tenantId productId imageIds) 0 (.start db) _ :=
    reorderImagesBy_ends hschedule
  rcases hends with
    ⟨-, -, hview⟩ | ⟨hother, -⟩
  · exact hview
  · exact (hother h).elim

theorem serve_of_not_sameSet (h : ¬ SameSet db tenantId productId imageIds) :
    serve answer (reorderImagesBy schedule tenantId productId imageIds) db = db := by
  have hends : EndsWith answer (reorderImagesBy schedule tenantId productId imageIds) 0 (.start db) _ :=
    reorderImagesBy_ends hschedule
  rcases hends with
    ⟨hsame, -⟩ | ⟨-, -, hview⟩
  · exact (h hsame).elim
  · exact hview

end Outcome

theorem nodup_imagesOf (db : Database) (tenantId productId : Id) :
    (imagesOf db tenantId productId).Nodup := nodup_imagesWhere db _

/-- A set of ids without repetitions is a permutation. -/
theorem sameSet_iff_perm (hnodup : imageIds.Nodup) :
    SameSet db tenantId productId imageIds ↔
      HasProduct db tenantId productId ∧ imageIds.Perm (imagesOf db tenantId productId) := by
  rw [List.perm_ext_iff_of_nodup hnodup (nodup_imagesOf db tenantId productId)]
  rfl

theorem imageAt_place_zipIdx {places : List (Id × ℕ)} (hperm : places.Perm imageIds.zipIdx)
    (hnodup : imageIds.Nodup) (h : SameSet db tenantId productId imageIds) {x : Id} {k : ℕ}
    (hmem : (x, k) ∈ imageIds.zipIdx) :
    ∃ i, imageAt (place tenantId places db) x = some i ∧ i.tenantId = tenantId ∧
      i.productId = productId ∧ i.sortOrder = k := by
  have hx : x ∈ imageIds := List.fst_mem_of_mem_zipIdx hmem
  obtain ⟨i, hi, htenant, hproduct⟩ := mem_imagesOf.1 ((h.2 x).1 hx)
  have hplaces : (places.map Prod.fst).Nodup := by
    rw [(hperm.map Prod.fst).nodup_iff, List.zipIdx_map_fst]
    exact hnodup
  exact ⟨_, imageAt_place hplaces (hperm.mem_iff.2 hmem) hi htenant, htenant, hproduct, rfl⟩

/-- Places that follow a list without repetitions list the images in its order. -/
theorem listing_place {places : List (Id × ℕ)} (hperm : places.Perm imageIds.zipIdx)
    (hnodup : imageIds.Nodup) (h : SameSet db tenantId productId imageIds)
    {images : List (Id × ProductImage)}
    (hlisting : Listing (place tenantId places db) tenantId productId images) :
    images.map Prod.fst = imageIds := by
  have himages : ∀ x i, (x, i) ∈ images ↔ imageAt (place tenantId places db) x = some i ∧
      i.tenantId = tenantId ∧ i.productId = productId := by
    intro x i
    rw [hlisting.all.mem_iff]
    simp [Query.eval, mem_imagesWhere]
  have hentries : (images.map fun image => (image.1, image.2.sortOrder)).Perm
      (imageIds.zipIdx.map fun image => (image.1, (image.2 : ℤ))) := by
    rw [List.perm_ext_iff_of_nodup]
    · rintro ⟨_, _⟩
      rw [List.mem_map, List.mem_map]
      constructor
      · rintro ⟨⟨x, i⟩, hi, heq⟩
        obtain ⟨rfl, rfl⟩ := Prod.mk.inj heq
        obtain ⟨hrow, htenant, hproduct⟩ := (himages x i).1 hi
        have hx : x ∈ imageIds :=
          (h.2 x).2 (mem_imagesOf_place.1 (mem_imagesOf.2 ⟨i, hrow, htenant, hproduct⟩))
        obtain ⟨⟨x, k⟩, hk, rfl⟩ := List.mem_map.1 ((List.zipIdx_map_fst 0 imageIds).symm ▸ hx)
        obtain ⟨j, hj, -, -, hplace⟩ := imageAt_place_zipIdx hperm hnodup h hk
        cases hrow.symm.trans hj
        exact ⟨(x, k), hk, Prod.ext rfl hplace.symm⟩
      · rintro ⟨⟨x, k⟩, hk, heq⟩
        obtain ⟨rfl, rfl⟩ := Prod.mk.inj heq
        obtain ⟨i, hi, htenant, hproduct, hplace⟩ := imageAt_place_zipIdx hperm hnodup h hk
        exact ⟨(x, i), (himages x i).2 ⟨hi, htenant, hproduct⟩, Prod.ext rfl hplace⟩
    · apply List.Nodup.of_map Prod.fst
      rw [List.map_map]
      exact (hlisting.all.map Prod.fst).nodup_iff.2 (nodup_imagesWhere _ _)
    · apply List.Nodup.of_map Prod.fst
      rw [List.map_map]
      exact (List.zipIdx_map_fst 0 imageIds).symm ▸ hnodup
  have hzip : imageIds.zipIdx.Pairwise fun a b => a.2 < b.2 := by
    rw [← List.pairwise_map (f := Prod.snd) (R := (· < ·)), List.zipIdx_map_snd]
    exact List.pairwise_lt_range'
  have hone : ∀ a b : Id × ℤ, a ∈ images.map (fun image => (image.1, image.2.sortOrder)) →
      b ∈ imageIds.zipIdx.map (fun image => (image.1, (image.2 : ℤ))) →
      a.2 ≤ b.2 → b.2 ≤ a.2 → a = b := by
    intro a b ha hb hle hge
    obtain ⟨⟨x, k⟩, hx, rfl⟩ := List.mem_map.1 (hentries.mem_iff.1 ha)
    obtain ⟨⟨y, l⟩, hy, rfl⟩ := List.mem_map.1 hb
    cases Int.ofNat_inj.1 (le_antisymm hle hge)
    rw [List.mk_mem_zipIdx_iff_getElem?] at hx hy
    rw [Option.some.inj (hx.symm.trans hy)]
  have heq := hentries.eq_of_pairwise hone (List.pairwise_map.2 hlisting.ascending)
    (List.pairwise_map.2 (hzip.imp fun hlt => Int.ofNat_le.2 hlt.le))
  have hfst := congrArg (List.map Prod.fst) heq
  rw [List.map_map, List.map_map] at hfst
  exact hfst.trans (List.zipIdx_map_fst 0 imageIds)

/-- **Image reordering.** A reorder request does what it promises exactly when its list repeats
no id, or is refused because the product is not there or the set of ids is another one. -/
theorem reorders_iff (answer : Answers catalog) (db : Database) (tenantId productId : Id)
    (imageIds : List Id) :
    (∀ schedule : List (Id × ℕ) → List (Id × ℕ), (∀ places, (schedule places).Perm places) →
      Reorders answer db tenantId productId imageIds schedule) ↔
      (SameSet db tenantId productId imageIds → imageIds.Nodup) := by
  constructor
  · intro h hsame
    have haccepted : Succeeds answer (reorderImagesBy id tenantId productId imageIds) db :=
      (succeeds_iff fun _ => .refl _).2 hsame
    have hperm := ((h id fun _ => .refl _).accepted_iff.1 haccepted).2
    exact hperm.nodup_iff.2 (nodup_imagesOf db tenantId productId)
  · intro hok schedule hschedule
    constructor
    · rw [succeeds_iff hschedule]
      constructor
      · intro hsame
        exact (sameSet_iff_perm (hok hsame)).1 hsame
      · intro hperm
        have hnodup := hperm.2.nodup_iff.2 (nodup_imagesOf db tenantId productId)
        exact (sameSet_iff_perm hnodup).2 hperm
    · rw [succeeds_iff hschedule]
      intro hsame images hlisting
      rw [serve_of_sameSet hschedule hsame] at hlisting
      exact listing_place (hschedule _) (hok hsame) hsame hlisting
    · rw [succeeds_iff hschedule]
      intro hother
      exact serve_of_not_sameSet hschedule hother

/-- Two images, one of them named twice: the request is accepted. -/
theorem reorders_not_always :
    ¬ ∀ (answer : Answers catalog) (db : Database) (tenantId productId : Id) (imageIds : List Id)
      (schedule : List (Id × ℕ) → List (Id × ℕ)), (∀ places, (schedule places).Perm places) →
        Reorders answer db tenantId productId imageIds schedule := by
  intro hclaim
  have hreorders := hclaim (naming 0) twoImages 1 1 [11, 12, 11] id fun _ => .refl _
  have haccepted : Succeeds (naming 0) (reorderImagesBy id 1 1 [11, 12, 11]) twoImages :=
    succeeds_of_isOk (by decide +kernel)
  have hlength := (hreorders.accepted_iff.1 haccepted).2.length_eq
  exact absurd hlength (by decide +kernel)

end WhatStore.Catalog
