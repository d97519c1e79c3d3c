import WhatStore.Catalog.Database

/-!
# Category templates, product images and scheduled prices

`CategoryTemplatesService`, the image requests of `ProductsService`, and the scheduled
prices of `DigitalService`. A request for a store runs in one transaction, and so does the
sweep of due prices; the requests on templates check first and make one write.
-/

namespace WhatStore.Catalog

open ReadCommitted

/-! ## Statements -/

/-- An `updateMany` on one row. -/
def updateMany (u : Update) : Prog catalog Unit := .update u fun _ => .ret ()

/-- An `update` or a `delete` by primary key, which fails without its row. -/
def updateOne (u : Update) : Prog catalog Unit := do
  let hit ← Prog.update u .ret
  Prog.throwIf (!hit) .recordNotFound

/-- A `create`, which fails on a key that is taken. -/
def insertOne (u : Update) : Prog catalog Unit := do
  let hit ← Prog.update u .ret
  Prog.throwIf (!hit) (.failure "Unique constraint failed")

def uuid : Prog catalog Id := .call .uuid .ret

/-! ## Category templates -/

namespace CategoryTemplatesService

structure CreateCategoryTemplateDto where
  name : String
  parentId : Option Id
  sortOrder : Option Int

/-- A `parentId` of null takes the template out of its parent. -/
structure UpdateCategoryTemplateDto where
  name : Option String
  parentId : Option (Option Id)
  sortOrder : Option Int
  isActive : Option Bool

def ensureExists (id : Id) : Prog catalog Unit := do
  let template : Option CategoryTemplate ← .query (.templateById id) .ret
  Prog.throwIf template.isNone (.notFound "Category template not found")

def ensureParent (parentId : Option Id) : Prog catalog Unit :=
  match parentId with
  | none => .ret ()
  | some parentId => ensureExists parentId

def firstFreeSlug (base : String) : Nat → Nat → String → Prog catalog String
  | 0, _, slug => .ret slug
  | tries + 1, suffix, slug => do
      let taken : Option Id ← .query (.templateBySlug slug) .ret
      if taken.isNone then .ret slug
      else firstFreeSlug base tries (suffix + 1) (base ++ "-" ++ toString suffix)

/-- Of more slugs than there are templates, one is free: the last one needs no look. -/
def uniqueSlug (name : String) : Prog catalog String := do
  let slug ← Prog.call (.slugify name) .ret
  let base := if slug = "" then "category" else slug
  let count : Nat ← .query .templateCount .ret
  firstFreeSlug base count 2 base

def create (dto : CreateCategoryTemplateDto) : Prog catalog Unit := do
  ensureParent dto.parentId
  let slug ← uniqueSlug dto.name
  let id ← uuid
  insertOne (.insertTemplate id
    { name := dto.name, slug, parentId := dto.parentId, sortOrder := dto.sortOrder.getD 0
      isActive := true })

def update (id : Id) (dto : UpdateCategoryTemplateDto) : Prog catalog Unit := do
  ensureExists id
  Prog.throwIf (dto.parentId == some (some id))
    (.badRequest "A category cannot be its own parent")
  ensureParent dto.parentId.join
  updateOne (.updateTemplate id
    { name := dto.name, parentId := dto.parentId, sortOrder := dto.sortOrder
      isActive := dto.isActive })

/-- The foreign key takes the children of the row out of it. -/
def remove (id : Id) : Prog catalog Unit := do
  ensureExists id
  let children : List Id ← .query (.childTemplates id) .ret
  updateOne (.deleteTemplate id)
  Prog.each (fun child => updateMany (.dropParent child)) children

inductive Request where
  | create (dto : CreateCategoryTemplateDto)
  | update (id : Id) (dto : UpdateCategoryTemplateDto)
  | remove (id : Id)

def handler : Request → Prog catalog Unit
  | .create dto => create dto
  | .update id dto => update id dto
  | .remove id => remove id

end CategoryTemplatesService

/-! ## Images -/

/-- `LOCAL_UPLOAD_FILE`: a name of letters, digits, `_` and `-`, and `.webp`. -/
def isLocalUploadFile (file : String) : Bool :=
  file.endsWith ".webp" && (file.toList.dropLast.dropLast.dropLast.dropLast.dropLast != []) &&
    file.toList.dropLast.dropLast.dropLast.dropLast.dropLast.all fun c =>
      c.isAlphanum || c == '_' || c == '-'

/-- A local upload path inside the tenant's own folder. -/
def isOwnUploadUrl (tenantId : Id) (url : String) : Bool :=
  let folder := "/uploads/" ++ toString tenantId ++ "/"
  url.startsWith folder && isLocalUploadFile (String.ofList (url.toList.drop folder.length))

def assertSafeImageUrl (tenantId : Id) (url field : String) : Prog catalog Unit :=
  if url = "" then .ret ()
  else if url.startsWith "/" then
    Prog.throwIf (!isOwnUploadUrl tenantId url)
      (.badRequest (field ++ " must be one of your own uploads"))
  else do
    let protocol ← Prog.call (.urlProtocol url) .ret
    Prog.throwIf (protocol != some "http:" && protocol != some "https:")
      (.badRequest (field ++ " must be an uploaded image or an http(s) URL"))

namespace ProductsService

structure AddProductImageDto where
  url : String
  isCover : Option Bool

def findOne (tenantId id : Id) : Prog catalog Product := do
  let product : Option Product ← .query (.product tenantId id) .ret
  Prog.orThrow product (.notFound "Product not found")

/-- `updateMany({ where: { productId }, data: { isCover: false } })`. -/
def clearCovers (tenantId productId : Id) : Prog catalog Unit := do
  let images : List (Id × ProductImage) ← .query (.images tenantId productId) .ret
  Prog.each (fun image => updateMany (.setCover tenantId image.1 false)) images

/-- The highest `sortOrder`, if there is an image. -/
def maxSortOrder (images : List (Id × ProductImage)) : Option Int :=
  (images.map fun image => image.2.sortOrder).max?

def addImage (tenantId productId : Id) (dto : AddProductImageDto) : Prog catalog Unit := do
  assertSafeImageUrl tenantId dto.url "url"
  let _ ← findOne tenantId productId
  Prog.runIf (dto.isCover.getD false) (clearCovers tenantId productId)
  let images : List (Id × ProductImage) ← .query (.images tenantId productId) .ret
  let id ← uuid
  insertOne (.insertImage id
    { tenantId, productId, url := dto.url, isCover := dto.isCover.getD false
      sortOrder := (maxSortOrder images).getD (-1) + 1 })

def removeImage (tenantId productId imageId : Id) : Prog catalog Unit := do
  let _ ← findOne tenantId productId
  let found : Option ProductImage ← .query (.image tenantId productId imageId) .ret
  let image ← Prog.orThrow found (.notFound "Image not found")
  updateOne (.deleteImage tenantId imageId)
  Prog.call (.deleteUploadedFile image.url tenantId) .ret

/-- The new cover is found by its own id alone. -/
def setCoverImage (tenantId productId imageId : Id) : Prog catalog Unit := do
  let _ ← findOne tenantId productId
  clearCovers tenantId productId
  updateOne (.setCover tenantId imageId true)

/-- As sets, the ids given are not those of the images. -/
def isMismatch (existing imageIds : List Id) : Bool :=
  existing.dedup.length != imageIds.dedup.length || existing.any fun id => !imageIds.contains id

def reorderImages (tenantId productId : Id) (imageIds : List Id) : Prog catalog Unit := do
  let _ ← findOne tenantId productId
  let existing : List (Id × ProductImage) ← .query (.images tenantId productId) .ret
  Prog.throwIf (isMismatch (existing.map Prod.fst) imageIds)
    (.badRequest "imageIds must match this product's current images exactly")
  Prog.each (fun image => updateOne (.setSortOrder tenantId image.1 image.2)) imageIds.zipIdx

inductive Request where
  | addImage (tenantId productId : Id) (dto : AddProductImageDto)
  | removeImage (tenantId productId imageId : Id)
  | setCoverImage (tenantId productId imageId : Id)
  | reorderImages (tenantId productId : Id) (imageIds : List Id)

def Request.productId : Request → Id
  | .addImage _ productId _ => productId
  | .removeImage _ productId _ => productId
  | .setCoverImage _ productId _ => productId
  | .reorderImages _ productId _ => productId

def handler : Request → Prog catalog Unit
  | .addImage tenantId productId dto => addImage tenantId productId dto
  | .removeImage tenantId productId imageId => removeImage tenantId productId imageId
  | .setCoverImage tenantId productId imageId => setCoverImage tenantId productId imageId
  | .reorderImages tenantId productId imageIds => reorderImages tenantId productId imageIds

end ProductsService

/-! ## Scheduled prices -/

namespace DigitalService

def addSchedule (tenantId productId : Id) (price : Cents) (effectiveFrom : Time) :
    Prog catalog Unit := do
  let product : Option Product ← .query (.product tenantId productId) .ret
  Prog.throwIf product.isNone (.notFound "Product not found")
  let now : Time ← .call .now .ret
  Prog.throwIf (decide (effectiveFrom ≤ now))
    (.badRequest "The effective date must be in the future")
  let taken : Option Id ← .query (.scheduleFor productId effectiveFrom) .ret
  Prog.throwIf taken.isSome (.conflict "A price change is already scheduled for that moment")
  let id ← uuid
  insertOne (.insertSchedule id { tenantId, productId, price, effectiveFrom, appliedAt := none })

def removeSchedule (tenantId productId id : Id) : Prog catalog Unit := do
  let found : Option ProductPriceSchedule ← .query (.schedule tenantId productId id) .ret
  let row ← Prog.orThrow found (.notFound "Scheduled price not found")
  Prog.throwIf row.appliedAt.isSome (.conflict "This price change was already applied")
  updateOne (.deleteSchedule tenantId id)

/-- `Map.set`: a key that is there keeps its place. -/
def mapSet {β : Type} (m : List (Id × β)) (k : Id) (v : β) : List (Id × β) :=
  if m.any (fun e => e.1 == k) then m.map fun e => if e.1 = k then (k, v) else e
  else m ++ [(k, v)]

def latest (due : List (Id × ProductPriceSchedule)) : List (Id × ProductPriceSchedule) :=
  due.foldl (fun m row => mapSet m row.2.productId row.2) []

/-- The due prices, in the order they take effect, the newest of each product kept. -/
def applyDuePrices (now : Time) : Prog catalog Nat := do
  let due : List (Id × ProductPriceSchedule) ← .query (.due now) .ret
  Prog.each (fun row => updateMany (.setPrice row.2.productId row.2.price)) (latest due)
  Prog.each (fun row => updateMany (.markApplied row.1 now)) due
  .ret (latest due).length

inductive Request where
  | addSchedule (tenantId productId : Id) (price : Cents) (effectiveFrom : Time)
  | removeSchedule (tenantId productId id : Id)
  | applyDuePrices (now : Time)

def handler : Request → Prog catalog Unit
  | .addSchedule tenantId productId price effectiveFrom =>
      addSchedule tenantId productId price effectiveFrom
  | .removeSchedule tenantId productId id => removeSchedule tenantId productId id
  | .applyDuePrices now => do
      let _ ← applyDuePrices now
      .ret ()

end DigitalService

end WhatStore.Catalog
