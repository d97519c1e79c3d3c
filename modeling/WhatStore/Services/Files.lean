import WhatStore.Services.Settings

/-!
# Deleting files and products

`DigitalService.removeAsset` and `filesForProductDeletion`, and
`ProductsService.remove`. What the foreign keys delete or clear along with a
row (`ON DELETE CASCADE`, `ON DELETE SET NULL`) is issued row by row.
-/

namespace WhatStore

open ReadCommitted

/-- The grants of a file that is deleted go with it. -/
def removeGrants (assetId : Id) : Prog shop Unit := do
  let grants : List Id ← .query (.grantsOfAsset assetId) .ret
  Prog.each (fun grantId => do let _ ← updateMany (.deleteGrant grantId)) grants

def removeAsset (tenantId productId assetId : Id) : Prog shop Unit := do
  let found : Option DigitalAsset ← .query (.asset tenantId productId assetId) .ret
  let asset ← Prog.orThrow found (.notFound "File not found")
  -- buyers already hold links to it
  let delivered : List Id ← .query (.grantsOfAsset assetId) .ret
  Prog.throwIf (!delivered.isEmpty)
    (.conflict "This file was already delivered to buyers and cannot be deleted")
  updateOne (.deleteAsset assetId)
  removeGrants assetId
  .call (.removeObject asset.storageKey) .ret

/-- Called before a product is deleted: the storage keys of its files. Refuses
while any buyer still depends on those files. -/
def filesForProductDeletion (tenantId productId : Id) : Prog shop (List Id) := do
  let assets : List (Id × DigitalAsset) ← .query (.assetsOf tenantId productId) .ret
  if assets.isEmpty then .ret [] else do
    let dependants : Nat ← .query (.dependants productId) .ret
    Prog.throwIf (decide (0 < dependants))
      (.conflict ("This product has orders and cannot be deleted: its buyers would lose their " ++
        "downloads. Unpublish it instead."))
    .ret (assets.map fun a => a.2.storageKey)

/-- A file of a product that is deleted goes with it. -/
def removeAssetRow (assetId : Id) : Prog shop Unit := do
  let _ ← updateMany (.deleteAsset assetId)
  removeGrants assetId

/-- Deletes the row of a product. Its files and variants go with it; order items
lose their product. -/
def deleteProductRow (tenantId id : Id) : Prog shop Unit := do
  updateOne (.deleteProduct id)
  let assets : List (Id × DigitalAsset) ← .query (.assetsOf tenantId id) .ret
  Prog.each (fun a => removeAssetRow a.1) assets
  let variants : List Id ← .query (.variantsOf id) .ret
  Prog.each removeVariant variants
  let items : List Id ← .query (.itemsOfProduct id) .ret
  Prog.each (fun itemId => do let _ ← updateMany (.clearProduct itemId id)) items

/-- `ProductsService.remove`. Answers the objects to remove after the commit. -/
def removeProduct (tenantId id : Id) : Prog shop (List Id) := do
  let found : List (Id × Product × List (Id × ProductVariant)) ←
    .query (.products tenantId [id] false) .ret
  let _ ← Prog.orThrow found.head? (.notFound "Product not found")
  let storedFiles ← filesForProductDeletion tenantId id
  deleteProductRow tenantId id
  .ret storedFiles

/-- Best-effort removal of objects whose rows are already gone. -/
def removeStoredFiles : List Id → Prog shop Unit :=
  Prog.each fun storageKey => .call (.removeObject storageKey) .ret

end WhatStore
