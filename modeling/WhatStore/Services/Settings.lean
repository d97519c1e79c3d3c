import WhatStore.Shop.Database

/-!
# Store settings and the catalog

The parts of `TenantsService.update` and `ProductsService.update` that touch
what orders depend on: whether the store tracks inventory, what kind of goods
it sells, and the stock of products and variants.
-/

namespace WhatStore

open ReadCommitted

/-- The settings a merchant sends; a field that is `none` was not sent. -/
structure UpdateTenant where
  tracksInventory : Option Bool
  catalogType : Option CatalogType

/-- The settings to write: the catalog type is locked once the store has
products, and a digital store has no inventory to track. -/
def tenantEdit (tenantId : Id) (dto : UpdateTenant) : Prog shop TenantEdit :=
  if dto.catalogType.isNone && dto.tracksInventory != some true then
    .ret ⟨dto.tracksInventory, dto.catalogType⟩
  else do
    let current ← getTenant tenantId
    let next := dto.catalogType.getD current.catalogType
    Prog.runIf (dto.catalogType.any fun c => c != current.catalogType) do
      let count : Nat ← .query (.productCount tenantId) .ret
      Prog.throwIf (decide (0 < count))
        (.conflict "The catalog type cannot change once the store has products")
    if next == .digital then do
      Prog.throwIf (dto.tracksInventory == some true)
        (.badRequest "A digital store has no inventory to track")
      .ret ⟨some false, dto.catalogType⟩
    else .ret ⟨dto.tracksInventory, dto.catalogType⟩

def updateTenant (tenantId : Id) (dto : UpdateTenant) : Prog shop Unit := do
  let _ ← findTenant tenantId
  let edit ← tenantEdit tenantId dto
  updateOne (.editTenant tenantId edit)

structure VariantInput where
  name : String
  price : Cents
  quantity : Int
  quantity_nonneg : 0 ≤ quantity

/-- The product fields a merchant sends; a field that is `none` was not sent. -/
structure UpdateProduct where
  name : Option String
  price : Option Cents
  quantity : Option Int
  quantity_nonneg : ∀ q ∈ quantity, 0 ≤ q
  isActive : Option Bool
  isPublished : Option Bool
  variants : Option (List VariantInput)

/-- One row of `productVariant.deleteMany`. Order items that name the variant
lose it (`ON DELETE SET NULL`). -/
def removeVariant (variantId : Id) : Prog shop Unit := do
  let _ ← updateMany (.deleteVariant variantId)
  let items : List Id ← .query (.itemsOfVariant variantId) .ret
  Prog.each (fun itemId => do let _ ← updateMany (.clearVariant itemId variantId)) items

def createVariant (tenantId productId : Id) (v : VariantInput) : Prog shop Unit := do
  let id ← uuid
  insertOne (.insertVariant id
    { tenantId, productId, name := v.name, price := v.price, quantity := v.quantity })

/-- Replaces the variants of a product by new ones. -/
def replaceVariants (tenantId productId : Id) (variants : List VariantInput) :
    Prog shop Unit := do
  let old : List Id ← .query (.variantsOf productId) .ret
  Prog.each removeVariant old
  Prog.each (createVariant tenantId productId) variants

def updateProduct (tenantId id : Id) (dto : UpdateProduct) : Prog shop Unit := do
  let found : List (Id × Product × List (Id × ProductVariant)) ←
    .query (.products tenantId [id] false) .ret
  let (_, existing, _) ← Prog.orThrow found.head? (.notFound "Product not found")
  let wasLive := existing.isActive && existing.isPublished
  let willBeLive := dto.isActive.getD existing.isActive && dto.isPublished.getD existing.isPublished
  Prog.runIf (willBeLive && !wasLive) do
    let allowed : Bool ← .call (.underLiveProductLimit tenantId) .ret
    Prog.throwIf (!allowed) (.forbidden "Your current plan allows no more live products")
  match dto.variants with
  | some variants => replaceVariants tenantId id variants
  | none => .ret ()
  updateOne (.editProduct id
    { name := dto.name, price := dto.price, quantity := dto.quantity, isActive := dto.isActive
      isPublished := dto.isPublished
      hasVariants := dto.variants.map fun variants => !variants.isEmpty })

end WhatStore
