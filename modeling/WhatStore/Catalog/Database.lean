import WhatStore.Shop.Rows
import WhatStore.ReadCommitted.Program
import Mathlib.Data.List.Sort

/-!
# The database of the catalogue

The schema `catalog` of the services that keep the category templates, the images of
products and the scheduled prices: the tables they read and write, and one query or update
for each Prisma statement. Inside a request of a store, row level security leaves only the
rows of that store.
-/

namespace WhatStore.Catalog

open ReadCommitted

/-! ## Rows -/

structure CategoryTemplate where
  name : String
  slug : String
  parentId : Option Id
  sortOrder : Int
  isActive : Bool
  deriving DecidableEq

structure Product where
  tenantId : Id
  price : Cents
  deriving DecidableEq

structure ProductImage where
  tenantId : Id
  productId : Id
  url : String
  isCover : Bool
  sortOrder : Int
  deriving DecidableEq

/-- `appliedAt` is set when the sweep copied `price` into the product. -/
structure ProductPriceSchedule where
  tenantId : Id
  productId : Id
  price : Cents
  effectiveFrom : Time
  appliedAt : Option Time
  deriving DecidableEq

inductive Key where
  | template (id : Id)
  | product (id : Id)
  | image (id : Id)
  | schedule (id : Id)
  deriving DecidableEq

@[reducible] def Row : Key → Type
  | .template _ => CategoryTemplate
  | .product _ => Product
  | .image _ => ProductImage
  | .schedule _ => ProductPriceSchedule

abbrev Database := Store Key Row

/-! ## Queries -/

inductive Query where
  | templateById (id : Id)
  | templateBySlug (slug : String)
  | templateCount
  | templates
  | activeTemplates
  | childTemplates (id : Id)
  | product (tenantId id : Id)
  | images (tenantId productId : Id)
  | image (tenantId productId id : Id)
  | due (now : Time)
  | scheduleFor (productId : Id) (effectiveFrom : Time)
  | schedule (tenantId productId id : Id)

@[reducible] def Query.Result : Query → Type
  | .templateById _ => Option CategoryTemplate
  | .templateBySlug _ => Option Id
  | .templateCount => Nat
  | .templates => List (Id × CategoryTemplate)
  | .activeTemplates => List (Id × CategoryTemplate)
  | .childTemplates _ => List Id
  | .product _ _ => Option Product
  | .images _ _ => List (Id × ProductImage)
  | .image _ _ _ => Option ProductImage
  | .due _ => List (Id × ProductPriceSchedule)
  | .scheduleFor _ _ => Option Id
  | .schedule _ _ _ => Option ProductPriceSchedule

def templatesWhere (s : Database) (p : CategoryTemplate → Bool) : List (Id × CategoryTemplate) :=
  s.keys.filterMap fun
    | .template id => ((s.row (.template id)).filter p).map fun t => (id, t)
    | _ => none

def imagesWhere (s : Database) (p : ProductImage → Bool) : List (Id × ProductImage) :=
  s.keys.filterMap fun
    | .image id => ((s.row (.image id)).filter p).map fun i => (id, i)
    | _ => none

def schedulesWhere (s : Database) (p : ProductPriceSchedule → Bool) :
    List (Id × ProductPriceSchedule) :=
  s.keys.filterMap fun
    | .schedule id => ((s.row (.schedule id)).filter p).map fun row => (id, row)
    | _ => none

/-- `orderBy: [{ sortOrder: 'asc' }, { name: 'asc' }]`. -/
def inOrder (rows : List (Id × CategoryTemplate)) : List (Id × CategoryTemplate) :=
  rows.insertionSort fun a b => a.2.sortOrder < b.2.sortOrder ∨
    (a.2.sortOrder = b.2.sortOrder ∧ a.2.name ≤ b.2.name)

/-- Not applied yet, and no later than `now`. -/
def ProductPriceSchedule.isDue (row : ProductPriceSchedule) (now : Time) : Bool :=
  row.appliedAt.isNone && decide (row.effectiveFrom ≤ now)

def Query.eval : (q : Query) → Database → q.Result
  | .templateById id, s => s.row (.template id)
  | .templateBySlug slug, s => (templatesWhere s fun t => t.slug == slug).head?.map Prod.fst
  | .templateCount, s => (templatesWhere s fun _ => true).length
  | .templates, s => inOrder (templatesWhere s fun _ => true)
  | .activeTemplates, s => inOrder (templatesWhere s CategoryTemplate.isActive)
  | .childTemplates id, s => (templatesWhere s fun t => t.parentId == some id).map Prod.fst
  | .product tenantId id, s => (s.row (.product id)).filter fun p : Product => p.tenantId == tenantId
  | .images tenantId productId, s => imagesWhere s fun i =>
      i.tenantId == tenantId && i.productId == productId
  | .image tenantId productId id, s => (s.row (.image id)).filter fun i : ProductImage =>
      i.tenantId == tenantId && i.productId == productId
  | .due now, s => (schedulesWhere s fun row => row.isDue now).insertionSort fun a b =>
      a.2.effectiveFrom ≤ b.2.effectiveFrom
  | .scheduleFor productId effectiveFrom, s => (schedulesWhere s fun row =>
      row.productId == productId && row.effectiveFrom == effectiveFrom).head?.map Prod.fst
  | .schedule tenantId productId id, s =>
      (s.row (.schedule id)).filter fun row : ProductPriceSchedule =>
        row.tenantId == tenantId && row.productId == productId

/-! ## Updates -/

/-- A field a request does not set is left as it was. -/
structure TemplateData where
  name : Option String
  parentId : Option (Option Id)
  sortOrder : Option Int
  isActive : Option Bool

inductive Update where
  | insertTemplate (id : Id) (row : CategoryTemplate)
  | updateTemplate (id : Id) (data : TemplateData)
  | dropParent (id : Id)
  | deleteTemplate (id : Id)
  | setCover (tenantId id : Id) (isCover : Bool)
  | setSortOrder (tenantId id : Id) (sortOrder : Int)
  | insertImage (id : Id) (row : ProductImage)
  | deleteImage (tenantId id : Id)
  | setPrice (id : Id) (price : Cents)
  | markApplied (id : Id) (now : Time)
  | insertSchedule (id : Id) (row : ProductPriceSchedule)
  | deleteSchedule (tenantId id : Id)

def Update.key : Update → Key
  | .insertTemplate id _ => .template id
  | .updateTemplate id _ => .template id
  | .dropParent id => .template id
  | .deleteTemplate id => .template id
  | .setCover _ id _ => .image id
  | .setSortOrder _ id _ => .image id
  | .insertImage id _ => .image id
  | .deleteImage _ id => .image id
  | .setPrice id _ => .product id
  | .markApplied id _ => .schedule id
  | .insertSchedule id _ => .schedule id
  | .deleteSchedule _ id => .schedule id

def Update.guard : (u : Update) → Option (Row u.key) → Bool
  | .insertTemplate _ _, v => v.isNone
  | .updateTemplate _ _, v => v.isSome
  | .dropParent _, v => v.isSome
  | .deleteTemplate _, v => v.isSome
  | .setCover tenantId _ _, v => v.any fun i : ProductImage => i.tenantId == tenantId
  | .setSortOrder tenantId _ _, v => v.any fun i : ProductImage => i.tenantId == tenantId
  | .insertImage _ _, v => v.isNone
  | .deleteImage tenantId _, v => v.any fun i : ProductImage => i.tenantId == tenantId
  | .setPrice _ _, v => v.isSome
  | .markApplied _ _, v => v.isSome
  | .insertSchedule _ _, v => v.isNone
  | .deleteSchedule tenantId _, v => v.any fun s : ProductPriceSchedule => s.tenantId == tenantId

def Update.change : (u : Update) → Option (Row u.key) → Option (Row u.key)
  | .insertTemplate _ row, _ => some row
  | .updateTemplate _ data, v => v.map fun t : CategoryTemplate =>
      { t with name := data.name.getD t.name, parentId := data.parentId.getD t.parentId
               sortOrder := data.sortOrder.getD t.sortOrder
               isActive := data.isActive.getD t.isActive }
  | .dropParent _, v => v.map fun t : CategoryTemplate => { t with parentId := none }
  | .deleteTemplate _, _ => none
  | .setCover _ _ isCover, v => v.map fun i : ProductImage => { i with isCover }
  | .setSortOrder _ _ sortOrder, v => v.map fun i : ProductImage => { i with sortOrder }
  | .insertImage _ row, _ => some row
  | .deleteImage _ _, _ => none
  | .setPrice _ price, v => v.map fun p : Product => { p with price }
  | .markApplied _ now, v => v.map fun s : ProductPriceSchedule => { s with appliedAt := some now }
  | .insertSchedule _ row, _ => some row
  | .deleteSchedule _ _, _ => none

/-! ## Calls and errors -/

inductive Call where
  | now
  | uuid
  /-- The ASCII form of a name: lower case, words joined by hyphens. -/
  | slugify (name : String)
  /-- The protocol of a URL that parses. -/
  | urlProtocol (url : String)
  | deleteUploadedFile (url : String) (tenantId : Id)

@[reducible] def Call.Answer : Call → Type
  | .now => Time
  | .uuid => Id
  | .slugify _ => String
  | .urlProtocol _ => Option String
  | .deleteUploadedFile _ _ => Unit

inductive Err where
  | badRequest (message : String)
  | notFound (message : String)
  | conflict (message : String)
  /-- Prisma's error for an `update` or a `delete` without a row. -/
  | recordNotFound
  /-- A constraint of the database failed. -/
  | failure (message : String)
  deriving DecidableEq

@[reducible] def catalog : Schema where
  Key := Key
  Row := Row
  Query := Query
  Result := Query.Result
  eval := Query.eval
  Update := Update
  key := Update.key
  guard := Update.guard
  change := Update.change
  Call := Call
  Answer := Call.Answer
  Err := Err

end WhatStore.Catalog
