import WhatStore.Html.References

/-!
# Link previews

`PreviewService`: the page that a link to a store or to one of its products shows
to those who unfurl it. Texts of the store, and the path that was asked for, stand
in attributes and in elements, each escaped.
-/

namespace WhatStore.Preview

open Text Html

/-! ## Texts -/

/-- `value.replace(/c/g, replacement)` for a single character. -/
def replaceUnit (c : UInt16) (replacement value : Units) : Units :=
  value.flatMap fun u => if u = c then replacement else [u]

def escapeHtml (value : Units) : Units :=
  replaceUnit apostrophe (unitsOf "&#39;")
    (replaceUnit quotationMark (unitsOf "&quot;")
      (replaceUnit (unit '>') (unitsOf "&gt;")
        (replaceUnit (unit '<') (unitsOf "&lt;")
          (replaceUnit (unit '&') (unitsOf "&amp;") value))))

/-- What counts as false in a condition is no text. -/
def truthy (value : Option Units) : Option Units := value.filter fun text => text ≠ []

def truncate (value : Option Units) (max : ℕ) : Option Units :=
  match truthy value with
  | none => none
  | some value =>
      let text := trimUnits (collapse value)
      if text = [] then none
      else some (if max < text.length then text.take (max - 1) ++ [unit '…'] else text)

theorem truncate_eq_some {value : Option Units} {max : ℕ} {text : Units} (hmax : 0 < max)
    (h : truncate value max = some text) : text ≠ [] ∧ text.length ≤ max := by
  rw [truncate] at h
  split at h
  · cases h
  · simp only at h
    split at h
    · cases h
    · next hne =>
        split at h
        · next hlong =>
            cases h
            simp only [List.length_append, List.length_take, List.length_singleton]
            constructor
            · simp
            · omega
        · next hshort =>
            cases h
            exact ⟨hne, by omega⟩

def absoluteUrl (url : Option Units) (origin : Units) : Option Units :=
  match truthy url with
  | none => none
  | some url =>
      some (if (unitsOf "http").isPrefixOf url then url
        else origin ++ (if (unitsOf "/").isPrefixOf url then [] else unitsOf "/") ++ url)

/-! ## Pages -/

inductive PageType where
  | website
  | product

def PageType.toUnits : PageType → Units
  | .website => unitsOf "website"
  | .product => unitsOf "product"

structure Price where
  amount : Units
  currency : Units

structure PageMeta where
  title : Units
  description : Option Units
  image : Option Units
  canonical : Units
  siteName : Units
  type : PageType
  price : Option Price

def PageMeta.tags (page : PageMeta) : List Units :=
  let e := escapeHtml
  [unitsOf "<title>" ++ e page.title ++ unitsOf "</title>",
    unitsOf "<link rel=\"canonical\" href=\"" ++ e page.canonical ++ unitsOf "\">",
    unitsOf "<meta property=\"og:type\" content=\"" ++ page.type.toUnits ++ unitsOf "\">",
    unitsOf "<meta property=\"og:title\" content=\"" ++ e page.title ++ unitsOf "\">",
    unitsOf "<meta property=\"og:url\" content=\"" ++ e page.canonical ++ unitsOf "\">",
    unitsOf "<meta property=\"og:site_name\" content=\"" ++ e page.siteName ++ unitsOf "\">",
    unitsOf "<meta name=\"twitter:card\" content=\"" ++
      (if (truthy page.image).isSome then unitsOf "summary_large_image" else unitsOf "summary") ++
      unitsOf "\">",
    unitsOf "<meta name=\"twitter:title\" content=\"" ++ e page.title ++ unitsOf "\">"] ++
  (truthy page.description).elim [] (fun description => [
    unitsOf "<meta name=\"description\" content=\"" ++ e description ++ unitsOf "\">",
    unitsOf "<meta property=\"og:description\" content=\"" ++ e description ++ unitsOf "\">",
    unitsOf "<meta name=\"twitter:description\" content=\"" ++ e description ++ unitsOf "\">"]) ++
  (truthy page.image).elim [] (fun image => [
    unitsOf "<meta property=\"og:image\" content=\"" ++ e image ++ unitsOf "\">",
    unitsOf "<meta name=\"twitter:image\" content=\"" ++ e image ++ unitsOf "\">"]) ++
  page.price.elim [] (fun price => [
    unitsOf "<meta property=\"product:price:amount\" content=\"" ++ e price.amount ++ unitsOf "\">",
    unitsOf "<meta property=\"product:price:currency\" content=\"" ++ e price.currency ++ unitsOf "\">"])

def html (page : PageMeta) : Units :=
  let e := escapeHtml
  unitsOf "<!doctype html>\n<html lang=\"es\">\n<head>\n<meta charset=\"utf-8\">\n" ++
    unitsOf "<meta name=\"viewport\" content=\"width=device-width, initial-scale=1.0\">\n" ++
    (unitsOf "\n").intercalate page.tags ++
    unitsOf "\n</head>\n<body>\n<h1>" ++ e page.title ++ unitsOf "</h1>\n" ++
    (truthy page.description).elim [] (fun description =>
      unitsOf "<p>" ++ e description ++ unitsOf "</p>") ++
    unitsOf "\n<p><a href=\"" ++ e page.canonical ++ unitsOf "\">" ++ e page.siteName ++
    unitsOf "</a></p>\n</body>\n</html>"

/-! ## Requests -/

structure Tenant where
  id : ℕ
  slug : Units
  isActive : Bool
  name : Units
  tagline : Option Units
  about : Option Units
  logoUrl : Option Units
  bannerUrl : Option Units
  currency : Units

structure ProductImage where
  url : Units
  isCover : Bool

structure Product where
  id : ℕ
  tenantId : ℕ
  isPublished : Bool
  isActive : Bool
  name : Units
  description : Option Units
  /-- In cents. -/
  price : ℤ
  images : List ProductImage

structure Database where
  tenants : List Tenant
  products : List Product
  /-- The id that a text denotes. A query with any other text is refused. -/
  readId : Units → Option ℕ

structure PreviewRequest where
  path : Units
  hostSlug : Option Units
  origin : Units

def isLineTerminator (u : UInt16) : Bool := u = 10 ∨ u = 13 ∨ u = 0x2028 ∨ u = 0x2029

/-- `/^\/store\/([^/]+)(\/.*)?$/`, as the slug and what follows it. -/
def matchStore (pathname : Units) : Option (Units × Option Units) :=
  if (unitsOf "/store/").isPrefixOf pathname then
    let rest := pathname.drop (unitsOf "/store/").length
    let slug := rest.takeWhile fun u => u ≠ unit '/'
    let subpath := rest.dropWhile fun u => u ≠ unit '/'
    if slug = [] ∨ subpath.any isLineTerminator then none
    else some (slug, if subpath = [] then none else some subpath)
  else none

/-- `/^\/product\/([^/?#]+)/`. -/
def matchProduct (subpath : Units) : Option Units :=
  if (unitsOf "/product/").isPrefixOf subpath then
    truthy (some ((subpath.drop (unitsOf "/product/").length).takeWhile fun u =>
      u ≠ unit '/' ∧ u ≠ unit '?' ∧ u ≠ unit '#'))
  else none

def fallbackMeta (origin pathname : Units) : PageMeta where
  title := unitsOf "Yorde What Store"
  description := some (unitsOf "Multitenant ecommerce with WhatsApp, Telegram and card checkout.")
  image := none
  canonical := origin ++ pathname
  siteName := unitsOf "Yorde What Store"
  type := .website
  price := none

def storeMeta (tenant : Tenant) (origin canonical : Units) : PageMeta where
  title := match truthy tenant.tagline with
    | some tagline => tenant.name ++ unitsOf " — " ++ tagline
    | none => tenant.name
  description := (truncate tenant.about 200).or (truncate tenant.tagline 200)
  image := absoluteUrl (tenant.bannerUrl.or tenant.logoUrl) origin
  canonical := canonical
  siteName := tenant.name
  type := .website
  price := none

/-- `Number(price).toFixed(2)`. -/
def amountText (price : ℤ) : Units := (toFixed2 price).map unit

def productMeta (tenant : Tenant) (product : Product) (origin canonical : Units) : PageMeta where
  title := product.name ++ unitsOf " — " ++ tenant.name
  description := (truncate product.description 200).or (truncate tenant.tagline 200)
  image :=
    let cover := (product.images.find? ProductImage.isCover).or product.images.head?
    absoluteUrl ((cover.map ProductImage.url).or (tenant.bannerUrl.or tenant.logoUrl)) origin
  canonical := canonical
  siteName := tenant.name
  type := .product
  price := some ⟨amountText product.price, tenant.currency⟩

def Database.findTenant (db : Database) (slug : Units) : Option Tenant :=
  db.tenants.find? fun tenant => tenant.slug = slug && tenant.isActive

def Database.findProduct (db : Database) (tenantId productId : ℕ) : Option Product :=
  db.products.find? fun product => product.id = productId && product.tenantId = tenantId &&
    product.isPublished && product.isActive

/-- What the page shows, unless an escape of the path is malformed or the id is none. -/
def pageMeta (db : Database) (request : PreviewRequest) : Option PageMeta := do
  let { path, hostSlug, origin } := request
  let first := path.takeWhile fun u => u ≠ unit '?' ∧ u ≠ unit '#'
  let pathname := if first = [] then unitsOf "/" else first
  let pathMatch := matchStore pathname
  let slug ← match pathMatch with
    | some (slug, _) => (decodeURIComponent slug).map some
    | none => some hostSlug
  let subpath := match pathMatch with
    | some (_, subpath) => subpath.getD (unitsOf "/")
    | none => pathname
  match (truthy slug).bind db.findTenant with
  | none => some (fallbackMeta origin pathname)
  | some tenant =>
      let canonical := origin ++ pathname
      match matchProduct subpath with
      | none => some (storeMeta tenant origin canonical)
      | some productMatch => do
          let productId ← (decodeURIComponent productMatch).bind db.readId
          match db.findProduct tenant.id productId with
          | some product => some (productMeta tenant product origin canonical)
          | none => some (storeMeta tenant origin canonical)

def render (db : Database) (request : PreviewRequest) : Option Units :=
  (pageMeta db request).map html

end WhatStore.Preview
