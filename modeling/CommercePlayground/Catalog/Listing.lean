/-
CommercePlayground.Catalog.Listing — the product queries of the catalog.

`JdbcCatalogRepository.findBySku` and `findProducts` on the tables of migration 001.
A product is joined with its tenant and its category, and with at most one variant and
one price (`LEFT JOIN LATERAL … LIMIT 1`).

How names compare is the database's affair: `Collation` has its `ILIKE` and its order of
texts, which is total.
-/
import Mathlib.Data.List.Sort
import Mathlib.Data.List.Lex
import CommercePlayground.Lib.Table
import CommercePlayground.Propagation.Tenant

namespace CommercePlayground.Catalog.Listing

open Lib

/-! ## Tables -/

structure TenantRow where
  id : Text
  defaultCurrency : Text
  deriving DecidableEq

structure CategoryRow where
  id : Text
  tenantId : Text
  slug : Text
  name : Text
  deriving DecidableEq

inductive ProductStatus where
  | draft
  | active
  | archived
  deriving DecidableEq

/-- A row of `products`. -/
structure ProductRow where
  id : Text
  tenantId : Text
  categoryId : Text
  slug : Text
  name : Text
  description : Text
  brand : Option Text
  status : ProductStatus
  /-- `attributes ->> 'featured'` -/
  featured : Option Text
  createdAt : Int
  deriving DecidableEq

/-- A row of `product_variants`. -/
structure VariantRow where
  id : Text
  tenantId : Text
  productId : Text
  sku : Text
  active : Bool
  deriving DecidableEq

/-- A row of `prices`. -/
structure PriceRow where
  id : Text
  tenantId : Text
  variantId : Text
  currency : Text
  amountMinor : Int
  compareAtMinor : Option Int
  validFrom : Int
  validTo : Option Int
  isDefault : Bool
  deriving DecidableEq

structure Tables where
  tenants : List TenantRow
  categories : List CategoryRow
  products : List ProductRow
  variants : List VariantRow
  prices : List PriceRow

/-- The keys of the tables. -/
structure Tables.Valid (tables : Tables) : Prop where
  tenants : KeyUnique TenantRow.id tables.tenants
  categories : KeyUnique CategoryRow.id tables.categories
  products : KeyUnique ProductRow.id tables.products
  variants : KeyUnique VariantRow.id tables.variants
  skus : KeyUnique (fun variant => (variant.tenantId, variant.sku)) tables.variants
  productTenant : ∀ product ∈ tables.products, ∃ tenant ∈ tables.tenants,
    tenant.id = product.tenantId
  productCategory : ∀ product ∈ tables.products, ∃ category ∈ tables.categories,
    category.tenantId = product.tenantId ∧ category.id = product.categoryId
  variantProduct : ∀ variant ∈ tables.variants, ∃ product ∈ tables.products,
    product.tenantId = variant.tenantId ∧ product.id = variant.productId

/-- What the collation of the database decides. -/
structure Collation where
  ilike : Text → Text → Bool
  collate : Text → Text → Bool
  trans : ∀ a b c, collate a b = true → collate b c = true → collate a c = true
  total : ∀ a b, collate a b = true ∨ collate b a = true
  antisymm : ∀ a b, collate a b = true → collate b a = true → a = b

/-! ## Results -/

/-- `Category`, as the columns are read. -/
structure Category where
  id : Option Text
  tenantId : Option Text
  slug : Option Text
  name : Option Text
  deriving DecidableEq

structure PriceSnapshot where
  id : Option Text
  currency : Option Text
  amountMinor : Int
  compareAtMinor : Option Int
  validFrom : Int
  deriving DecidableEq

/-- `Product`. -/
structure Product where
  id : Option Text
  tenantId : Option Text
  slug : Option Text
  sku : Option Text
  name : Option Text
  description : Option Text
  brand : Option Text
  category : Category
  price : Option PriceSnapshot
  deriving DecidableEq

/-- The fields that `schema.graphqls` declares non-null. -/
structure Product.Complete (product : Product) : Prop where
  id : product.id.isSome
  tenantId : product.tenantId.isSome
  slug : product.slug.isSome
  sku : product.sku.isSome
  name : product.name.isSome
  description : product.description.isSome
  category : product.category.id.isSome ∧ product.category.tenantId.isSome ∧
    product.category.slug.isSome ∧ product.category.name.isSome
  price : ∀ price, product.price = some price → price.id.isSome ∧ price.currency.isSome

/-- The arithmetic of `int`. -/
def wrap32 (n : Int) : Int := (n + 2147483648) % 4294967296 - 2147483648

/-- The arithmetic of `long`. -/
def wrap64 (n : Int) : Int :=
  (n + 9223372036854775808) % 18446744073709551616 - 9223372036854775808

/-- `ProductPage`. -/
structure ProductPage where
  items : List Product
  page : Int
  size : Int
  totalElements : Int
  experience : Text
  deriving DecidableEq

/-- `getTotalPages`. -/
def ProductPage.getTotalPages (page : ProductPage) : Int :=
  if page.size = 0 then 0
  else wrap32 (Int.tdiv (wrap64 (page.totalElements + page.size - 1)) page.size)

/-- `isHasNext`: the page after this one is an `int`, the product is a `long`. -/
def ProductPage.isHasNext (page : ProductPage) : Bool :=
  decide (wrap64 (wrap32 (page.page + 1) * page.size) < page.totalElements)

/-! ## Rows -/

/-- A row of `PRODUCT_FROM`. -/
structure ResultRow where
  product : ProductRow
  category : CategoryRow
  variant : Option VariantRow
  price : Option PriceRow
  deriving DecidableEq

/-- The first lateral join: the smallest active variant, of the SKU if one is asked for. -/
def lateralVariant (collation : Collation) (tables : Tables) (product : ProductRow)
    (sku : Option Text) : Option VariantRow :=
  ((tables.variants.filter fun pv => pv.tenantId = product.tenantId ∧
      pv.productId = product.id ∧ pv.active = true ∧ sku.all (pv.sku = ·)).insertionSort
    fun a b => collation.collate a.id b.id = true).head?

/-- The second one: the newest default price that is valid now. -/
def lateralPrice (tables : Tables) (now : Int) (tenant : TenantRow) (product : ProductRow)
    (variant : Option VariantRow) : Option PriceRow :=
  ((tables.prices.filter fun pr => pr.tenantId = product.tenantId ∧
      variant.any (pr.variantId = ·.id) ∧ pr.currency = tenant.defaultCurrency ∧
      pr.isDefault = true ∧ pr.validFrom ≤ now ∧ pr.validTo.all (now < ·)).insertionSort
    fun a b => b.validFrom ≤ a.validFrom).head?

/-- `JOIN categories c ON c.tenant_id = p.tenant_id AND c.id = p.category_id`. -/
def categoriesOf (tables : Tables) (product : ProductRow) : List CategoryRow :=
  tables.categories.filter fun c => c.tenantId = product.tenantId ∧ c.id = product.categoryId

/-- `JOIN tenants t ON t.id = p.tenant_id`. -/
def tenantsOf (tables : Tables) (product : ProductRow) : List TenantRow :=
  tables.tenants.filter fun t => t.id = product.tenantId

/-- `PRODUCT_FROM`. -/
def productFrom (collation : Collation) (tables : Tables) (now : Int) (sku : Option Text) :
    List ResultRow :=
  tables.products.flatMap fun p => (tenantsOf tables p).flatMap fun t =>
    (categoriesOf tables p).map fun c =>
      let pv := lateralVariant collation tables p sku
      ⟨p, c, pv, lateralPrice tables now t p pv⟩

/-- `mapPrice`. -/
def mapPrice (row : ResultRow) : Option PriceSnapshot :=
  row.price.map fun pr =>
    ⟨some pr.id, some pr.currency, pr.amountMinor, pr.compareAtMinor, pr.validFrom⟩

/-- `mapProduct`. -/
def mapProduct (row : ResultRow) : Product where
  id := some row.product.id
  tenantId := some row.product.tenantId
  slug := some row.product.slug
  sku := row.variant.map VariantRow.sku
  name := some row.product.name
  description := some row.product.description
  brand := row.product.brand
  category := ⟨some row.category.id, some row.product.tenantId, some row.category.slug,
    some row.category.name⟩
  price := mapPrice row

/-! ## `findBySku` -/

/-- `EXISTS` of `findBySku`. -/
def hasVariant (tables : Tables) (product : ProductRow) (sku : Text) : Bool :=
  tables.variants.any fun pv => decide (pv.tenantId = product.tenantId ∧
    pv.productId = product.id ∧ pv.sku = sku ∧ pv.active = true)

/-- The rows of `findBySku`. -/
def skuRows (collation : Collation) (tables : Tables) (now : Int) (tenantId sku : Text) :
    List ResultRow :=
  (productFrom collation tables now (some sku)).filter fun row =>
    row.product.tenantId = tenantId ∧ row.product.status = .active ∧
      hasVariant tables row.product sku = true

/-- `optional`, which does not take a second row. -/
def optionalRow : List ResultRow → Except String (Option Product)
  | [] => .ok none
  | [row] => .ok (some (mapProduct row))
  | _ => .error "Incorrect result size"

/-- `findBySku`. -/
def findBySku (collation : Collation) (tables : Tables) (now : Int) (tenantId sku : Text) :
    Except String (Option Product) := do
  let tenantId ← Propagation.CatalogService.normalize tenantId
  optionalRow (skuRows collation tables now tenantId sku)

/-! ## `findProducts` -/

/-- The `WHERE` of both statements of `findProducts`. -/
def listed (collation : Collation) (tables : Tables) (tenantId : Text) (category : Option Text)
    (search : Text) (p : ProductRow) (c : CategoryRow) : Bool :=
  let pattern := "%".toList ++ search ++ "%".toList
  decide (p.tenantId = tenantId) && decide (p.status = .active) &&
    category.all (fun category => decide (c.slug = category)) &&
    (search.isEmpty || collation.ilike p.name pattern || collation.ilike p.slug pattern ||
      collation.ilike p.description pattern || tables.variants.any fun pv =>
        decide (pv.tenantId = p.tenantId ∧ pv.productId = p.id) && collation.ilike pv.sku pattern)

/-- `SELECT COUNT(*)`. -/
def countProducts (collation : Collation) (tables : Tables) (tenantId : Text)
    (category : Option Text) (search : Text) : Nat :=
  (tables.products.flatMap fun p => (categoriesOf tables p).filter fun c =>
    listed collation tables tenantId category search p c).length

/-- The white space that a boolean may have around it. -/
def isSpace (c : Char) : Bool := c = ' ' || decide (0x09 ≤ c.toNat ∧ c.toNat ≤ 0x0d)

/-- `TEXT::BOOLEAN`: a prefix of true, false, yes, no, on or off, or 1 or 0. -/
def readBoolean (s : Text) : Option Bool :=
  let s := String.ofList (toAsciiLowercase (trimMatches isSpace s))
  if s ∈ ["t", "tr", "tru", "true", "y", "ye", "yes", "on", "1"] then some true
  else if s ∈ ["f", "fa", "fal", "fals", "false", "n", "no", "of", "off", "0"] then some false
  else none

inductive OrderBy where
  | featured
  | newest
  | priceAsc
  | priceDesc
  | id
  deriving DecidableEq

/-- `switch (sort)`. -/
def orderBy (sort : Text) : OrderBy :=
  if sort = "featured".toList then .featured
  else if sort = "newest".toList then .newest
  else if sort = "price_asc".toList then .priceAsc
  else if sort = "price_desc".toList then .priceDesc
  else .id

/-- The sort keys before the id, the smallest first: `DESC` is the negative, and a null
stands last unless the key is descending and does not say otherwise. -/
def sortKeys (order : OrderBy) (row : ResultRow) : List Int :=
  match order with
  | .featured =>
    [match row.product.featured.bind readBoolean with
      | none => 0
      | some true => 1
      | some false => 2, -row.product.createdAt]
  | .newest => [-row.product.createdAt]
  | .priceAsc =>
    match row.price with
    | some price => [0, price.amountMinor]
    | none => [1]
  | .priceDesc =>
    match row.price with
    | some price => [0, -price.amountMinor]
    | none => [1]
  | .id => []

/-- `ORDER BY … , p.id`. -/
def precedes (collation : Collation) (order : OrderBy) (a b : ResultRow) : Prop :=
  sortKeys order a < sortKeys order b ∨
    sortKeys order a = sortKeys order b ∧ collation.collate a.product.id b.product.id = true

instance (collation : Collation) (order : OrderBy) : DecidableRel (precedes collation order) :=
  fun _ _ => inferInstanceAs (Decidable (_ ∨ _ ∧ _))

/-- A `featured` attribute that the cast refuses. -/
def unreadable (row : ResultRow) : Bool :=
  row.product.featured.any fun featured => (readBoolean featured).isNone

/-- The rows of the second statement of `findProducts`, before they are sorted. -/
def matching (collation : Collation) (tables : Tables) (now : Int) (tenantId : Text)
    (category : Option Text) (search : Text) : List ResultRow :=
  (productFrom collation tables now none).filter fun row =>
    listed collation tables tenantId category search row.product row.category

/-- `ORDER BY … LIMIT :size OFFSET :offset`; the limits are read before the rows. -/
def selectPage (collation : Collation) (order : OrderBy) (rows : List ResultRow)
    (size offset : Int) : Except String (List ResultRow) :=
  if offset < 0 then .error "OFFSET must not be negative"
  else if order = .featured ∧ rows.any unreadable = true then
    .error "invalid input syntax for type boolean"
  else .ok (((rows.insertionSort (precedes collation order)).drop offset.toNat).take size.toNat)

def normalizedSearch (search : Option Text) : Text := (search.map javaTrim).getD []

/-- `page * size`, both an `int`. -/
def offset (page size : Int) : Int := wrap32 (page * size)

/-- `findProducts`. -/
def findProducts (collation : Collation) (tables : Tables) (now : Int) (tenantId : Text)
    (search category : Option Text) (sort : Text) (page size : Int) (experience : Text) :
    Except String ProductPage := do
  let tenantId ← Propagation.CatalogService.normalize tenantId
  let search := normalizedSearch search
  let total := countProducts collation tables tenantId category search
  let items ← selectPage collation (orderBy sort)
    (matching collation tables now tenantId category search) size (offset page size)
  return ⟨items.map mapProduct, page, size, total, experience⟩

/-! ## `ProductController.products` -/

/-- The arguments of a request and what surrounds it: its headers, and the value of the flag
`catalogExperience` for it. -/
structure ProductsRequest where
  headers : Propagation.TenantHeaders
  search : Option Text
  category : Option Text
  sort : Option Text
  tenantId : Option Text
  page : Option Int
  size : Option Int
  segment : Option Text
  flag : Option Text
  /-- `Integer`. -/
  fits : ∀ n, some n ∈ [page, size] → -2147483648 ≤ n ∧ n < 2147483648

/-- `normalizeSegment`. -/
def normalizeSegment (segment : Option Text) : Text :=
  (segment.filter fun segment => !isBlank segment).getD "standard".toList

def isSlugCharacter (c : Char) : Bool :=
  decide (0x61 ≤ c.toNat ∧ c.toNat ≤ 0x7a) || decide (0x30 ≤ c.toNat ∧ c.toNat ≤ 0x39)

/-- `[a-z0-9]+(?:-[a-z0-9]+)*`. -/
def isSlug (s : Text) : Bool :=
  (s.splitOn '-').all fun part => !part.isEmpty && part.all isSlugCharacter

/-- `normalizeCategory`; `lower` is `toLowerCase`. -/
def normalizeCategory (lower : Text → Text) : Option Text → Except String (Option Text)
  | none => .ok none
  | some category =>
    if isBlank category then .ok none
    else if isSlug (lower (javaTrim category)) then .ok (some (lower (javaTrim category)))
    else .error "category must be a slug"

def sorts : List Text :=
  ["featured".toList, "newest".toList, "price_asc".toList, "price_desc".toList,
    "relevance".toList]

/-- `normalizeSort`. -/
def normalizeSort (lower : Text → Text) (sort : Option Text) : Except String Text :=
  let normalized := ((sort.filter fun sort => !isBlank sort).map
    fun sort => lower (javaTrim sort)).getD "featured".toList
  if normalized ∈ sorts then .ok normalized
  else .error "sort must be one of featured, newest, price_asc, price_desc, relevance"

/-- `evaluateExperience`, of the value of the flag. -/
def evaluateExperience (flag : Option Text) : Text :=
  let variant := (flag.filter fun value => !isBlank value).getD "standard".toList
  if variant ∈ ["featured".toList, "newest".toList, "standard".toList] then variant
  else "standard".toList

/-- What `products` passes on. -/
structure PageCall where
  tenant : Text
  search : Option Text
  category : Option Text
  sort : Text
  page : Int
  size : Int
  experience : Text
  segment : Text
  deriving DecidableEq

/-- `products`, up to its cache and its query. -/
def products (lower : Text → Text) (request : ProductsRequest) : Except String PageCall := do
  let tenant ← Propagation.CatalogService.resolve
    (Propagation.CatalogService.fromHeaders request.headers) request.tenantId
  let customerSegment := normalizeSegment request.segment
  let categorySlug ← normalizeCategory lower request.category
  let sortOrder ← normalizeSort lower request.sort
  let safePage := (request.page.map fun page => max 0 page).getD 0
  let safeSize := (request.size.map fun size => max 1 (min size 100)).getD 20
  return ⟨tenant, request.search, categorySlug, sortOrder, safePage, safeSize,
    evaluateExperience request.flag, customerSegment⟩

/-- The query of a call. -/
def PageCall.findProducts (call : PageCall) (collation : Collation) (tables : Tables) (now : Int) :
    Except String ProductPage :=
  Listing.findProducts collation tables now call.tenant call.search call.category call.sort
    call.page call.size call.experience

/-- The products that a call matches. -/
def PageCall.matching (call : PageCall) (collation : Collation) (tables : Tables) (now : Int) :
    List ResultRow :=
  Listing.matching collation tables now call.tenant call.category (normalizedSearch call.search)

/-- A product that can be listed under a SKU. -/
def HasActiveVariant (tables : Tables) (product : ProductRow) : Prop :=
  ∃ pv ∈ tables.variants, pv.tenantId = product.tenantId ∧ pv.productId = product.id ∧
    pv.active = true

instance (tables : Tables) (product : ProductRow) :
    Decidable (HasActiveVariant tables product) :=
  inferInstanceAs (Decidable (∃ pv ∈ tables.variants, _))

/-! ## Pages -/

/-- One page of a list. -/
def pageOf (ordered : List ResultRow) (page size : Nat) : List ResultRow :=
  (ordered.drop (page * size)).take size

/-- What a page of a list shows. -/
structure ProductPage.Shows (result : ProductPage) (ordered : List ResultRow)
    (page size : Nat) : Prop where
  items : result.items = (pageOf ordered page size).map mapProduct
  total : result.totalElements = ordered.length
  next : result.isHasNext = true ↔ ordered.drop ((page + 1) * size) ≠ []
  pages : ∀ p : Nat, (p : Int) < result.getTotalPages ↔ pageOf ordered p size ≠ []

end CommercePlayground.Catalog.Listing
