/-
CommercePlayground.Catalog.Recommendation — what the recommendation service makes of a
page of the catalog.

The service asks for the product of a SKU and for one page of products, leaves out the
products that are listed under that SKU, and takes the first of the others. The catalog
answers both from the queries of `Listing`.
-/
import CommercePlayground.Catalog.Listing

namespace CommercePlayground.Catalog.Recommendation

open Lib
open Listing (Collation Tables Product ProductPage PageCall ResultRow)

/-- `MAX_LIMIT`. -/
def maxLimit : Nat := 100

/-- `bounded_limit`. -/
def boundedLimit (value : Nat) : Nat := max 1 (min value maxLimit)

/-- The `size` of the query: one more, but no more than a page can have. -/
def readSize (limit : Nat) : Nat := min (boundedLimit limit + 1) maxLimit

/-- `Recommend`, with its tenant resolved. -/
structure Recommend where
  tenantId : Text
  sku : Text
  segment : Text
  limit : Nat

/-- `CatalogLookup`, without the variants. -/
structure CatalogLookup where
  product : Product
  products : List Product
  experience : Text

/-- `eq_ignore_ascii_case`. -/
def eqIgnoreAsciiCase (a b : Text) : Bool := decide (toAsciiLowercase a = toAsciiLowercase b)

/-- The call of `products` that the service makes: the first page, in the default order. -/
def pageCall (tenantId segment : Text) (flag : Option Text) (size : Nat) : PageCall where
  tenant := tenantId
  search := none
  category := none
  sort := "featured".toList
  page := 0
  size := max 1 (min (size : Int) 100)
  experience := Listing.evaluateExperience flag
  segment := Listing.normalizeSegment (some segment)

/-- The answer of the catalog to `CATALOG_QUERY`. A product without a SKU leaves the page
null, for `sku` is a `String!`. -/
def catalogQuery (collation : Collation) (tables : Tables) (now : Int) (flag : Option Text)
    (params : Recommend) (size : Nat) : Except String (Option Product × ProductPage) := do
  let product ← Listing.findBySku collation tables now params.tenantId params.sku
  let page ← (pageCall params.tenantId params.segment flag size).findProducts collation
    tables now
  if page.items.all fun item => item.sku.isSome then return (product, page)
  else .error "The field at path '/products/items' was declared as a non null type"

/-- Whether a candidate is under another SKU. -/
def isOther (sku : Text) (candidate : Product) : Bool :=
  candidate.sku.any fun other => !eqIgnoreAsciiCase other sku

/-- `HeaderValue::from_str`. -/
def headerValue (value : Text) : Bool :=
  value.all fun c => decide (0x20 ≤ c.toNat ∧ c.toNat < 0x7f) || decide (c = '\t')

/-- `fetch`. -/
def fetch (collation : Collation) (tables : Tables) (now : Int) (flag : Option Text)
    (params : Recommend) : Except String CatalogLookup :=
  if !headerValue params.tenantId then .error "tenant identity cannot be forwarded"
  else do
    let (product, page) ← catalogQuery collation tables now flag params
      (readSize params.limit)
    let product ← product.elim (.error "no Catalog product for sku") .ok
    return ⟨product, (page.items.filter (isOther params.sku)).take (boundedLimit params.limit),
      page.experience⟩

/-- `recommend`: its checks, and then `fetch`. -/
def recommend (collation : Collation) (tables : Tables) (now : Int) (flag : Option Text)
    (params : Recommend) : Except String CatalogLookup :=
  if trimIsEmpty params.sku then .error "sku must not be empty"
  else if params.limit = 0 then .error "limit must be greater than zero"
  else fetch collation tables now flag params

/-! ## What is recommended -/

/-- The active products of a tenant. -/
def activeProducts (collation : Collation) (tables : Tables) (now : Int) (tenantId : Text) :
    List ResultRow :=
  Listing.matching collation tables now tenantId none []

/-- Whether the catalog lists a product under a SKU. -/
def listedAs (sku : Text) (row : ResultRow) : Bool :=
  row.variant.any fun variant => eqIgnoreAsciiCase variant.sku sku

/-- What it takes for the recommendations for one product to be right, on the ordered list
of the active products. -/
structure Selectable (params : Recommend) (productId : Text) (ordered : List ResultRow) :
    Prop where
  tenant : headerValue params.tenantId = true
  sku : trimIsEmpty params.sku = false
  asked : ∃ row ∈ ordered, row.product.id = productId
  readable : ∀ row ∈ ordered, Listing.unreadable row = false
  /-- All are shown: the product asked for is the one listed under its SKU. -/
  short : ordered.length ≤ boundedLimit params.limit → ∀ row ∈ ordered,
    listedAs params.sku row = true ↔ row.product.id = productId
  /-- Not all are shown: no more are listed under the SKU than are read on top, and the
  product asked for is one of them or comes later. -/
  long : boundedLimit params.limit < ordered.length →
    boundedLimit params.limit + (ordered.take (readSize params.limit)).countP
      (listedAs params.sku) ≤ readSize params.limit ∧
    ∀ row ∈ ordered.take (boundedLimit params.limit +
        (ordered.take (readSize params.limit)).countP (listedAs params.sku)),
      row.product.id = productId → listedAs params.sku row = true

end CommercePlayground.Catalog.Recommendation
