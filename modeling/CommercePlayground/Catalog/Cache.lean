/-
CommercePlayground.Catalog.Cache — the keys of the Redis cache of the catalog.

A page is kept under everything that its query and its answer depend on, a product under
its tenant and SKU. Free text is encoded, so that the colons between the parts are the
only ones. `evictTenant` scans for the keys of one tenant.
-/
import CommercePlayground.Catalog.Listing
import CommercePlayground.Lib.Base64
import CommercePlayground.Lib.Glob

namespace CommercePlayground.Catalog.Cache

open Lib
open Listing (PageCall)
open Propagation (CatalogService.normalize)

/-- `PREFIX`. -/
def keyPrefix : Text := "catalog:v2:".toList

/-- `encoded`. -/
def encoded (value : Text) : Text := base64Url (utf8 value)

/-- `pageKey`. -/
def pageKey (tenantId : Text) (search category : Option Text) (sort : Text)
    (page size : Int) (experience : Text) : Except String Text := do
  let tenantId ← CatalogService.normalize tenantId
  return keyPrefix ++ "page:".toList ++ encoded tenantId ++ ':' :: encoded (search.getD []) ++
    ':' :: encoded (category.getD []) ++ ':' :: encoded sort ++ ':' :: decimal page.toNat ++
    ':' :: decimal size.toNat ++ ':' :: encoded experience

/-- `productKey`. -/
def productKey (tenantId sku : Text) : Text :=
  keyPrefix ++ "product:".toList ++ encoded tenantId ++ ':' :: encoded sku

/-- The key of a call of `products`. -/
def cacheKey (call : PageCall) : Except String Text :=
  pageKey call.tenant call.search call.category call.sort call.page call.size
    (call.experience ++ ':' :: call.segment)

/-- What `evictTenant` scans for. -/
def evictionPattern (tenantId : Text) : Except String Text := do
  let scopedTenant ← CatalogService.normalize tenantId
  return keyPrefix ++ "*:".toList ++ encoded scopedTenant ++ ":*".toList

/-- A key of a tenant: of one of its products, or of one of its pages. -/
inductive TenantKey (tenant : Text) : Text → Prop where
  | page (call : PageCall) (key : Text) : call.tenant = tenant → cacheKey call = .ok key →
      TenantKey tenant key
  | product (sku : Text) : TenantKey tenant (productKey tenant sku)

/-- The same query: the same arguments, and the same search but for an absent one. -/
structure SameQuery (a b : PageCall) : Prop where
  tenant : a.tenant = b.tenant
  category : a.category = b.category
  sort : a.sort = b.sort
  page : a.page = b.page
  size : a.size = b.size
  experience : a.experience = b.experience
  search : a.search = b.search ∨ a.search.getD [] = [] ∧ b.search.getD [] = []

end CommercePlayground.Catalog.Cache
