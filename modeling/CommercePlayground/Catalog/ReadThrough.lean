/-
CommercePlayground.Catalog.ReadThrough — product queries and price updates over the cache.

`product`, `products` and `updatePrice` of the controller, any number of calls at once. A
step is one access of one call: a get, a put, a scan or a delete of the cache, a query of
the database, or the transaction of an update. The cache does not fail and nothing in it
expires. The result of an update is not kept.
-/
import CommercePlayground.Catalog.Cache
import CommercePlayground.Catalog.Prices

namespace CommercePlayground.Catalog.ReadThrough

open Lib Listing
open Cache (productKey cacheKey evictionPattern TenantKey)
open Propagation (CatalogService.normalize CatalogService.resolve CatalogService.fromHeaders)

/-! ## Updates -/

/-- What a committed update has inserted, and for which variant. -/
structure PriceUpdate where
  variant : VariantRow
  price : PriceRow
  deriving DecidableEq

/-- A row of `prices` for one variant in one currency. -/
def isPriceOf (variant : VariantRow) (currency : Text) (p : PriceRow) : Bool :=
  decide (p.tenantId = variant.tenantId ∧ p.variantId = variant.id ∧ p.currency = currency)

/-- `SET is_default = FALSE, valid_to = :validTo`. -/
def expirePrice (validTo : Int) (p : PriceRow) : PriceRow :=
  { p with isDefault := false, validTo := some validTo }

/-- The row of the INSERT into `prices`. -/
def newPrice (command : PriceUpdateCommand) (variant : VariantRow) (startedAt : Int)
    (priceId : Text) : PriceRow where
  id := priceId
  tenantId := variant.tenantId
  variantId := variant.id
  currency := command.currency
  amountMinor := command.amountMinor
  compareAtMinor := command.compareAtMinor
  validFrom := startedAt
  validTo := none
  isDefault := true

/-- The constraints of `prices` let the statements pass. -/
def pricesAllow (tables : Tables) (variant : VariantRow) (price : PriceRow) : Bool :=
  (tables.prices.filter fun p => isPriceOf variant price.currency p && p.isDefault).all
      (fun p => decide (p.validFrom < price.validFrom)) &&
    !(tables.prices.any fun p => decide (p.id = price.id) ||
      isPriceOf variant price.currency p && decide (p.validFrom = price.validFrom))

/-- The rows after the statements. -/
def writePrice (tables : Tables) (variant : VariantRow) (price : PriceRow) : Tables :=
  { tables with
    prices := updateWhere (fun p => isPriceOf variant price.currency p && p.isDefault)
      (expirePrice price.validFrom) tables.prices ++ [price] }

/-- `JdbcCatalogRepository.updatePrice`, as one transaction; `startedAt` is its
`CURRENT_TIMESTAMP`. -/
def updatePrice (tables : Tables) (command : PriceUpdateCommand) (startedAt : Int)
    (priceId : Text) : Except String (PriceUpdate × Tables) := do
  let tenantId ← CatalogService.normalize command.tenantId
  match tables.tenants.find? fun t => decide (t.id = tenantId) with
  | none => .error ("unknown tenant: " ++ String.ofList tenantId)
  | some tenant =>
    if tenant.defaultCurrency ≠ command.currency then
      .error ("currency does not match tenant default currency: " ++
        String.ofList tenant.defaultCurrency)
    else
      match tables.variants.find? fun v =>
        decide (v.tenantId = tenantId ∧ v.sku = command.sku ∧ v.active = true) with
      | none => .error ("unknown active SKU: " ++ String.ofList command.sku)
      | some variant =>
        let price := newPrice command variant startedAt priceId
        if pricesAllow tables variant price then
          .ok (⟨variant, price⟩, writePrice tables variant price)
        else .error "constraint violation"

/-- How far the evictions of an update have come. -/
inductive Eviction where
  | committed
  | productEvicted
  /-- `evictTenant` has scanned, and is about to delete these keys. -/
  | scanned (keys : List Text)
  | returned
  deriving DecidableEq

/-- An update that has committed. -/
structure Writer where
  update : PriceUpdate
  eviction : Eviction
  deriving DecidableEq

/-! ## Queries -/

/-- A value of the cache. -/
inductive Entry where
  | product (product : Product)
  | page (page : ProductPage)
  deriving DecidableEq

def Entry.products : Entry → List Product
  | .product found => [found]
  | .page result => result.items

/-- The arguments of `product` and of `products`. -/
inductive Request where
  | product (headers : Propagation.TenantHeaders) (tenantId : Option Text) (sku : Text)
  | products (request : ProductsRequest)

/-- A query, with its tenant resolved. -/
inductive Query where
  | product (tenant sku : Text)
  | products (call : PageCall)
  deriving DecidableEq

def Query.tenant : Query → Text
  | .product tenant _ => tenant
  | .products call => call.tenant

/-- What the queries are read with: `toLowerCase`, and the collation of the database. -/
structure Environment where
  lower : Text → Text
  collation : Collation

def Request.query (env : Environment) : Request → Except String Query
  | .product headers tenantId sku => do
    let tenant ← CatalogService.resolve (CatalogService.fromHeaders headers) tenantId
    return .product tenant sku
  | .products request => do
    let call ← Listing.products env.lower request
    return .products call

/-- The key a query is kept under. -/
def Query.key : Query → Except String Text
  | .product tenant sku => do
    let tenantId ← CatalogService.normalize tenant
    return productKey tenantId sku
  | .products call => cacheKey call

/-- The statements of a query; no product is no entry. -/
def Query.read (env : Environment) (tables : Tables) (now : Int) :
    Query → Except String (Option Entry)
  | .product tenant sku => do
    let found ← findBySku env.collation tables now tenant sku
    return found.map .product
  | .products call => do
    let page ← call.findProducts env.collation tables now
    return some (.page page)

/-- Whether a value can be read as the answer of a query. -/
def Query.reads : Query → Entry → Bool
  | .product _ _, .product _ => true
  | .products _, .page _ => true
  | _, _ => false

/-- How far a query has come. -/
inductive Phase where
  | get
  | read
  /-- The number is that of the updates that had committed when the entry was read. -/
  | put (entry : Entry) (version : Nat)
  | answered (answer : Option Entry)
  | failed (message : String)
  deriving DecidableEq

/-- A query under way. -/
structure Call where
  query : Query
  noStore : Bool
  key : Text
  /-- The updates that had returned when the query started. -/
  returned : List Nat
  phase : Phase
  deriving DecidableEq

/-! ## Steps -/

structure State where
  now : Int
  tables : Tables
  cache : List (Text × Entry)
  writers : List Writer
  calls : List Call

inductive Action where
  | query (request : Request) (noStore : Bool)
  /-- The next access of a query. -/
  | access (call : Nat)
  | update (command : PriceUpdateCommand) (startedAt : Int) (priceId : Text)
  /-- The next access of an update. -/
  | evict (writer : Nat)
  | elapse (microseconds : Nat)

/-- `redis.opsForValue().get`, read as the answer of a query. -/
def State.get (s : State) (call : Call) : Option Entry :=
  (s.cache.lookup call.key).filter call.query.reads

def put (key : Text) (entry : Entry) (cache : List (Text × Entry)) : List (Text × Entry) :=
  (key, entry) :: cache.filter fun p => decide (p.1 ≠ key)

def delete (keys : List Text) (cache : List (Text × Entry)) : List (Text × Entry) :=
  cache.filter fun p => !keys.contains p.1

/-- The updates that have returned. -/
def State.returned (s : State) : List Nat :=
  (List.range s.writers.length).filter fun i =>
    (s.writers[i]?).any fun w => decide (w.eviction = .returned)

def State.setPhase (s : State) (i : Nat) (call : Call) (phase : Phase) : State :=
  { s with calls := s.calls.set i { call with phase := phase } }

/-- The next access of a query. -/
def access (env : Environment) (s : State) (i : Nat) (call : Call) : Option State :=
  match call.phase with
  | .get =>
    match s.get call with
    | some entry => some (s.setPhase i call (.answered (some entry)))
    | none => some (s.setPhase i call .read)
  | .read =>
    match call.query.read env s.tables s.now with
    | .error message => some (s.setPhase i call (.failed message))
    | .ok none => some (s.setPhase i call (.answered none))
    | .ok (some entry) =>
      if call.noStore then some (s.setPhase i call (.answered (some entry)))
      else some (s.setPhase i call (.put entry s.writers.length))
  | .put entry _ =>
    some { s.setPhase i call (.answered (some entry)) with cache := put call.key entry s.cache }
  | .answered _ => none
  | .failed _ => none

/-- The keys `evictTenant` finds. -/
def State.scan (s : State) (tenantId : Text) : List Text :=
  match evictionPattern tenantId with
  | .error _ => []
  | .ok pattern => (s.cache.map Prod.fst).filter (Glob.scanMatches pattern)

def State.setEviction (s : State) (j : Nat) (w : Writer) (eviction : Eviction) : State :=
  { s with writers := s.writers.set j { w with eviction := eviction } }

/-- The next access of an update: `evictProduct`, and the two of `evictTenant`. -/
def evict (s : State) (j : Nat) (w : Writer) : Option State :=
  let tenantId := w.update.variant.tenantId
  match w.eviction with
  | .committed =>
    some { s.setEviction j w .productEvicted with
      cache := delete [productKey tenantId w.update.variant.sku] s.cache }
  | .productEvicted => some (s.setEviction j w (.scanned (s.scan tenantId)))
  | .scanned keys => some { s.setEviction j w .returned with cache := delete keys s.cache }
  | .returned => none

/-- `ProductController.updatePrice` up to its evictions. -/
def update (command : PriceUpdateCommand) (startedAt : Int) (priceId : Text) (s : State) :
    State :=
  match updatePrice s.tables command startedAt priceId with
  | .error _ => s
  | .ok (update, tables) =>
    { s with tables := tables, writers := s.writers ++ [⟨update, .committed⟩] }

/-- A query enters, with what has returned before. -/
def start (env : Environment) (request : Request) (noStore : Bool) (s : State) : State :=
  match request.query env with
  | .error _ => s
  | .ok query =>
    match query.key with
    | .error _ => s
    | .ok key =>
      { s with
        calls := s.calls ++ [⟨query, noStore, key, s.returned, if noStore then .read else .get⟩] }

def step (env : Environment) (s : State) : Action → Option State
  | .query request noStore => some (start env request noStore s)
  | .access i => (s.calls[i]?).bind (access env s i)
  | .update command startedAt priceId =>
    if command.accepted && decide (startedAt ≤ s.now) then
      some (update command startedAt priceId s)
    else none
  | .evict j => (s.writers[j]?).bind (evict s j)
  | .elapse n => some { s with now := s.now + n }

/-- Nothing has happened yet. -/
structure Initial (s : State) : Prop where
  valid : s.tables.Valid
  cache : s.cache = []
  writers : s.writers = []
  calls : s.calls = []

/-! ## Fresh answers -/

def State.updates (s : State) : List PriceUpdate := s.writers.map Writer.update

/-- `mapPrice` of a row. -/
def snapshot (price : PriceRow) : PriceSnapshot :=
  ⟨some price.id, some price.currency, price.amountMinor, price.compareAtMinor, price.validFrom⟩

/-- A product under the SKU of an update. -/
def IsOf (update : PriceUpdate) (product : Product) : Prop :=
  product.tenantId = some update.variant.tenantId ∧ product.sku = some update.variant.sku

/-- What an entry shows for the SKU of the `i`th update is the price of the update, or that
of a later one. -/
def Entry.Shows (updates : List PriceUpdate) (i : Nat) (entry : Entry) : Prop :=
  ∀ update, updates[i]? = some update → ∀ product ∈ entry.products, IsOf update product →
    ∃ j later, i ≤ j ∧ updates[j]? = some later ∧ later.variant = update.variant ∧
      product.price = some (snapshot later.price)

/-- An entry under the key will be deleted yet. -/
def Eviction.Pending (key : Text) : Eviction → Prop
  | .committed => True
  | .productEvicted => True
  | .scanned keys => key ∈ keys
  | .returned => False

/-- What a query puts into the cache was read after every update of a SKU it shows, but for
those that will delete it yet. -/
def PutsInTime (s : State) : Action → Prop
  | .access i => ∀ call entry version, s.calls[i]? = some call →
      call.phase = .put entry version → ∀ (j : Nat) (w : Writer), version ≤ j →
        s.writers[j]? = some w → (∃ product ∈ entry.products, IsOf w.update product) →
          w.eviction.Pending call.key
  | _ => True

end CommercePlayground.Catalog.ReadThrough
