/-
CommercePlayground.Pricing.Versions — cached quotes while the catalog changes prices.

`calculate_quote` over the tables that `updatePrice` writes, any number of both at once.
The version of a quote is the largest committed sequence number of its tenant; the
transaction that computes a quote reads the version and the prices in one snapshot. A step
is a statement of an update, or one access of a call: a get or a set of Redis, the query
of the version, or the transaction.
-/
import CommercePlayground.Catalog.Prices
import CommercePlayground.Pricing.Cache
import Mathlib.Data.List.Sort

namespace CommercePlayground.Pricing.Versions

open Lib
open Catalog (Variant Price PriceChangeEvent)

/-! ## The price query -/

/-- The rows that the price query joins to those of an update. -/
structure Directory where
  /-- The active products, by tenant and id. -/
  products : List (Text × Text)
  /-- The active customers, by tenant and id. -/
  customers : List (Text × Text)

/-- The conditions on `v`, `product` and `customer`. -/
def Directory.sells (d : Directory) (tenantId customerId sku : Text) (v : Variant) : Bool :=
  decide (v.tenantId = tenantId ∧ v.sku = sku) && d.products.contains (v.tenantId, v.productId) &&
    d.customers.contains (v.tenantId, customerId)

/-- The conditions on `p`. -/
def inForce (currency : Text) (now : Nat) (v : Variant) (p : Price) : Bool :=
  p.isOf v.tenantId v.id currency && decide (p.validFrom ≤ now) &&
    p.validTo.all (fun validTo => decide (now < validTo)) && p.isDefault

/-- `p.valid_from DESC, p.id`. -/
def Newer (a b : Variant × Price) : Prop :=
  b.2.validFrom < a.2.validFrom ∨ a.2.validFrom = b.2.validFrom ∧ a.2.id ≤ b.2.id

instance : DecidableRel Newer := fun _ _ => inferInstanceAs (Decidable (_ ∨ _))

/-- The rows of one SKU. -/
def joined (d : Directory) (db : Catalog.Database) (now : Nat)
    (tenantId customerId currency sku : Text) : List (Variant × Price) :=
  (db.variants.filter (d.sells tenantId customerId sku)).flatMap fun v =>
    (db.prices.filter (inForce currency now v)).map fun p => (v, p)

/-- `DISTINCT ON (v.sku)`. -/
def selectedRow (d : Directory) (db : Catalog.Database) (now : Nat)
    (tenantId customerId currency sku : Text) : Option (Variant × Price) :=
  ((joined d db now tenantId customerId currency sku).insertionSort Newer).head?

def selectedPrice (row : Variant × Price) : SelectedPrice :=
  ⟨row.1.productId, row.2.amountMinor, row.2.currency, "default".toList⟩

/-- `selected_prices`. -/
def selectedPrices (d : Directory) (db : Catalog.Database) (now : Nat)
    (tenantId customerId currency : Text) : List (Text × SelectedPrice) :=
  (db.variants.map Variant.sku).filterMap fun sku =>
    ((selectedRow d db now tenantId customerId currency sku).map selectedPrice).map fun price =>
      (sku, price)

/-- `COALESCE(MAX(sequence), 0)`. -/
def maxSequence (db : Catalog.Database) (tenantId : Text) : Nat :=
  ((db.events.filter fun e => decide (e.tenantId = tenantId)).map
    PriceChangeEvent.sequence).foldr max 0

/-- What stays as it is. -/
structure Environment where
  directory : Directory
  format : Format
  promotions : List Promotion

/-- What a transaction of the pricing service reads that began at `startedAt`. -/
def snapshot (env : Environment) (db : Catalog.Database) (startedAt : Nat) (available : Bool) :
    Database where
  now := db.now / 1000
  available := available
  sequence := maxSequence db
  prices := selectedPrices env.directory db startedAt
  promotions := env.promotions

/-! ## Calls -/

/-- How far a call has come. -/
inductive Phase where
  | get
  /-- It has an entry that has not expired. -/
  | version (entry : Entry)
  | begin
  /-- The time is `CURRENT_TIMESTAMP`. -/
  | compute (startedAt : Nat)
  | set (quote : CachedQuote)
  /-- It has returned an entry, and read the version in this database. -/
  | hit (entry : Entry) (read : Catalog.Database)
  | answered (quote : CachedQuote)
  | failed (status : Status)

structure Call where
  request : QuoteRequest
  useCache : Bool
  phase : Phase

structure State where
  db : Catalog.Database
  cache : List (Text × Entry)
  calls : List Call

inductive Action where
  | price (action : Catalog.Action)
  | quote (request : QuoteRequest) (useCache : Bool)
  /-- The next access of a call, which succeeds or not. -/
  | access (call : Nat) (succeeds : Bool)
  /-- Redis expires or evicts an entry. -/
  | drop (key : Text)

def State.setPhase (s : State) (i : Nat) (call : Call) (phase : Phase) : State :=
  { s with calls := s.calls.set i { call with phase := phase } }

/-- `redis.get`. -/
def State.find (s : State) (call : Call) (succeeds : Bool) : Option Entry :=
  if succeeds then s.cache.lookup (cacheKey call.request) else none

/-- After `redis.get`, at a time in milliseconds. -/
def got (found : Option Entry) (now : Int) : Phase :=
  match found with
  | none => .begin
  | some entry =>
    match entry.quote.consumeAt now with
    | .error _ => .begin
    | .ok () => .version entry

/-- After the query of the version. -/
def compared (env : Environment) (s : State) (call : Call) (entry : Entry) (succeeds : Bool) :
    Phase :=
  if !succeeds then .failed .unavailable
  else if entry.quote.pricingVersion =
      pricingVersionIn (snapshot env s.db s.db.now true) call.request.tenantId then
    .hit entry s.db
  else .begin

/-- After the transaction. -/
def computed (env : Environment) (s : State) (call : Call) (startedAt : Nat) (succeeds : Bool) :
    Phase :=
  match calculateQuote env.format (snapshot env s.db startedAt succeeds) call.request with
  | .error status => .failed status
  | .ok quote => if call.useCache then .set quote else .answered quote

/-- The next access of a call. -/
def access (env : Environment) (s : State) (i : Nat) (call : Call) (succeeds : Bool) :
    Option State :=
  match call.phase with
  | .get => some (s.setPhase i call (got (s.find call succeeds) (s.db.now / 1000)))
  | .version entry => some (s.setPhase i call (compared env s call entry succeeds))
  | .begin =>
    some (s.setPhase i call (if succeeds then .compute s.db.now else .failed .unavailable))
  | .compute startedAt => some (s.setPhase i call (computed env s call startedAt succeeds))
  | .set quote =>
    some { s.setPhase i call (.answered quote) with
      cache := if succeeds then store (cacheKey call.request) ⟨quote, call.request⟩ s.cache
        else s.cache }
  | .hit _ _ => none
  | .answered _ => none
  | .failed _ => none

/-- A call enters. -/
def start (request : QuoteRequest) (useCache : Bool) (s : State) : State :=
  match validateRequest request with
  | .error _ => s
  | .ok () =>
    { s with calls := s.calls ++ [⟨request, useCache, if useCache then .get else .begin⟩] }

def step (env : Environment) (s : State) : Action → Option State
  | .price action => (Catalog.step s.db action).map fun db => { s with db := db }
  | .quote request useCache => some (start request useCache s)
  | .access i succeeds => (s.calls[i]?).bind fun call => access env s i call succeeds
  | .drop key => some { s with cache := s.cache.filter fun p => decide (p.1 ≠ key) }

/-- No call and no update is under way, and no default price will begin or end by the
clock. -/
structure Initial (s : State) : Prop where
  cache : s.cache = []
  calls : s.calls = []
  transactions : s.db.transactions = []
  ids : KeyUnique Price.id s.db.prices
  next : ∀ p ∈ s.db.prices, p.id < s.db.nextPrice
  windows : ∀ p ∈ s.db.prices, p.isDefault = true →
    p.validFrom ≤ s.db.now ∧ ∀ validTo, p.validTo = some validTo → validTo ≤ s.db.now
  variants : KeyUnique (fun v : Variant => (v.tenantId, v.id)) s.db.variants
  skus : KeyUnique (fun v : Variant => (v.tenantId, v.sku)) s.db.variants

end CommercePlayground.Pricing.Versions
