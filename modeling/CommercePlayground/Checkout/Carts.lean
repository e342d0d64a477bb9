/-
CommercePlayground.Checkout.Carts — `add_cart_item`: the cart of a request
and its line, as one transaction.

A shop is the shared database with the columns of carts that only this
transaction reads: the time of a cart's last update and its items, the
customers a cart may belong to and the prices of the catalogue. The identities
are those of the request after its input checks: the tenant and the customer
are known, and the session is the requested or the propagated one, if any.
-/
import CommercePlayground.Checkout.Machine
import Mathlib.Data.List.MinMax

namespace CommercePlayground.Checkout

open Lib

/-! ## Rows -/

/-- The largest value of an INTEGER column. -/
def maxInteger : Int := 2147483647

/-- A row of `cart_items`; `line_total_minor` is generated. -/
structure CartItem where
  id : Nat
  tenantId : TenantId
  cartId : CartId
  variantId : VariantId
  quantity : Int
  unitPriceMinor : Int
  discountMinor : Int
  deriving DecidableEq

/-- A row of `prices`. -/
structure Price where
  tenantId : TenantId
  variantId : VariantId
  currency : Currency
  amountMinor : Int
  validFrom : Nat
  validTo : Option Nat
  isDefault : Bool
  deriving DecidableEq

/-- The database, and what `add_cart_item` reads and writes beside it. -/
structure Shop where
  db : Db
  customers : List (TenantId × CustomerId)
  prices : List Price
  /-- `carts.updated_at`, by the id of the cart. -/
  updatedAt : CartId → Nat
  items : List CartItem

/-- `AddCartItemInput`, with the identities resolved. -/
structure AddCartItemInput where
  tenantId : TenantId
  customerId : CustomerId
  cartId : Option CartId
  sessionId : Option SessionId
  sku : Sku
  quantity : Nat
  currencyCode : Currency
  deriving DecidableEq

/-- The response of `add_cart_item`. -/
structure AddedCartItem where
  cartId : CartId
  sessionId : SessionId
  sku : Sku
  quantityAdded : Nat
  unitPriceMinor : Int
  deriving DecidableEq

/-- A constraint of the tables that refuses a statement. -/
inductive Violation where
  | unique | foreignKey | check | integerOutOfRange
  deriving DecidableEq

/-- How the transaction fails. -/
inductive CartError where
  /-- An error response. -/
  | response (status : Nat) (code message : String)
  /-- `db_error`: 503, `database_unavailable`. -/
  | database (violation : Violation)
  /-- A column read as a text that is NULL. -/
  | panicked
  deriving DecidableEq

abbrev CartResult (α : Type) := Except CartError α

/-- Fail unless the condition holds. -/
def expect (condition : Bool) (error : CartError) : CartResult Unit :=
  if condition then .ok () else .error error

/-! ## The cart -/

def Shop.setCarts (s : Shop) (carts : List Cart) : Shop :=
  { s with db := Checkout.setCarts s.db carts }

/-- Draw a UUID. -/
def Shop.bump (s : Shop) : Shop := { s with db := bumpUuid s.db }

/-- `tenant_id=$1 AND customer_id=$2 AND currency=$3 AND status='active'`. -/
def isCustomerCart (input : AddCartItemInput) (c : Cart) : Bool :=
  decide (c.tenantId = input.tenantId ∧ c.customerId = some input.customerId ∧
    c.currency = input.currencyCode ∧ c.status = .active)

/-- The same cart, of one session. -/
def isSessionCart (input : AddCartItemInput) (sessionId : SessionId) (c : Cart) : Bool :=
  isCustomerCart input c && decide (c.sessionId = some sessionId)

/-- `ORDER BY updated_at DESC LIMIT 1`. -/
def Shop.latestCart (s : Shop) (sel : Cart → Bool) : Option Cart :=
  (s.db.checkout.carts.filter sel).argmax fun c => s.updatedAt c.id

/-- The cart a request without a cart id finds: its session's, else the
customer's latest. -/
def existingCart (input : AddCartItemInput) (sessionId : SessionId) (s : Shop) : Option Cart :=
  match s.latestCart (isSessionCart input sessionId) with
  | some c => some c
  | none => s.latestCart (isCustomerCart input)

/-- The row a new cart inserts. -/
def newCart (input : AddCartItemInput) (cartId : CartId) (sessionId : SessionId) : Cart where
  id := cartId
  tenantId := input.tenantId
  customerId := some input.customerId
  sessionId := some sessionId
  status := .active
  currency := input.currencyCode

/-- `UNIQUE (id)` and `UNIQUE (tenant_id, session_id)`. -/
def cartConflicts (c d : Cart) : Bool :=
  decide (d.id = c.id ∨
    (d.tenantId = c.tenantId ∧ d.sessionId.isSome ∧ d.sessionId = c.sessionId))

/-- The insertion of a cart that conflicts with none. -/
def appendCart (c : Cart) (s : Shop) : CartResult Shop :=
  if c.customerId.all fun customerId => decide ((c.tenantId, customerId) ∈ s.customers) then
    .ok { s.setCarts (s.db.checkout.carts ++ [c]) with
      updatedAt := fun id => if id = c.id then s.db.now else s.updatedAt id }
  else .error (.database .foreignKey)

/-- `INSERT … ON CONFLICT DO NOTHING RETURNING id`: whether it inserted. -/
def insertCartOrNothing (c : Cart) (s : Shop) : CartResult (Bool × Shop) :=
  if s.db.checkout.carts.any (cartConflicts c) then .ok (false, s)
  else do
    let s' ← appendCart c s
    pure (true, s')

/-- `INSERT` without a conflict clause. -/
def insertCart (c : Cart) (s : Shop) : CartResult Shop :=
  if s.db.checkout.carts.any (cartConflicts c) then .error (.database .unique)
  else appendCart c s

/-- A cart the transaction decided for. -/
structure OpenCart where
  cartId : CartId
  sessionId : SessionId
  shop : Shop

/-- The cart of a request that finds none: the session may be another
customer's, or closed; then the cart gets a session of its own. -/
def openNewCart (input : AddCartItemInput) (sessionId : SessionId) (s : Shop) :
    CartResult OpenCart := do
  let cartId := s.db.nextUuid
  let (inserted, s₁) ← insertCartOrNothing (newCart input cartId sessionId) s.bump
  if inserted then pure ⟨cartId, sessionId, s₁⟩
  else do
    let freshSession := s₁.db.nextUuid
    let s₂ ← insertCart (newCart input cartId freshSession) s₁.bump
    pure ⟨cartId, freshSession, s₂⟩

/-- The cart of a request. -/
def openCart (input : AddCartItemInput) (sessionId : SessionId) (s : Shop) :
    CartResult OpenCart :=
  match input.cartId with
  | some cartId => do
    let (_, s₁) ← insertCartOrNothing (newCart input cartId sessionId) s
    pure ⟨cartId, sessionId, s₁⟩
  | none =>
    match existingCart input sessionId s with
    | some c => .ok ⟨c.id, sessionId, s⟩
    | none => openNewCart input sessionId s

def cartNotFound (message : String) : CartError := .response 404 "cart_not_found" message

/-- The cart, read again: it has to be the customer's, active, in the currency
and of the session. -/
def checkOpenCart (input : AddCartItemInput) (o : OpenCart) : CartResult Unit :=
  match o.shop.db.checkout.carts.find? fun c =>
    decide (c.tenantId = input.tenantId ∧ c.id = o.cartId) with
  | none => .error (cartNotFound "cart was not found for this tenant")
  | some c =>
    match c.sessionId with
    | none => .error .panicked
    | some cartSession =>
      expect (isCustomerCart input c && decide (cartSession = o.sessionId))
        (cartNotFound "cart was not found for this customer")

/-! ## The line -/

/-- A default price that is valid now. -/
def isCurrentPrice (now : Nat) (tenantId : TenantId) (variantId : VariantId)
    (currency : Currency) (p : Price) : Bool :=
  decide (p.tenantId = tenantId ∧ p.variantId = variantId ∧ p.currency = currency ∧
    p.isDefault = true ∧ p.validFrom ≤ now) && p.validTo.all fun t => decide (now < t)

/-- The active variant of the SKU, and its latest current price. -/
def activePrice (input : AddCartItemInput) (s : Shop) : Option (VariantId × Int) :=
  match s.db.inventory.variants.find? fun v =>
    decide (v.tenantId = input.tenantId ∧ v.sku = input.sku) && v.active with
  | none => none
  | some v =>
    ((s.prices.filter (isCurrentPrice s.db.now input.tenantId v.id input.currencyCode)).argmax
      fun p => p.validFrom).map fun p => (v.id, p.amountMinor)

/-- `(tenant_id, cart_id, variant_id)`. -/
def isLine (tenantId : TenantId) (cartId : CartId) (variantId : VariantId) (i : CartItem) : Bool :=
  decide (i.tenantId = tenantId ∧ i.cartId = cartId ∧ i.variantId = variantId)

/-- The CHECK constraints of a line and its generated total. -/
def checkLine (i : CartItem) : CartResult Unit :=
  if maxInteger < i.quantity * i.unitPriceMinor then .error (.database .integerOutOfRange)
  else if 0 < i.quantity ∧ 0 ≤ i.unitPriceMinor ∧ 0 ≤ i.discountMinor ∧
      i.discountMinor ≤ i.quantity * i.unitPriceMinor then .ok ()
  else .error (.database .check)

/-- A line with more of its variant, at the current price. -/
def addQuantity (quantity unitPrice : Int) (i : CartItem) : CartItem :=
  { i with quantity := i.quantity + quantity, unitPriceMinor := unitPrice }

def Shop.setItems (s : Shop) (items : List CartItem) : Shop := { s with items := items }

/-- `ON CONFLICT (tenant_id, cart_id, variant_id) DO UPDATE … WHERE …`; without
a changed row the quantity is over its limit. -/
def updateLine (i : CartItem) (quantity unitPrice : Int) (s : Shop) : CartResult Shop :=
  if maxInteger < i.quantity + quantity then .error (.database .integerOutOfRange)
  else if i.quantity + quantity ≤ (maxQuantity : Int) then do
    checkLine (addQuantity quantity unitPrice i)
    pure (s.setItems (updateWhere (isLine i.tenantId i.cartId i.variantId)
      (addQuantity quantity unitPrice) s.items))
  else .error (.response 400 "cart_quantity_limit" "cart item quantity cannot exceed 100")

/-- The insertion of a line, or its update. -/
def upsertLine (input : AddCartItemInput) (cartId : CartId) (variantId : VariantId)
    (unitPrice : Int) (s : Shop) : CartResult Shop := do
  let proposed : CartItem :=
    ⟨s.db.nextUuid, input.tenantId, cartId, variantId, input.quantity, unitPrice, 0⟩
  checkLine proposed
  match s.items.find? (isLine input.tenantId cartId variantId) with
  | some i => updateLine i input.quantity unitPrice s.bump
  | none => pure (s.bump.setItems (s.items ++ [proposed]))

/-- `UPDATE carts SET updated_at=CURRENT_TIMESTAMP`. -/
def Shop.touch (s : Shop) (cartId : CartId) : Shop :=
  { s with updatedAt := fun id => if id = cartId then s.db.now else s.updatedAt id }

/-! ## The transaction -/

/-- The session of a request: a fresh one when it has none. -/
def resolveSession (input : AddCartItemInput) (s : Shop) : SessionId × Shop :=
  match input.sessionId with
  | some sessionId => (sessionId, s)
  | none => (s.db.nextUuid, s.bump)

/-- The checks of the quantity; those of the texts are in their types. -/
def checkQuantity (input : AddCartItemInput) : CartResult Unit :=
  expect (decide (0 < input.quantity ∧ input.quantity ≤ maxQuantity))
    (.response 400 "invalid_cart_item" "sku and quantity are required")

/-- `add_cart_item`. -/
def addCartItem (input : AddCartItemInput) (s : Shop) : CartResult (AddedCartItem × Shop) := do
  checkQuantity input
  let (sessionId, s₀) := resolveSession input s
  let o ← openCart input sessionId s₀
  checkOpenCart input o
  match activePrice input o.shop with
  | none => .error (.response 404 "product_not_found" "SKU has no active price")
  | some (variantId, unitPrice) => do
    let s' ← upsertLine input o.cartId variantId unitPrice o.shop
    pure (⟨o.cartId, o.sessionId, input.sku, input.quantity, unitPrice⟩, s'.touch o.cartId)

/-! ## The constraints -/

/-- `UNIQUE (tenant_id, cart_id, variant_id)`. -/
def lineKey (i : CartItem) : TenantId × CartId × VariantId := (i.tenantId, i.cartId, i.variantId)

/-- What the constraints of migration 001 say about carts and their items. -/
structure Shop.Constraints (s : Shop) : Prop where
  cartIds : KeyUnique (·.id) s.db.checkout.carts
  sessions : ∀ c ∈ s.db.checkout.carts, ∀ d ∈ s.db.checkout.carts, c.tenantId = d.tenantId →
    c.sessionId = d.sessionId → c.sessionId.isSome = true → c = d
  owners : ∀ c ∈ s.db.checkout.carts, c.customerId.isSome = true ∨ c.sessionId.isSome = true
  customers : ∀ c ∈ s.db.checkout.carts, ∀ customerId, c.customerId = some customerId →
    (c.tenantId, customerId) ∈ s.customers
  lines : KeyUnique lineKey s.items
  carts : ∀ i ∈ s.items, ∃ c ∈ s.db.checkout.carts, c.tenantId = i.tenantId ∧ c.id = i.cartId
  checks : ∀ i ∈ s.items, checkLine i = .ok ()
  prices : ∀ p ∈ s.prices, 0 ≤ p.amountMinor

/-- The UUIDs still to be drawn are new. -/
def Shop.Fresh (s : Shop) : Prop :=
  ∀ c ∈ s.db.checkout.carts, ∀ n, s.db.nextUuid ≤ n → c.id ≠ n ∧ c.sessionId ≠ some n

/-! ## What is asked of a request without a cart id -/

/-- How many of a variant are in a cart. -/
def lineQuantity (items : List CartItem) (tenantId : TenantId) (cartId : CartId)
    (variantId : VariantId) : Int :=
  ((items.find? (isLine tenantId cartId variantId)).map (·.quantity)).getD 0

/-- What has been taken off the line already. -/
def lineDiscount (items : List CartItem) (tenantId : TenantId) (cartId : CartId)
    (variantId : VariantId) : Int :=
  ((items.find? (isLine tenantId cartId variantId)).map (·.discountMinor)).getD 0

/-- Nothing is different but carts and their lines. -/
structure Frame (s s' : Shop) : Prop where
  db : { s'.db with checkout := s.db.checkout, nextUuid := s.db.nextUuid } = s.db
  tables : { s'.db.checkout with carts := s.db.checkout.carts } = s.db.checkout
  customers : s'.customers = s.customers
  prices : s'.prices = s.prices

/-- The two states differ by one new cart at most, the time of the cart's last update, and
one line of the cart, which is open and the customer's own and holds what was asked for
more of the variant. -/
structure Added (input : AddCartItemInput) (variantId : VariantId) (s s' : Shop) (c : Cart) :
    Prop where
  frame : Frame s s'
  cart : c ∈ s'.db.checkout.carts
  own : isCustomerCart input c = true
  carts : s'.db.checkout.carts = s.db.checkout.carts ∨
    s'.db.checkout.carts = s.db.checkout.carts ++ [c]
  updatedAt : ∀ id, id ≠ c.id → s'.updatedAt id = s.updatedAt id
  others : s'.items.filter (fun i => !isLine input.tenantId c.id variantId i) =
    s.items.filter fun i => !isLine input.tenantId c.id variantId i
  quantity : lineQuantity s'.items input.tenantId c.id variantId =
    lineQuantity s.items input.tenantId c.id variantId + input.quantity
  lines : KeyUnique lineKey s'.items

/-- The line of a cart, with more of the variant at a price, is within what its columns
hold. -/
def LineFits (s : Shop) (input : AddCartItemInput) (cartId : CartId) (variantId : VariantId)
    (unitPrice : Int) : Prop :=
  (lineQuantity s.items input.tenantId cartId variantId + input.quantity) * unitPrice ≤
      maxInteger ∧
    lineDiscount s.items input.tenantId cartId variantId ≤
      (lineQuantity s.items input.tenantId cartId variantId + input.quantity) * unitPrice

/-- When the request commits: it has a session with an open cart of its own, or the customer
has no open cart in the currency at all. -/
def Addable (input : AddCartItemInput) (s : Shop) (variantId : VariantId) (unitPrice : Int) :
    Prop :=
  (∃ c ∈ s.db.checkout.carts, isCustomerCart input c = true ∧ c.sessionId.isSome = true ∧
    c.sessionId = input.sessionId ∧ LineFits s input c.id variantId unitPrice) ∨
  ((∀ c ∈ s.db.checkout.carts, isCustomerCart input c = false) ∧
    (input.tenantId, input.customerId) ∈ s.customers ∧ input.quantity * unitPrice ≤ maxInteger)

end CommercePlayground.Checkout
