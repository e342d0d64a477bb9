/-
CommercePlayground.Catalog.Prices — `updatePrice` of the catalog, statement by
statement.

`JdbcCatalogRepository.updatePrice` runs in one transaction of PostgreSQL at read
committed: `CURRENT_TIMESTAMP` is the start of the transaction, `FOR UPDATE` holds
the row of the variant until the end, a statement sees what was committed before it
began, and the sequence number of the journal is taken when the row is inserted. Any
number of transactions run at once; a step is one statement of one of them.
-/
import CommercePlayground.Lib.Table
import CommercePlayground.Lib.Text
import CommercePlayground.Lib.Transition

namespace CommercePlayground.Catalog

open Lib

/-! ## Tables -/

structure Tenant where
  id : Text
  defaultCurrency : Text

/-- An active row of `product_variants`. -/
structure Variant where
  tenantId : Text
  id : Text
  productId : Text
  sku : Text
  deriving DecidableEq

/-- A row of `prices`; ids and times are numbers. -/
structure Price where
  id : Nat
  tenantId : Text
  variantId : Text
  currency : Text
  amountMinor : Int
  compareAtMinor : Option Int
  validFrom : Nat
  validTo : Option Nat
  isDefault : Bool
  deriving DecidableEq

/-- A row of `price_change_events`. -/
structure PriceChangeEvent where
  sequence : Nat
  tenantId : Text
  sku : Text
  productId : Text
  variantId : Text
  priceId : Nat
  currency : Text
  amountMinor : Int
  compareAtMinor : Option Int
  validFrom : Nat
  observedAt : Nat
  deriving DecidableEq

/-- `PriceUpdateCommand`, with the currency trimmed and in upper case. -/
structure PriceUpdateCommand where
  tenantId : Text
  sku : Text
  currency : Text
  amountMinor : Int
  compareAtMinor : Option Int
  deriving DecidableEq

/-- The checks of `ProductController.updatePrice` on what it passes on. -/
def PriceUpdateCommand.accepted (c : PriceUpdateCommand) : Bool :=
  !isBlank c.sku && decide (0 ≤ c.amountMinor) &&
    c.compareAtMinor.all (fun compareAt => decide (c.amountMinor ≤ compareAt)) &&
    !isBlank c.currency

/-! ## Transactions -/

/-- The constraints of `prices` that an update can run into. -/
inductive Constraint where
  /-- `valid_to IS NULL OR valid_to > valid_from` -/
  | validTo
  /-- `amount_minor >= 0` and `compare_at_minor >= amount_minor` -/
  | amounts
  /-- `UNIQUE (tenant_id, variant_id, currency, valid_from)` -/
  | validFromUnique
  deriving DecidableEq

/-- How far a transaction has come. From `locked` to `recorded` it holds the row of
its variant; what it has written so far stands in the phase and is not visible to
others. -/
inductive Phase where
  | started
  | locked (variant : Variant)
  | expired (variant : Variant) (ids : List Nat)
  | inserted (variant : Variant) (ids : List Nat) (price : Price)
  | recorded (variant : Variant) (ids : List Nat) (price : Price) (event : PriceChangeEvent)
  | committed
  | rejected (message : String)
  | violated (constraint : Constraint)
  deriving DecidableEq

structure Transaction where
  command : PriceUpdateCommand
  /-- `CURRENT_TIMESTAMP` -/
  startedAt : Nat
  phase : Phase
  deriving DecidableEq

structure Database where
  now : Nat
  tenants : List Tenant
  variants : List Variant
  prices : List Price
  events : List PriceChangeEvent
  nextSequence : Nat
  /-- `UUID.randomUUID`. -/
  nextPrice : Nat
  transactions : List Transaction

/-- The variant whose row a transaction has locked. -/
def Phase.variant? : Phase → Option Variant
  | .locked v => some v
  | .expired v _ => some v
  | .inserted v _ _ => some v
  | .recorded v _ _ _ => some v
  | _ => none

/-- Two references to one row of `product_variants`. -/
def Variant.sameRow (v w : Variant) : Bool := decide (v.tenantId = w.tenantId ∧ v.id = w.id)

def Database.isLocked (db : Database) (v : Variant) : Bool :=
  db.transactions.any fun tx => tx.phase.variant?.any v.sameRow

/-- The rows of `prices` for one variant in one currency. -/
def Price.isOf (tenantId variantId currency : Text) (p : Price) : Bool :=
  decide (p.tenantId = tenantId ∧ p.variantId = variantId ∧ p.currency = currency)

/-- The WHERE clause of the UPDATE. -/
def Transaction.replaces (tx : Transaction) (v : Variant) (p : Price) : Bool :=
  p.isOf tx.command.tenantId v.id tx.command.currency && p.isDefault

/-- `SET is_default = FALSE, valid_to = :validTo`. -/
def Price.expire (validTo : Nat) (p : Price) : Price :=
  { p with isDefault := false, validTo := some validTo }

/-- The row of the INSERT into `prices`. -/
def Transaction.newPrice (tx : Transaction) (v : Variant) (id : Nat) : Price where
  id := id
  tenantId := tx.command.tenantId
  variantId := v.id
  currency := tx.command.currency
  amountMinor := tx.command.amountMinor
  compareAtMinor := tx.command.compareAtMinor
  validFrom := tx.startedAt
  validTo := none
  isDefault := true

/-- The row of the INSERT into `price_change_events`. -/
def Transaction.newEvent (tx : Transaction) (v : Variant) (price : Price) (sequence : Nat) :
    PriceChangeEvent where
  sequence := sequence
  tenantId := tx.command.tenantId
  sku := tx.command.sku
  productId := v.productId
  variantId := v.id
  priceId := price.id
  currency := tx.command.currency
  amountMinor := tx.command.amountMinor
  compareAtMinor := tx.command.compareAtMinor
  validFrom := tx.startedAt
  observedAt := tx.startedAt

/-! ## Statements -/

/-- The rows `updatePrice` looks up first: the tenant and the variant. -/
def findVariant (db : Database) (c : PriceUpdateCommand) : Except String Variant :=
  match db.tenants.find? fun t => decide (t.id = c.tenantId) with
  | none => .error ("unknown tenant: " ++ String.ofList c.tenantId)
  | some tenant =>
    if tenant.defaultCurrency ≠ c.currency then
      .error ("currency does not match tenant default currency: " ++
        String.ofList tenant.defaultCurrency)
    else
      match db.variants.find? fun v => decide (v.tenantId = c.tenantId ∧ v.sku = c.sku) with
      | none => .error ("unknown active SKU: " ++ String.ofList c.sku)
      | some v => .ok v

def setPhase (db : Database) (i : Nat) (tx : Transaction) (phase : Phase) : Database :=
  { db with transactions := db.transactions.set i { tx with phase := phase } }

/-- `SELECT ... FOR UPDATE` on the variant, which waits for the transaction that
holds the row. -/
def lockVariant (db : Database) (i : Nat) (tx : Transaction) : Option Database :=
  match findVariant db tx.command with
  | .error message => some (setPhase db i tx (.rejected message))
  | .ok v => if db.isLocked v then none else some (setPhase db i tx (.locked v))

/-- `UPDATE prices`. -/
def expirePrices (db : Database) (i : Nat) (tx : Transaction) (v : Variant) : Database :=
  let rows := db.prices.filter (tx.replaces v)
  if rows.all fun p => decide (p.validFrom < tx.startedAt) then
    setPhase db i tx (.expired v (rows.map Price.id))
  else setPhase db i tx (.violated .validTo)

/-- `INSERT INTO prices`. -/
def insertPrice (db : Database) (i : Nat) (tx : Transaction) (v : Variant) (ids : List Nat) :
    Database :=
  let price := tx.newPrice v db.nextPrice
  if price.amountMinor < 0 || price.compareAtMinor.any (fun c => decide (c < price.amountMinor)) then
    setPhase db i tx (.violated .amounts)
  else if db.prices.any fun p => p.isOf price.tenantId price.variantId price.currency &&
      decide (p.validFrom = price.validFrom) then
    setPhase db i tx (.violated .validFromUnique)
  else { setPhase db i tx (.inserted v ids price) with nextPrice := db.nextPrice + 1 }

/-- `INSERT INTO price_change_events`. -/
def insertEvent (db : Database) (i : Nat) (tx : Transaction) (v : Variant) (ids : List Nat)
    (price : Price) : Database :=
  { setPhase db i tx (.recorded v ids price (tx.newEvent v price db.nextSequence)) with
    nextSequence := db.nextSequence + 1 }

/-- The prices after a commit. -/
def committedPrices (tx : Transaction) (ids : List Nat) (price : Price) (prices : List Price) :
    List Price :=
  updateWhere (fun p => decide (p.id ∈ ids)) (Price.expire tx.startedAt) prices ++ [price]

/-- COMMIT. -/
def commit (db : Database) (i : Nat) (tx : Transaction) (ids : List Nat) (price : Price)
    (event : PriceChangeEvent) : Database :=
  { setPhase db i tx .committed with
    prices := committedPrices tx ids price db.prices
    events := db.events ++ [event] }

/-- The next statement of a transaction. -/
def statement (db : Database) (i : Nat) (tx : Transaction) : Option Database :=
  match tx.phase with
  | .started => lockVariant db i tx
  | .locked v => some (expirePrices db i tx v)
  | .expired v ids => some (insertPrice db i tx v ids)
  | .inserted v ids price => some (insertEvent db i tx v ids price)
  | .recorded _ ids price event => some (commit db i tx ids price event)
  | .committed => none
  | .rejected _ => none
  | .violated _ => none

inductive Action where
  | begin (command : PriceUpdateCommand)
  | statement (transaction : Nat)
  | elapse (microseconds : Nat)

def step (db : Database) : Action → Option Database
  | .begin command =>
    if command.accepted then
      some { db with transactions := db.transactions ++ [⟨command, db.now, .started⟩] }
    else none
  | .statement i => (db.transactions[i]?).bind (statement db i)
  | .elapse n => some { db with now := db.now + n }

end CommercePlayground.Catalog
