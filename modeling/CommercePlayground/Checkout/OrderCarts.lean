/-
CommercePlayground.Checkout.OrderCarts — the cart of an order, over the runs of
`add_cart_item` and of checkout.

A shop takes lines into carts and commits the transactions of the checkout
machine. A transaction may also write what the machine leaves out, the lines of
carts and the times of their updates, so these may be anything after it.
-/
import CommercePlayground.Checkout.Carts

namespace CommercePlayground.Checkout

open Lib

/-! ## Runs -/

/-- What can happen in a shop. -/
inductive ShopAction where
  | addCartItem (input : AddCartItemInput)
  | transaction (a : Action) (updatedAt : CartId → Nat) (items : List CartItem)

/-- One step: a failed transaction leaves the database as it was. -/
def Shop.step (s : Shop) : ShopAction → Option Shop
  | .addCartItem input =>
    match addCartItem input s with
    | .ok (_, s') => some s'
    | .error _ => some s
  | .transaction a updatedAt items =>
    some { s with
      db := (a.commit s.db).getD s.db
      updatedAt := updatedAt
      items := items }

/-- There are carts, in any state the constraints allow, and no checkout has happened. -/
structure Shop.Initial (s : Shop) : Prop where
  constraints : s.Constraints
  orders : s.db.checkout.orders = []
  payments : s.db.payment.payments = []
  reservations : s.db.inventory.reservations = []

/-! ## What is asked of an order's cart -/

/-- The order has a cart, which is open and that of the request's identity. -/
def InOpenCart (input : CheckoutInput) (order : PendingOrder) (db : Db) : Prop :=
  ∃ c ∈ db.checkout.carts, c.id = order.cartId ∧ c.tenantId = input.tenantId ∧
    c.customerId = some input.customerId ∧ c.sessionId = some input.sessionId ∧
    c.currency = input.currencyCode ∧ c.status = .active

/-- The request does not fail for lack of a cart, and where it succeeds its order has one. -/
def GetsCart (input : CheckoutInput) (quote : QuoteResponse) (lease : CheckoutLease) (db : Db) :
    Prop :=
  (∀ e, createPendingOrder input quote lease db = .error e → e.code ≠ .cartPersistenceFailed) ∧
  ∀ order db', createPendingOrder input quote lease db = .ok (order, db') →
    InOpenCart input order db'

/-- An order the request may take up again: it is of the same identity, and the attempt is
still its own. -/
structure Reusable (input : CheckoutInput) (lease : CheckoutLease) (db : Db) (o : Order) :
    Prop where
  customer : o.customerId = input.customerId
  currency : o.currency = input.currencyCode
  session : (cartOf db o).bind (·.sessionId) = some input.sessionId
  attempt : affected (isLinkable (orderGeneration input lease) o.id) db.checkout.attempts = 1

/-- A new order needs a session that has had no cart, an old one a cart that is still open. -/
structure CartReady (input : CheckoutInput) (lease : CheckoutLease) (db : Db) : Prop where
  unused : orderOfRequest db input.tenantId lease.requestId = none →
    ∀ c ∈ db.checkout.carts, c.tenantId = input.tenantId → c.sessionId ≠ some input.sessionId
  kept : ∀ o, orderOfRequest db input.tenantId lease.requestId = some o →
    Reusable input lease db o → (cartOf db o).map (·.status) = some .active

/-! ## What a run keeps -/

/-- A cart after a write: its status may be another one. -/
structure SameCart (c c' : Cart) : Prop where
  id : c'.id = c.id
  tenant : c'.tenantId = c.tenantId
  customer : c'.customerId = c.customerId
  session : c'.sessionId = c.sessionId
  currency : c'.currency = c.currency

/-- The cart an order was made from. -/
structure IsCartOf (o : Order) (c : Cart) : Prop where
  tenant : c.tenantId = o.tenantId
  id : c.id = o.cartId
  customer : c.customerId = some o.customerId
  currency : c.currency = o.currency

/-- Carts have their ids, and every order its cart. -/
structure CartInv (db : Db) : Prop where
  ids : KeyUnique (·.id) db.checkout.carts
  orders : ∀ o ∈ db.checkout.orders, ∃ c ∈ db.checkout.carts, IsCartOf o c

end CommercePlayground.Checkout
