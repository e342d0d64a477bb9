/-
CommercePlayground.Checkout.Compensation — what checkout sends to payment
about one order, and the compensation loop against the store's replies.

A request that was sent may reach the payment service late, again, or not at
all: the desk keeps every request it sent, and delivers any of them at any
time. A void or a refund is sent only after a look at the payment that calls
for it, as in `compensate_payment`.
-/
import CommercePlayground.Checkout.Flow

namespace CommercePlayground.Checkout

open Lib

/-! ## The requests of an order -/

/-- The payment that the authorization of a checkout request creates. -/
def orderPayment (order : PendingOrder) (requestId : RequestId) : PaymentId :=
  ⟨order.tenantId, .authorize requestId⟩

/-- The request of `authorize_payment`. -/
def authorizeRequest (order : PendingOrder) (requestId : RequestId) (method : PaymentMethodType)
    (token : PaymentToken) : PaymentStore.Request :=
  ⟨order.tenantId, .authorize requestId, .authorize order.id order.total method token⟩

/-- The request of `capture_payment`: always the full amount. -/
def captureRequest (order : PendingOrder) (requestId : RequestId) : PaymentStore.Request :=
  ⟨order.tenantId, .capture requestId,
    .capture (orderPayment order requestId) (some order.total)⟩

/-- The request of `void_payment`. -/
def voidRequest (order : PendingOrder) (requestId : RequestId) : PaymentStore.Request :=
  ⟨order.tenantId, .void requestId, .void (orderPayment order requestId) .orderCancelled⟩

/-- The request of `refund_payment`. -/
def refundRequest (order : PendingOrder) (requestId : RequestId) (amount : Int) :
    PaymentStore.Request :=
  ⟨order.tenantId, .refund requestId amount,
    .refund (orderPayment order requestId) ⟨order.currency, amount⟩ .orderCancelled⟩

/-- The request of `compensationAction`. -/
def compensationRequest (order : PendingOrder) (requestId : RequestId) (s : PaymentSnapshot) :
    Option PaymentStore.Request :=
  if s.capturedMinor - s.refundedMinor > 0 then
    some (refundRequest order requestId (s.capturedMinor - s.refundedMinor))
  else if s.status = .authorized then some (voidRequest order requestId)
  else none

/-! ## The desk -/

/-- The database and the requests that were sent so far. -/
structure Desk where
  db : Db
  sent : List PaymentStore.Request

/-- What can happen to the payment of an order. -/
inductive Desk.Event where
  | authorize (method : PaymentMethodType) (token : PaymentToken)
  | capture
  /-- A look at the payment, and the request it calls for. -/
  | compensate
  /-- A request that was sent arrives, for the first time or again. -/
  | deliver (i : Nat)
  /-- The payment service works on its own. -/
  | service (a : PaymentStore.Action)

def Desk.send (s : Desk) (q : PaymentStore.Request) : Desk := { s with sent := q :: s.sent }

/-- The database after a look, and the request it calls for. -/
def lookAt (order : PendingOrder) (requestId : RequestId) (db : Db) :
    Option PaymentStore.Request × Db :=
  let r := PaymentStore.serveGetPayment order.tenantId (orderPayment order requestId) db
  match paymentRecord r.1 with
  | .error _ => (none, r.2)
  | .ok record =>
    match validateSnapshot order (orderPayment order requestId) record with
    | .error _ => (none, r.2)
    | .ok snapshot =>
      if paymentCompensationConfirmed snapshot then (none, r.2)
      else (compensationRequest order requestId snapshot, r.2)

/-- Whether an action of the payment service is one of its own. -/
def isOwnWork : PaymentStore.Action → Bool
  | .request _ => false
  | _ => true

def Desk.step (order : PendingOrder) (requestId : RequestId) (s : Desk) :
    Desk.Event → Option Desk
  | .authorize method token => some (s.send (authorizeRequest order requestId method token))
  | .capture => some (s.send (captureRequest order requestId))
  | .compensate =>
    let r := lookAt order requestId s.db
    some ⟨r.2, r.1.toList ++ s.sent⟩
  | .deliver i => (s.sent[i]?).map fun q => { s with db := (PaymentStore.serve q s.db).2 }
  | .service a =>
    if isOwnWork a then (PaymentStore.step s.db a).map fun db => { s with db := db } else none

/-- The desk's states in every run from an empty payment store. -/
def Desk.Reachable (order : PendingOrder) (requestId : RequestId) (s : Desk) : Prop :=
  ∃ db₀, PaymentStore.Initial db₀ ∧
    Reach (Desk.step order requestId) (fun _ _ => True) ⟨db₀, []⟩ s

/-! ## The loop and the store -/

/-- The reply of the payment store to a call. A request that the service's
validation turns away never reaches the store. -/
def storeReply (db : Db) : (c : Call) → Option (c.Reply × Db)
  | .payment q =>
    if (PaymentStore.validate q).isNone then some (PaymentStore.serve q db) else none
  | .getPayment tenantId id => some (PaymentStore.serveGetPayment tenantId id db)
  | .reserve _ => none
  | .release _ => none
  | .consume _ => none

/-- The capture in flight takes effect, or not yet. -/
def land (capture : PaymentStore.Request) (db : Db) : Bool → Db
  | true => (PaymentStore.serve capture db).2
  | false => db

/-- A program whose every call gets the store's reply; `lands` says before
which of its calls the capture in flight is delivered. `none` when some call
gets no such reply. -/
def answered {α : Type} (capture : PaymentStore.Request) :
    Prog Effect Effect.Result α → List Bool → Db → Option (α × Db)
  | .done a, _, db => some (a, db)
  | .perform (.call c) k, lands, db =>
    match storeReply (land capture db (lands.headD false)) c with
    | none => none
    | some (r, db') => answered capture (k (c.received r)) lands.tail db'
  | .perform _ _, _, _ => none

end CommercePlayground.Checkout
