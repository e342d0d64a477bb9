/-
CommercePlayground.Payment.Service — `PaymentRequestValidator` and
`PaymentService` over the store, and the payment service as a state machine.

A request is validated, checked for a synthetic transport fault, and then
handed to the store; every failure of the store becomes a gRPC status. The
machine's other actions are the background reconciliation, the provider
adapter publishing a decision, and the rest of the system changing the
tables that payment only reads while time passes.
-/
import CommercePlayground.Lib.Transition
import CommercePlayground.Payment.Store

namespace CommercePlayground.PaymentStore

/-! ## Validation -/

/-- `MAX_AMOUNT_MINOR`: the amounts are stored as PostgreSQL INTEGER. -/
def maxAmountMinor : Int := 2147483647

/-- `requireText(request_id, "request_id", 128)`. -/
def requireRequestId (id : PaymentRequestId) : Option PaymentRpcException :=
  if id.length = 0 then some (invalidArgument .unspecified "request_id is required")
  else if id.length > 128 then
    some (invalidArgument .unspecified "request_id exceeds maximum length")
  else none

/-- `requireMoney(amount, "amount")`. -/
def requireMoney (m : Money) : Option PaymentRpcException :=
  if m.amountMinor ≤ 0 ∨ m.amountMinor > maxAmountMinor then
    some (invalidArgument .unspecified "amount.amount_minor must be positive")
  else none

/-- `requireMethod`. -/
def requireMethod (t : PaymentMethodType) : Option PaymentRpcException :=
  if t = .unspecified then
    some (invalidArgument .invalidPaymentMethod "payment_method.type is required")
  else none

/-- The reason check of `voidPayment` and `refund`. -/
def requireReason (unspecified : Bool) : Option PaymentRpcException :=
  if unspecified then some (invalidArgument .invalidState "reason is required") else none

/-- `PaymentRequestValidator`, by message. -/
def validate (q : Request) : Option PaymentRpcException :=
  (requireRequestId q.requestId).orElse fun _ =>
    match q.message with
    | .authorize _ amount methodType _ =>
      (requireMoney amount).orElse fun _ => requireMethod methodType
    | .capture _ amount => amount.bind requireMoney
    | .void _ reason => requireReason (decide (reason = .unspecified))
    | .refund _ amount reason =>
      (requireMoney amount).orElse fun _ => requireReason (decide (reason = .unspecified))

/-- The synthetic transport fault of an authorize's payment token. -/
def transportFault : PaymentMessage → Option PaymentRpcException
  | .authorize _ _ _ token => (forMethod token).transportException
  | _ => none

/-! ## The service -/

/-- The status `respond` gives to a failure of the persistence layer. -/
def persistenceFailed : PaymentRpcException :=
  ⟨.internal, .unspecified, "payment persistence failed"⟩

/-- `respond`: the gRPC outcome of a store transaction and the database it
leaves. -/
def respond {α : Type} (db : Db) :
    Except StoreError (Except PaymentRpcException α × Db) →
      Except PaymentRpcException α × Db
  | .ok r => r
  | .error (.rpc e) => (.error e, db)
  | .error (.sql _) => (.error persistenceFailed, db)
  | .error (.illegalState _) => (.error persistenceFailed, db)

/-- The four RPCs of `PaymentService`. -/
def serve (q : Request) (db : Db) : TxOutcome × Db :=
  match validate q with
  | some e => (.error e, db)
  | none =>
    match transportFault q.message with
    | some e => (.error e, db)
    | none => respond db (executeIdempotently q db)

/-- `PaymentService.getPayment`. -/
def serveGetPayment (tenantId : TenantId) (id : PaymentId) (db : Db) :
    Except PaymentRpcException PaymentRecord × Db :=
  respond db (getPayment tenantId id db)

/-! ## The state machine -/

/-- What can happen to the payment tables. -/
inductive Action where
  /-- One of the four RPCs arrives, for the first time or again. -/
  | request (q : Request)
  | getPayment (tenantId : TenantId) (id : PaymentId)
  /-- A run of `PendingPaymentReconciliationWorker`. -/
  | reconcile (maxBatch : Nat) (keys : List (TenantId × PaymentId))
  /-- The provider adapter publishes a decision it verified by now. -/
  | decide (d : ProviderDecision)
  /-- Nat passes and other services write their own tables. -/
  | environment (elapsed : Nat) (checkout : CheckoutTables) (inventory : InventoryTables)

/-- The database a transaction leaves: its result, or the old one. -/
def committed {α : Type} (db : Db) : Except StoreError (α × Db) → Db
  | .ok r => r.2
  | .error _ => db

/-- One step of the payment service. -/
def step (db : Db) : Action → Option Db
  | .request q => some (serve q db).2
  | .getPayment t id => some (serveGetPayment t id db).2
  | .reconcile n keys => some (committed db (reconcilePendingPayments n keys db))
  | .decide d =>
    if d.verifiedAt ≤ db.now then
      some (match insertDecision db d with | .ok db' => db' | .error _ => db)
    else none
  | .environment elapsed checkout inventory =>
    some { db with now := db.now + elapsed, checkout := checkout, inventory := inventory }

/-- No payment, operation or decision is stored yet. -/
def Initial (db : Db) : Prop :=
  db.payment.payments = [] ∧ db.payment.operations = [] ∧ db.payment.decisions = []

/-- The states of every run from an empty store. -/
def Reachable (db : Db) : Prop :=
  ∃ db₀, Initial db₀ ∧ Lib.Reach step (fun _ _ => True) db₀ db

end CommercePlayground.PaymentStore
