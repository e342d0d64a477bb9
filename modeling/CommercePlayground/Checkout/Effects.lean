/-
CommercePlayground.Checkout.Effects — what the request handler and the two
workers of checkout do to the world: transactions, remote calls and the
heartbeat of a fence.

The services answer over gRPC and HTTP. A gRPC call ends in a response or a
status; an HTTP call ends in a response, whose body may turn out to be
unreadable, or in a transport error (`none`). Neither a lost response nor a
status made up by the client library says whether the service acted.
-/
import CommercePlayground.Lib.Program
import CommercePlayground.Checkout.Store
import CommercePlayground.Inventory.Store
import CommercePlayground.Payment.Service

namespace CommercePlayground.Checkout

open Lib

/-! ## Remote calls -/

/-- The remote calls of checkout. -/
inductive Call where
  | payment (q : PaymentStore.Request)
  | getPayment (tenantId : TenantId) (id : PaymentId)
  | reserve (q : Inventory.ReserveQuery)
  | release (q : Inventory.ReleaseBody)
  | consume (q : Inventory.ConsumeBody)

/-- An HTTP response; the body of a success may be unreadable. -/
structure Response (α : Type) where
  status : Nat
  body : Option α

/-- `StatusCode::is_success`. -/
def Response.isSuccess {α : Type} (r : Response α) : Bool :=
  decide (200 ≤ r.status ∧ r.status < 300)

/-- `StatusCode::is_server_error() || StatusCode::TOO_MANY_REQUESTS`. -/
def Response.isBusy {α : Type} (r : Response α) : Bool :=
  decide (500 ≤ r.status ∧ r.status < 600) || decide (r.status = 429)

/-- `InventoryConsumeResponse`, the payload of a consume. -/
structure InventoryConsumeResponse where
  tenantId : TenantId
  consumed : Int
  reservationCount : Nat
  status : Inventory.ConsumeStatus

/-- What a service sends back. -/
def Call.Reply : Call → Type
  | .payment _ => PaymentStore.TxOutcome
  | .getPayment .. => Except PaymentRpcException PaymentRecord
  | .reserve _ => Response Inventory.ReserveOutcome
  | .release _ => Response Inventory.ReleaseOutcome
  | .consume _ => Response InventoryConsumeResponse

/-- What the caller gets. -/
def Call.Result : Call → Type
  | .payment _ => Except PaymentRpcException OperationResponse
  | .getPayment .. => Except PaymentRpcException PaymentRecord
  | .reserve _ => Option (Response Inventory.ReserveOutcome)
  | .release _ => Option (Response Inventory.ReleaseOutcome)
  | .consume _ => Option (Response InventoryConsumeResponse)

/-- The reply arrives. -/
def Call.received : (c : Call) → c.Reply → c.Result
  | .payment _, r => r
  | .getPayment .., r => r
  | .reserve _, r => some r
  | .release _, r => some r
  | .consume _, r => some r

/-- The reply arrives with a body that cannot be read. -/
def Call.truncated : (c : Call) → c.Reply → c.Result
  | .payment _, r => r
  | .getPayment .., r => r
  | .reserve _, r => some { r with body := none }
  | .release _, r => some { r with body := none }
  | .consume _, r => some { r with body := none }

/-- A gRPC status the client library reports without a reply. -/
def transportStatus (code : GrpcCode) : PaymentRpcException := ⟨code, .unspecified, "transport"⟩

/-- No reply arrives: a gRPC client reports a status, an HTTP client an error. -/
def Call.lost (code : GrpcCode) : (c : Call) → c.Result
  | .payment _ => .error (transportStatus code)
  | .getPayment .. => .error (transportStatus code)
  | .reserve _ => none
  | .release _ => none
  | .consume _ => none

/-- The service fails before it does anything. -/
def Call.refused : (c : Call) → c.Result
  | .payment _ => .error PaymentStore.persistenceFailed
  | .getPayment .. => .error PaymentStore.persistenceFailed
  | .reserve _ => some ⟨503, none⟩
  | .release _ => some ⟨503, none⟩
  | .consume _ => some ⟨503, none⟩

/-! ## The services' handlers -/

/-- The HTTP status of a failed inventory operation. -/
def inventoryFailure : Inventory.InventoryError → Nat
  | .invalid .. => 400
  | .conflict .. => 409
  | .operation _ | .check | .primaryKey => 503

/-- `reserve_inner`. -/
def reserveResponse : Except Inventory.InventoryError (Option Inventory.ReserveOutcome × Db) →
    Response Inventory.ReserveOutcome
  | .ok (some outcome, _) => ⟨200, some outcome⟩
  | .ok (none, _) => ⟨409, none⟩
  | .error e => ⟨inventoryFailure e, none⟩

/-- `release_inner`. -/
def releaseResponse : Except Inventory.InventoryError (Option Inventory.ReleaseOutcome × Db) →
    Response Inventory.ReleaseOutcome
  | .ok (some outcome, _) => ⟨200, some outcome⟩
  | .ok (none, _) => ⟨404, none⟩
  | .error e => ⟨inventoryFailure e, none⟩

/-- `consume_inner`. -/
def consumeResponse (q : Inventory.ConsumeBody) :
    Except Inventory.InventoryError (Inventory.ConsumeOutcome × Db) →
    Response InventoryConsumeResponse
  | .ok (outcome, _) =>
    ⟨200, some ⟨q.tenantId, outcome.consumed, q.reservations.length, outcome.status⟩⟩
  | .error (.conflict .reservationNotFound _) => ⟨404, none⟩
  | .error e => ⟨inventoryFailure e, none⟩

/-- A service handles a call: its reply and the database it leaves. -/
def Call.serve (db : Db) : (c : Call) → c.Reply × Db
  | .payment q => PaymentStore.serve q db
  | .getPayment tenantId id => PaymentStore.serveGetPayment tenantId id db
  | .reserve q =>
    (reserveResponse (Inventory.reserve q db), Inventory.committed db (Inventory.reserve q db))
  | .release q =>
    (releaseResponse (Inventory.release q db), Inventory.committed db (Inventory.release q db))
  | .consume q =>
    (consumeResponse q (Inventory.consume q db), Inventory.committed db (Inventory.consume q db))

/-! ## Failures of the database -/

/-- Where a transaction can fail for reasons of its own. -/
inductive Fault where
  /-- No connection within the pool timeout. -/
  | acquire
  /-- BEGIN, the lock of the fence, or a read. -/
  | statement
  /-- A write. -/
  | write
  deriving DecidableEq

/-- `acquire_db` that times out. -/
def databaseTimeout : ApiError := ⟨503, .databaseTimeout, "database pool wait timed out"⟩

def compensationPersistenceFailed (message : String) : ApiError :=
  ⟨503, .compensationPersistenceFailed, message⟩

/-- The error a transaction reports for a fault. -/
def Tx.faultError : Tx → Fault → ApiError
  | _, .acquire => databaseTimeout
  | .enqueueInventoryCompensationTasks .., .write =>
    compensationPersistenceFailed "inventory compensation task"
  | .enqueuePaymentCompensationTask .., .write =>
    compensationPersistenceFailed "payment compensation task"
  | _, _ => dbError

/-- The error a transaction reports when the reply to its COMMIT is lost. -/
def Tx.commitError : Tx → ApiError
  | .enqueueInventoryCompensationTasks .. =>
    compensationPersistenceFailed "inventory compensation commit"
  | .finalizeOrder .. =>
    ⟨503, .finalizationCommitAmbiguous, "finalization commit outcome is unknown"⟩
  | _ => dbError

/-! ## Effects -/

/-- What a checkout process does. -/
inductive Effect where
  | tx (t : Tx)
  | call (c : Call)
  /-- `validate_catalog`, answered by the catalogue service. -/
  | catalog (input : CheckoutInput)
  /-- The pricing call of `quote_with_retry`, the last one it makes. -/
  | pricing (input : CheckoutInput)
  /-- The heartbeat task of `with_checkout_fence` starts and stops. -/
  | startHeartbeat (fence : CheckoutFence)
  | stopHeartbeat

def Effect.Result : Effect → Type
  | .tx t => ApiResult t.Result
  | .call c => c.Result
  | .catalog _ => ApiResult Unit
  | .pricing _ => ApiResult QuoteResponse
  | .startHeartbeat _ => Unit
  | .stopHeartbeat => Unit

/-- A process that may end in an `ApiError`. -/
abbrev Flow (α : Type) := ExceptT ApiError (Prog Effect Effect.Result) α

/-- Run a transaction and propagate its error. -/
def tx (t : Tx) : Flow t.Result := ExceptT.mk (Prog.lift (Effect.tx t))

/-- Make a remote call. -/
def call (c : Call) : Flow c.Result := ExceptT.lift (Prog.lift (Effect.call c))

/-- An error or a value at hand. -/
def ofResult {α : Type} (r : ApiResult α) : Flow α := ExceptT.mk (pure r)

def startHeartbeat (fence : CheckoutFence) : Flow Unit :=
  ExceptT.lift (Prog.lift (Effect.startHeartbeat fence))

def stopHeartbeat : Flow Unit := ExceptT.lift (Prog.lift Effect.stopHeartbeat)

/-- `with_checkout_fence`: the fence is checked before and after the
operation, and the second check also runs, and decides, when the operation
failed. -/
def withCheckoutFence {α : Type} (fence : CheckoutFence) (operation : Flow α) : Flow α := do
  tx (.assertCheckoutFence fence)
  startHeartbeat fence
  let result ← attempt operation
  stopHeartbeat
  tx (.assertCheckoutFence fence)
  ofResult result

end CommercePlayground.Checkout
