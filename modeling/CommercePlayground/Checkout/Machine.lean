/-
CommercePlayground.Checkout.Machine — the committed transactions of checkout
and inventory as one state machine.

A step is one transaction, with any arguments: the machine does not follow
the control flow of a request or a worker, so every interleaving, every
delay and every crash between two transactions is a run of it. The one
thing a caller cannot make up is a worker's claim on a compensation task,
which only `claim_compensation_task` hands out (`claims`). The transactions
of the payment service, which also wake reconciliations, and the passing of
time are steps as well.
-/
import CommercePlayground.Lib.Transition
import CommercePlayground.Checkout.Store
import CommercePlayground.Inventory.Store
import CommercePlayground.Payment.Service

namespace CommercePlayground.Checkout

/-- The database and the compensation claims handed out so far. -/
structure State where
  db : Db
  claims : List ClaimedTask

/-- What can happen. -/
inductive Action where
  | checkout (tx : Tx)
  | inventory (a : Inventory.Action)
  | payment (a : PaymentStore.Action)
  | elapse (time : Nat)

/-- The worker's claim a transaction is given. -/
def Tx.claim : Tx → Option ClaimedTask
  | .compensationFence task => some task
  | .finishCompensationTask task _ => some task
  | .rescheduleCompensationTask task => some task
  | _ => none

/-- The claim a transaction hands out. -/
def Tx.granted : (tx : Tx) → tx.Result → List ClaimedTask
  | .claimCompensationTask _, task => task.toList
  | _, _ => []

/-- The generation a request to inventory carries. -/
def requestGeneration (tenantId : TenantId) :
    Option RequestId → Option Nat → Option Generation
  | some requestId, some token => some ⟨tenantId, requestId, token⟩
  | _, _ => none

/-- The generation a step carries. -/
def Action.generation : Action → Option Generation
  | .checkout tx => tx.generation
  | .inventory (.reserve q) =>
    requestGeneration q.tenantId q.checkoutRequestId q.checkoutLeaseToken
  | .inventory (.release q) =>
    requestGeneration q.tenantId q.checkoutRequestId q.checkoutLeaseToken
  | .inventory (.consume q) =>
    requestGeneration q.tenantId q.checkoutRequestId q.checkoutLeaseToken
  | .inventory (.reap _) | .inventory (.environment ..) | .payment _ | .elapse _ => none

/-- The database of a transaction that committed. -/
def committedDb {ε α : Type} : Except ε (α × Db) → Option Db
  | .ok r => some r.2
  | .error _ => none

/-- The database a step commits, `none` when its transaction fails. The other
services' environments are the other actions of this machine. -/
def Action.commit (db : Db) : Action → Option Db
  | .checkout tx => committedDb (tx.run db)
  | .inventory (.reserve q) => committedDb (Inventory.reserve q db)
  | .inventory (.release q) => committedDb (Inventory.release q db)
  | .inventory (.consume q) => committedDb (Inventory.consume q db)
  | .inventory (.reap visible) => committedDb (Inventory.reapExpiredReservations visible db)
  | .inventory (.environment ..) | .payment (.environment ..) => none
  | .payment a => PaymentStore.step db a
  | .elapse time => some { db with now := db.now + time }

/-- The claims a step hands out. -/
def Action.granted (db : Db) : Action → List ClaimedTask
  | .checkout tx =>
    match tx.run db with
    | .ok (r, _) => tx.granted r
    | .error _ => []
  | _ => []

/-- The claim a step is given. -/
def Action.claim : Action → Option ClaimedTask
  | .checkout tx => tx.claim
  | _ => none

/-- One step: a failed transaction leaves everything as it was. -/
def step (s : State) (a : Action) : Option State :=
  if a.claim.all fun c => decide (c ∈ s.claims) then
    some { db := (a.commit s.db).getD s.db, claims := a.granted s.db ++ s.claims }
  else none

/-- No checkout has happened. -/
structure Initial (s : State) : Prop where
  attempts : s.db.checkout.attempts = []
  tasks : s.db.checkout.tasks = []
  reconciliations : s.db.checkout.reconciliations = []
  payments : s.db.payment.payments = []
  reservations : s.db.inventory.reservations = []
  claims : s.claims = []

end CommercePlayground.Checkout
