/-
CommercePlayground.Checkout.Reconciliation — the payment-reconciliation queue
and the processes at work on it.

`Checkout.Machine` commits transactions and forgets who issued them. Whether
a reconciliation is stranded depends on who is still at work: a row that
waits for the provider is fine while its request handler is about to wake it.
The states here add the requests with a handler in flight and the jobs of
the workers in flight; a handler or a worker may end, or die, between any two
of its transactions. A handler's transactions need its handler and a worker's
need a job that `claim_payment_reconciliation` handed out; apart from that
every transaction of checkout, payment and inventory may come at any time
with any arguments.
-/
import CommercePlayground.Checkout.Machine

namespace CommercePlayground.Checkout

/-- The database, the requests a handler is working on and the workers' jobs. -/
structure Flight where
  db : Db
  handlers : List (TenantId × RequestId)
  workers : List PaymentReconciliationJob

/-- What can happen to the queue. -/
inductive Event where
  /-- A client sends a checkout request. -/
  | arrive (tenantId : TenantId) (requestId : RequestId)
  /-- Its handler returns or dies. -/
  | leave (tenantId : TenantId) (requestId : RequestId)
  /-- A worker ends its run or dies. -/
  | stop (job : PaymentReconciliationJob)
  | act (a : Action)

/-- The job a transaction is issued for. -/
def Tx.job : Tx → Option PaymentReconciliationJob
  | .recordPaymentReconciliationObservation job => some job
  | .attachPaymentToReconciliation job _ => some job
  | .reschedulePaymentReconciliation job => some job
  | .completePaymentReconciliation job _ => some job
  | .failPaymentReconciliation job _ => some job
  | _ => none

/-- The request whose handler issues a transaction. -/
def Tx.handled : Tx → Option (TenantId × RequestId)
  | .claimCheckoutAttempt tenantId requestId _ => some (tenantId, requestId)
  | .createPendingOrder _ _ lease => some (lease.tenantId, lease.requestId)
  | .recordCheckoutResponse lease _ _ _ => some (lease.tenantId, lease.requestId)
  | .recordCheckoutFailure lease _ => some (lease.tenantId, lease.requestId)
  | .registerPendingPaymentReconciliation _ lease _ _ _ => some (lease.tenantId, lease.requestId)
  | .wakePaymentReconciliation tenantId requestId => some (tenantId, requestId)
  | _ => none

/-- The job a transaction hands out. -/
def Tx.handedOut : (tx : Tx) → tx.Result → List PaymentReconciliationJob
  | .claimPaymentReconciliation _, job => job.toList
  | _, _ => []

def Action.job : Action → Option PaymentReconciliationJob
  | .checkout tx => tx.job
  | _ => none

def Action.handled : Action → Option (TenantId × RequestId)
  | .checkout tx => tx.handled
  | _ => none

def Action.handedOut (db : Db) : Action → List PaymentReconciliationJob
  | .checkout tx =>
    match tx.run db with
    | .ok (r, _) => tx.handedOut r
    | .error _ => []
  | _ => []

/-- One event. The request id of a handler is never blank: `checkout_inner`
makes one up for a request without. -/
def Flight.step (s : Flight) : Event → Option Flight
  | .arrive tenantId requestId =>
    if requestId.length = 0 then none
    else some { s with handlers := (tenantId, requestId) :: s.handlers }
  | .leave tenantId requestId =>
    if (tenantId, requestId) ∈ s.handlers then
      some { s with handlers := s.handlers.erase (tenantId, requestId) }
    else none
  | .stop job =>
    if job ∈ s.workers then some { s with workers := s.workers.erase job } else none
  | .act a =>
    if (a.job.all fun job => decide (job ∈ s.workers)) &&
        a.handled.all fun request => decide (request ∈ s.handlers) then
      some { s with
        db := (a.commit s.db).getD s.db
        workers := a.handedOut s.db ++ s.workers }
    else none

/-- An empty queue, an empty payment store and nobody at work. -/
structure Flight.Initial (s : Flight) : Prop where
  reconciliations : s.db.checkout.reconciliations = []
  payment : PaymentStore.Initial s.db
  reservations : s.db.inventory.reservations = []
  handlers : s.handlers = []
  workers : s.workers = []

/-! ## Pending checkouts -/

/-- A reconciliation that some worker will be able to claim without another
client request: due now or later, or abandoned once its claim expires, and
with a run left. -/
def isScheduled (r : Reconciliation) : Bool :=
  (decide (r.status = .queued) || (decide (r.status = .processing) && r.leaseExpiresAt.isSome)) &&
    decide (r.attempts < reconciliationMaxAttempts)

/-- The payment of a checkout request. -/
def isPaymentOf (r : Reconciliation) (p : Payment) : Bool :=
  decide (p.id = ⟨r.tenantId, .authorize r.requestId⟩)

/-- Somebody is working on the reconciliation: a handler of its request or a
worker that claimed it. -/
def Flight.atWork (s : Flight) (r : Reconciliation) : Bool :=
  decide ((r.tenantId, r.requestId) ∈ s.handlers) ||
    s.workers.any fun job => decide (job.tenantId = r.tenantId ∧ job.requestId = r.requestId)

/-- A payment that was pending and is not any more: the statement that takes it
out of `pending` is the only one that counts a reconciliation attempt. -/
def leftPending (p : Payment) : Bool := decide (0 < p.pendingReconciliationAttempts)

end CommercePlayground.Checkout
