/-
CommercePlayground.Checkout.Fence — the checkout tables as the transactions
write them, and the three fences of a checkout generation.

A checkout request is owned by one *generation* at a time: the `lease_token`
of its row in `checkout_attempts`. Three kinds of fence refer to a generation
(`CheckoutFence`): the request handler's attempt lease, a payment
reconciliation claim and a compensation claim. `lockCheckoutFence` is the
check a writer makes in its own transaction; `assertCheckoutFence` is the
read the handlers make around a remote call.

Every transaction of checkout is a function `Db → ApiResult (α × Db)`; an
error rolls it back. Single statements without a transaction are
transactions of one statement. `FOR UPDATE` makes the transactions atomic
and has no other effect. Pool timeouts, failed statements and lost commits
are added where the transactions are performed, not here.
-/
import CommercePlayground.Checkout.Input

namespace CommercePlayground.Checkout

open Lib

/-! ## Constants -/

/-- `CHECKOUT_ATTEMPT_STALE_AFTER`, also the default of
`checkout_attempts.lease_expires_at`. -/
def attemptStaleAfter : Nat := 10 * minute

/-- `PAYMENT_RECONCILIATION_STALE_AFTER`. -/
def reconciliationStaleAfter : Nat := 5 * minute

/-- `PAYMENT_RECONCILIATION_MAX_ATTEMPTS`. -/
def reconciliationMaxAttempts : Nat := 8

/-- `COMPENSATION_STALE_AFTER`. -/
def compensationStaleAfter : Nat := 5 * minute

/-- `COMPENSATION_MAX_ATTEMPTS`. -/
def compensationMaxAttempts : Nat := 3

/-- The back-off `2 ^ clamp(attempts, 1, 8)`, at most 300 seconds. -/
def retryDelay (attempts : Nat) : Nat := min (2 ^ min (max attempts 1) 8) 300 * second

/-! ## Errors -/

def leaseLost (message : String) : ApiError := ⟨409, .checkoutLeaseLost, message⟩

/-- `db_error`: a statement the database rejects. -/
def dbError : ApiError := ⟨503, .databaseUnavailable, "database"⟩

def idempotencyCorrupt (message : String) : ApiError :=
  ⟨500, .checkoutIdempotencyCorrupt, message⟩

/-- A check in the middle of a transaction. -/
def require (c : Bool) (e : ApiError) : ApiResult Unit := if c then .ok () else .error e

/-! ## Tables -/

def setAttempts (db : Db) (t : List CheckoutAttempt) : Db :=
  { db with checkout := { db.checkout with attempts := t } }

def setOrders (db : Db) (t : List Order) : Db :=
  { db with checkout := { db.checkout with orders := t } }

def setCarts (db : Db) (t : List Cart) : Db :=
  { db with checkout := { db.checkout with carts := t } }

def setPromotions (db : Db) (t : List Promotion) : Db :=
  { db with checkout := { db.checkout with promotions := t } }

def setTasks (db : Db) (t : List CompensationTask) : Db :=
  { db with checkout := { db.checkout with tasks := t } }

def setReconciliations (db : Db) (t : List Reconciliation) : Db :=
  { db with checkout := { db.checkout with reconciliations := t } }

def setOutbox (db : Db) (t : List OutboxEvent) : Db :=
  { db with checkout := { db.checkout with outbox := t } }

def setExposures (db : Db) (t : List FeatureExposure) : Db :=
  { db with checkout := { db.checkout with exposures := t } }

def setAnalytics (db : Db) (t : List AnalyticsEvent) : Db :=
  { db with checkout := { db.checkout with analytics := t } }

/-- `Uuid::new_v4`. -/
def bumpUuid (db : Db) : Db := { db with nextUuid := db.nextUuid + 1 }

def updateAttempts (db : Db) (sel : CheckoutAttempt → Bool)
    (f : CheckoutAttempt → CheckoutAttempt) : Db :=
  setAttempts db (updateWhere sel f db.checkout.attempts)

def updateOrders (db : Db) (sel : Order → Bool) (f : Order → Order) : Db :=
  setOrders db (updateWhere sel f db.checkout.orders)

def updateTasks (db : Db) (sel : CompensationTask → Bool)
    (f : CompensationTask → CompensationTask) : Db :=
  setTasks db (updateWhere sel f db.checkout.tasks)

def updateReconciliations (db : Db) (sel : Reconciliation → Bool)
    (f : Reconciliation → Reconciliation) : Db :=
  setReconciliations db (updateWhere sel f db.checkout.reconciliations)

/-! ## Fences -/

/-- `CheckoutLease`. -/
structure CheckoutLease where
  tenantId : TenantId
  requestId : RequestId
  token : Nat
  deriving DecidableEq

/-- `CheckoutFence`. -/
inductive CheckoutFence where
  | attempt (lease : CheckoutLease)
  | paymentReconciliation (tenantId : TenantId) (requestId : RequestId)
      (parentToken workerToken : Nat)
  | compensation (tenantId : TenantId) (requestId : RequestId) (token : Nat)
      (taskId claimToken : Nat)
  deriving DecidableEq

/-- The generation a fence, a claim or a request refers to: an attempt and one
of its lease tokens. -/
structure Generation where
  tenantId : TenantId
  requestId : RequestId
  token : Nat
  deriving DecidableEq

/-- `CheckoutFence::request_id` and `CheckoutFence::token`, with the tenant. -/
def CheckoutFence.generation : CheckoutFence → Generation
  | .attempt lease => ⟨lease.tenantId, lease.requestId, lease.token⟩
  | .paymentReconciliation tenantId requestId parentToken _ =>
    ⟨tenantId, requestId, parentToken⟩
  | .compensation tenantId requestId token _ _ => ⟨tenantId, requestId, token⟩

/-- `CheckoutFence::kind`. -/
def CheckoutFence.kind : CheckoutFence → String
  | .attempt _ => "attempt"
  | .paymentReconciliation .. => "payment_reconciliation"
  | .compensation .. => "compensation"

/-- `expires_at > CURRENT_TIMESTAMP`, false for NULL. -/
def live (now : Nat) (expiresAt : Option Nat) : Bool :=
  expiresAt.any fun t => decide (now < t)

/-- `tenant_id = … AND request_id = … AND lease_token = …`. -/
def isGeneration (g : Generation) (a : CheckoutAttempt) : Bool :=
  decide (a.tenantId = g.tenantId ∧ a.requestId = g.requestId ∧ a.leaseToken = g.token)

/-- The same columns of a reconciliation. -/
def isReconciliationOf (g : Generation) (r : Reconciliation) : Bool :=
  decide (r.tenantId = g.tenantId ∧ r.requestId = g.requestId ∧ r.checkoutLeaseToken = g.token)

/-- A reconciliation that some worker is processing under a live claim. -/
def isProcessing (now : Nat) (r : Reconciliation) : Bool :=
  decide (r.status = .processing) && live now r.leaseExpiresAt

/-- The claim of one worker on a reconciliation. -/
def isClaim (now : Nat) (g : Generation) (workerToken : Nat) (r : Reconciliation) : Bool :=
  isReconciliationOf g r && decide (r.leaseToken = some workerToken) && isProcessing now r

/-- The status part of the parent predicates: `pendingOpen` says when a pending
attempt still admits work. -/
def isOpenParent (now : Nat) (pendingOpen : Bool) (a : CheckoutAttempt) : Bool :=
  match a.status with
  | .failed => true
  | .started => live now a.leaseExpiresAt
  | .pending => pendingOpen
  | .paid | .degraded => false

/-- Some attempt is the generation's parent and open. -/
def parentOpen (db : Db) (g : Generation) (pendingOpen : Bool) : Bool :=
  db.checkout.attempts.any fun a => isGeneration g a && isOpenParent db.now pendingOpen a

/-- `lock_checkout_parent`. -/
def lockCheckoutParent (db : Db) (g : Generation) : Bool :=
  parentOpen db g
    (db.checkout.reconciliations.any fun r => isReconciliationOf g r && isProcessing db.now r)

/-- The started attempt of a live lease. -/
def isLiveLease (now : Nat) (g : Generation) (a : CheckoutAttempt) : Bool :=
  isGeneration g a && decide (a.status = .started) && live now a.leaseExpiresAt

/-- The row of a live compensation claim. -/
def isClaimedTask (now : Nat) (g : Generation) (taskId claimToken : Nat)
    (t : CompensationTask) : Bool :=
  decide (t.tenantId = g.tenantId ∧ t.id = taskId ∧ t.claimToken = some claimToken ∧
    t.status = .processing ∧ t.checkoutRequestId = g.requestId ∧
    t.checkoutLeaseToken = g.token) && live now t.claimExpiresAt

def parentLost : ApiError := leaseLost "checkout parent generation is no longer current"

/-- `lock_checkout_fence`. -/
def lockCheckoutFence (db : Db) : CheckoutFence → ApiResult Unit
  | .attempt lease =>
    require (db.checkout.attempts.any
      (isLiveLease db.now ⟨lease.tenantId, lease.requestId, lease.token⟩)) parentLost
  | .paymentReconciliation tenantId requestId parentToken workerToken => do
    let g : Generation := ⟨tenantId, requestId, parentToken⟩
    require (parentOpen db g (db.checkout.reconciliations.any (isClaim db.now g workerToken)))
      parentLost
    require (db.checkout.reconciliations.any (isClaim db.now g workerToken))
      (leaseLost "payment reconciliation worker claim is no longer current")
  | .compensation tenantId requestId token taskId claimToken => do
    let g : Generation := ⟨tenantId, requestId, token⟩
    require (lockCheckoutParent db g) parentLost
    require (db.checkout.tasks.any (isClaimedTask db.now g taskId claimToken))
      (leaseLost "compensation worker claim is no longer current")

/-- The error of `assert_checkout_fence` and `refresh_checkout_fence`. -/
def fenceLost (fence : CheckoutFence) : ApiError :=
  leaseLost (fence.kind ++ " lease is no longer current")

/-- `assert_checkout_fence`. Unlike the lock, a pending parent suffices for a
reconciliation claim. -/
def assertCheckoutFence (fence : CheckoutFence) (db : Db) : ApiResult (Unit × Db) := do
  match fence with
  | .attempt _ =>
    require (db.checkout.attempts.any (isLiveLease db.now fence.generation)) (fenceLost fence)
  | .paymentReconciliation _ _ _ workerToken =>
    require (db.checkout.reconciliations.any (isClaim db.now fence.generation workerToken) &&
      parentOpen db fence.generation true) (fenceLost fence)
  | .compensation _ _ _ taskId claimToken =>
    require (db.checkout.tasks.any (isClaimedTask db.now fence.generation taskId claimToken) &&
      lockCheckoutParent db fence.generation) (fenceLost fence)
  pure ((), db)

/-- The generation of a fence, looked up under the tenant of an order. -/
def CheckoutFence.generationIn (fence : CheckoutFence) (tenantId : TenantId) : Generation :=
  { fence.generation with tenantId := tenantId }

/-- The condition the writers repeat in their statements: the attempt in one
of `statuses` for an attempt fence, a processing reconciliation for a
reconciliation fence. A compensation fence meets it never. -/
def writerFence (db : Db) (tenantId : TenantId) (fence : CheckoutFence)
    (statuses : List AttemptStatus) : Bool :=
  let g := fence.generationIn tenantId
  match fence with
  | .attempt _ =>
    db.checkout.attempts.any fun a => isGeneration g a && decide (a.status ∈ statuses)
  | .paymentReconciliation .. =>
    db.checkout.reconciliations.any fun r =>
      isReconciliationOf g r && decide (r.status = .processing)
  | .compensation .. => false

/-- A lease extended from now. -/
def extendLease (now : Nat) (a : CheckoutAttempt) : CheckoutAttempt :=
  { a with updatedAt := now, leaseExpiresAt := some (now + attemptStaleAfter) }

def extendReconciliation (now : Nat) (r : Reconciliation) : Reconciliation :=
  { r with leaseExpiresAt := some (now + reconciliationStaleAfter) }

def extendClaim (now : Nat) (t : CompensationTask) : CompensationTask :=
  { t with updatedAt := now, claimExpiresAt := some (now + compensationStaleAfter) }

/-- `refresh_checkout_fence`, the heartbeat around a remote call. -/
def refreshCheckoutFence (fence : CheckoutFence) (db : Db) : ApiResult (Unit × Db) :=
  let g := fence.generation
  match fence with
  | .attempt _ => do
    require (decide (affected (isLiveLease db.now g) db.checkout.attempts = 1)) (fenceLost fence)
    pure ((), updateAttempts db (isLiveLease db.now g) (extendLease db.now))
  | .paymentReconciliation _ _ _ workerToken => do
    lockCheckoutFence db fence
    let sel := isClaim db.now g workerToken
    require (decide (affected sel db.checkout.reconciliations = 1)) (fenceLost fence)
    pure ((), updateReconciliations db sel (extendReconciliation db.now))
  | .compensation _ _ _ taskId claimToken => do
    lockCheckoutFence db fence
    let sel := isClaimedTask db.now g taskId claimToken
    require (decide (affected sel db.checkout.tasks = 1))
      (leaseLost "compensation worker lease is no longer current")
    let db₁ := updateTasks db sel (extendClaim db.now)
    let db₂ := updateAttempts db₁ (isLiveLease db.now g) (extendLease db.now)
    pure ((), updateReconciliations db₂
      (fun r => isReconciliationOf g r && isProcessing db.now r) (extendReconciliation db.now))

end CommercePlayground.Checkout
