/-
CommercePlayground.Checkout.Recovery — the two durable queues behind a
checkout: payment reconciliations and compensation tasks.

`SKIP LOCKED … LIMIT 1` picks any one eligible row, which is an argument
(`pick`) of the claims.
-/
import CommercePlayground.Checkout.Orders

namespace CommercePlayground.Checkout

open Lib

/-! ## Payment reconciliations -/

/-- `PaymentReconciliationJob`. -/
structure PaymentReconciliationJob where
  tenantId : TenantId
  requestId : RequestId
  orderId : OrderId
  authorizeRequestId : PaymentRequestId
  paymentId : Option PaymentId
  merchantReference : OrderId
  amountMinor : Int
  currency : Currency
  methodType : PaymentMethodType
  attempts : Nat
  leaseToken : Nat
  parentLeaseToken : Nat
  deriving DecidableEq

/-- The fence of a claimed job. -/
def PaymentReconciliationJob.fence (job : PaymentReconciliationJob) : CheckoutFence :=
  .paymentReconciliation job.tenantId job.requestId job.parentLeaseToken job.leaseToken

/-- `FOREIGN KEY (tenant_id, payment_id) REFERENCES payments`. -/
def paymentExists (db : Db) (tenantId : TenantId) (id : PaymentId) : Bool :=
  db.payment.payments.any fun p => decide (p.tenantId = tenantId ∧ p.id = id)

/-- `WHERE tenant_id = … AND request_id = …`. -/
def isReconciliation (tenantId : TenantId) (requestId : RequestId) (r : Reconciliation) : Bool :=
  decide (r.tenantId = tenantId ∧ r.requestId = requestId)

/-- The row a first registration inserts. -/
def newReconciliation (db : Db) (order : PendingOrder) (lease : CheckoutLease)
    (paymentId : Option PaymentId) (methodType : PaymentMethodType) : Reconciliation where
  tenantId := order.tenantId
  requestId := lease.requestId
  orderId := order.id
  authorizeRequestId := .authorize lease.requestId
  paymentId := paymentId
  merchantReference := order.id
  amountMinor := order.totalMinor
  currency := order.currency
  methodType := methodType
  status := .awaitingProvider
  checkoutLeaseToken := lease.token
  attempts := 0
  availableAt := db.now
  leaseToken := none
  leaseExpiresAt := none

/-- The `ON CONFLICT … DO UPDATE` of a registration. -/
def reregistered (now : Nat) (lease : CheckoutLease) (paymentId : Option PaymentId)
    (r : Reconciliation) : Reconciliation :=
  { r with
    paymentId := r.paymentId.or paymentId
    checkoutLeaseToken := if r.status = .completed then r.checkoutLeaseToken else lease.token
    status := if r.status = .queued then .awaitingProvider else r.status
    availableAt := if r.status = .queued ∨ r.status = .awaitingProvider then now
      else r.availableAt }

/-- The parent check of a registration: a recovery (`allowExpired`) is stored
even after the lease expired. -/
def lockRegistration (lease : CheckoutLease) (allowExpired : Bool) (db : Db) : ApiResult Unit :=
  if allowExpired then
    require (db.checkout.attempts.any fun a =>
        isGeneration ⟨lease.tenantId, lease.requestId, lease.token⟩ a &&
          decide (a.status = .started))
      (leaseLost "checkout finalization recovery lost its parent generation")
  else lockCheckoutFence db (.attempt lease)

/-- The upsert of a registration. -/
def upsertReconciliation (order : PendingOrder) (lease : CheckoutLease)
    (paymentId : Option PaymentId) (methodType : PaymentMethodType) (db : Db) : ApiResult Db :=
  let sel := isReconciliation order.tenantId lease.requestId
  if db.checkout.reconciliations.any sel then
    let same := fun r => sel r && decide (r.orderId = order.id ∧
      r.authorizeRequestId = .authorize lease.requestId)
    if affected same db.checkout.reconciliations = 1 then
      .ok (updateReconciliations db same (reregistered db.now lease paymentId))
    else .error (leaseLost
      "payment reconciliation intent was not created by the current checkout lease")
  else .ok (setReconciliations db (db.checkout.reconciliations ++
    [newReconciliation db order lease paymentId methodType]))

/-- `register_pending_payment_reconciliation_inner`. With `allowExpired` it is
`queue_checkout_finalization_recovery`. -/
def registerPendingPaymentReconciliation (order : PendingOrder) (lease : CheckoutLease)
    (paymentId : Option PaymentId) (methodType : PaymentMethodType) (allowExpired : Bool)
    (db : Db) : ApiResult (Unit × Db) := do
  require (decide (lease.tenantId = order.tenantId))
    (leaseLost "payment reconciliation lease tenant does not match the order")
  lockRegistration lease allowExpired db
  require (paymentId.all (paymentExists db order.tenantId)) dbError
  let db₁ ← upsertReconciliation order lease paymentId methodType db
  pure ((), db₁)

/-- A waiting reconciliation, due at once. -/
def queuedNow (now : Nat) (r : Reconciliation) : Reconciliation :=
  { r with status := .queued, availableAt := now, leaseToken := none, leaseExpiresAt := none }

/-- `wake_payment_reconciliation`. -/
def wakePaymentReconciliation (tenantId : TenantId) (requestId : RequestId) (db : Db) :
    ApiResult (Unit × Db) := do
  require (db.checkout.reconciliations.any (isReconciliation tenantId requestId))
    ⟨409, .paymentReconciliationMissing,
      "pending checkout has no durable payment reconciliation job"⟩
  pure ((), updateReconciliations db
    (fun r => isReconciliation tenantId requestId r &&
      decide (r.status = .awaitingProvider ∨ r.status = .queued)) (queuedNow db.now))

/-- A reconciliation some worker may claim: due, or abandoned by its worker. -/
def isClaimable (db : Db) (r : Reconciliation) : Bool :=
  decide (r.attempts < reconciliationMaxAttempts) &&
  (decide (r.status = .queued ∧ r.availableAt ≤ db.now) ||
    (decide (r.status = .processing) && r.leaseExpiresAt.any fun t => decide (t ≤ db.now))) &&
  parentOpen db ⟨r.tenantId, r.requestId, r.checkoutLeaseToken⟩ true

/-- A claimed reconciliation. -/
def claimedReconciliation (now token : Nat) (r : Reconciliation) : Reconciliation :=
  { r with
    status := .processing
    attempts := r.attempts + 1
    leaseToken := some token
    leaseExpiresAt := some (now + reconciliationStaleAfter) }

/-- The job of a reconciliation claimed with `token`. -/
def jobOf (token : Nat) (r : Reconciliation) : PaymentReconciliationJob where
  tenantId := r.tenantId
  requestId := r.requestId
  orderId := r.orderId
  authorizeRequestId := r.authorizeRequestId
  paymentId := r.paymentId
  merchantReference := r.merchantReference
  amountMinor := r.amountMinor
  currency := r.currency
  methodType := r.methodType
  attempts := r.attempts + 1
  leaseToken := token
  parentLeaseToken := r.checkoutLeaseToken

/-- `claim_payment_reconciliation`. -/
def claimPaymentReconciliation (pick : TenantId × RequestId) (db : Db) :
    ApiResult (Option PaymentReconciliationJob × Db) :=
  let sel := fun r => isReconciliation pick.1 pick.2 r && isClaimable db r
  match db.checkout.reconciliations.find? sel with
  | none => .ok (none, db)
  | some r =>
    .ok (some (jobOf db.nextUuid r),
      bumpUuid (updateReconciliations db sel (claimedReconciliation db.now db.nextUuid)))

/-- A reconciliation given back to the payment provider. -/
def awaitProvider (now : Nat) (r : Reconciliation) : Reconciliation :=
  { r with
    status := .awaitingProvider
    availableAt := now
    leaseToken := none
    leaseExpiresAt := none }

/-- `reclaim_exhausted_payment_reconciliation`. -/
def reclaimExhaustedPaymentReconciliation (db : Db) : ApiResult (Bool × Db) :=
  let sel := fun r : Reconciliation => decide (r.status = .processing) &&
    decide (reconciliationMaxAttempts ≤ r.attempts) &&
    r.leaseExpiresAt.any fun t => decide (t ≤ db.now)
  .ok (decide (0 < affected sel db.checkout.reconciliations),
    updateReconciliations db sel (awaitProvider db.now))

/-- The row a job's statements address. -/
def isJob (job : PaymentReconciliationJob) (r : Reconciliation) : Bool :=
  isReconciliationOf job.fence.generation r &&
    decide (r.status = .processing ∧ r.leaseToken = some job.leaseToken)

/-- `record_payment_reconciliation_observation`: only observation columns
change. -/
def recordPaymentReconciliationObservation (job : PaymentReconciliationJob) (db : Db) :
    ApiResult (Unit × Db) := do
  lockCheckoutFence db job.fence
  require (decide (affected (isJob job) db.checkout.reconciliations = 1))
    (leaseLost "payment reconciliation observation lease is no longer current")
  pure ((), db)

/-- `attach_payment_to_reconciliation`. -/
def attachPaymentToReconciliation (job : PaymentReconciliationJob) (paymentId : PaymentId)
    (db : Db) : ApiResult (Unit × Db) := do
  lockCheckoutFence db job.fence
  let sel := fun r => isJob job r &&
    decide (r.paymentId = none ∨ r.paymentId = some paymentId)
  require (decide (affected sel db.checkout.reconciliations = 1))
    ⟨409, .paymentReconciliationConflict,
      "payment identity does not match the reconciliation job"⟩
  require (paymentExists db job.tenantId paymentId) dbError
  pure ((), updateReconciliations db sel fun r => { r with paymentId := some paymentId })

/-- A reconciliation put back after an unfinished run. -/
def rescheduled (now : Nat) (attempts : Nat) (r : Reconciliation) : Reconciliation :=
  if reconciliationMaxAttempts ≤ attempts then awaitProvider now r
  else { queuedNow now r with availableAt := now + retryDelay attempts }

/-- `reschedule_payment_reconciliation`. -/
def reschedulePaymentReconciliation (job : PaymentReconciliationJob) (db : Db) :
    ApiResult (Unit × Db) := do
  lockCheckoutFence db job.fence
  require (decide (affected (isJob job) db.checkout.reconciliations = 1))
    (leaseLost "payment reconciliation retry lease is no longer current")
  pure ((), updateReconciliations db (isJob job) (rescheduled db.now job.attempts))

/-- The attempt a finished job settles. -/
def isSettledBy (job : PaymentReconciliationJob) (a : CheckoutAttempt) : Bool :=
  isGeneration job.fence.generation a &&
    decide (a.status = .pending ∨ a.status = .failed ∨ a.status = .started) &&
    decide (a.orderId = some job.orderId)

/-- The status of a request's attempt. -/
def attemptStatus (db : Db) (tenantId : TenantId) (requestId : RequestId) :
    Option AttemptStatus :=
  (db.checkout.attempts.find? (isAttempt tenantId requestId)).map (·.status)

/-- A reconciliation closed with `status`. -/
def closedReconciliation (status : ReconciliationStatus) (r : Reconciliation) :
    Reconciliation :=
  { r with status := status, leaseToken := none, leaseExpiresAt := none }

/-- `complete_payment_reconciliation`. -/
def completePaymentReconciliation (job : PaymentReconciliationJob) (payload : CheckoutPayload)
    (db : Db) : ApiResult (Unit × Db) := do
  lockCheckoutFence db job.fence
  require (decide (affected (isSettledBy job) db.checkout.attempts = 1) ||
      decide (attemptStatus db job.tenantId job.requestId = some .paid))
    ⟨409, .paymentReconciliationAttemptConflict,
      "pending checkout attempt could not be finalized"⟩
  require (decide (affected (isJob job) db.checkout.reconciliations = 1))
    (leaseLost "payment reconciliation completion lease is no longer current")
  let db₁ := updateAttempts db (isSettledBy job)
    (respond db.now .paid (some job.orderId) payload)
  pure ((), updateReconciliations db₁ (isJob job) (closedReconciliation .completed))

/-- The cancellation of `fail_payment_reconciliation`. -/
def cancelFailedOrder (job : PaymentReconciliationJob) (db : Db) : Db :=
  if noOpenTask db job.tenantId job.orderId then cancelOrder db job.tenantId job.orderId else db

/-- `bounded_error_message`: at most `COMPENSATION_ERROR_LIMIT` characters. -/
def boundedErrorMessage (message : String) : String :=
  String.ofList (message.toList.take 1000)

/-- The error `fail_payment_reconciliation` stores. -/
def boundedError (error : ApiError) : ApiError :=
  { error with message := boundedErrorMessage error.message }

/-- `fail_payment_reconciliation`. -/
def failPaymentReconciliation (job : PaymentReconciliationJob) (error : ApiError) (db : Db) :
    ApiResult (Unit × Db) := do
  lockCheckoutFence db job.fence
  require (decide (affected (isSettledBy job) db.checkout.attempts ≠ 0) ||
      decide (attemptStatus db job.tenantId job.requestId = some .failed))
    ⟨409, .paymentReconciliationAttemptConflict,
      "pending checkout attempt could not be failed"⟩
  require (decide (affected (isJob job) db.checkout.reconciliations = 1))
    (leaseLost "payment reconciliation failure lease is no longer current")
  let db₁ := cancelFailedOrder job (updateAttempts db (isSettledBy job)
    (fail db.now (boundedError error)))
  pure ((), updateReconciliations db₁ (isJob job) (closedReconciliation .failed))

/-- The payment that an authorize request of the order created, or else the
latest payment of the order (`lookup_authorization_payment_id`). -/
def lookupAuthorizationPaymentId (order : PendingOrder) (requestId : RequestId) (db : Db) :
    ApiResult (Option PaymentId × Db) :=
  let byLedger := db.payment.operations.findSome? fun r =>
    if r.tenantId = order.tenantId ∧ r.requestId = .authorize requestId ∧
        r.operation = .authorize then
      r.paymentId.bind fun id => (db.payment.payments.find? fun p =>
        decide (p.tenantId = r.tenantId ∧ p.id = id ∧ p.orderId = order.id)).map (·.id)
    else none
  .ok (byLedger.or ((latestPayment db order.tenantId order.id).map (·.id)), db)

/-- `paid_reconciliation_payload`. -/
def paidReconciliationPayload (order : PendingOrder) (paymentId : PaymentId) (db : Db) :
    ApiResult (CheckoutPayload × Db) :=
  .ok (⟨.paid, order.id, some paymentId⟩, db)

/-! ## Compensation tasks -/

/-- `InventoryReservation`. -/
structure InventoryReservation where
  reservationId : ReservationId
  sku : Sku
  quantity : Nat
  locationId : Option LocationId
  deriving DecidableEq

/-- The columns of a claimed task that the worker reads (`CompensationTask` of
the worker). -/
structure ClaimedTask where
  id : Nat
  tenantId : TenantId
  orderId : OrderId
  kind : TaskKind
  attempts : Nat
  checkoutRequestId : RequestId
  checkoutLeaseToken : Nat
  claimToken : Nat
  deriving DecidableEq

/-- The fence of a claimed task. -/
def ClaimedTask.fence (task : ClaimedTask) : CheckoutFence :=
  .compensation task.tenantId task.checkoutRequestId task.checkoutLeaseToken task.id
    task.claimToken

/-- The task row an enqueue inserts. -/
def newTask (db : Db) (order : PendingOrder) (fence : CheckoutFence) (base : TaskBaseKey)
    (kind : TaskKind) : CompensationTask where
  id := db.nextUuid
  tenantId := order.tenantId
  orderId := order.id
  taskKey := ⟨base, fence.generation.token⟩
  kind := kind
  status := .prepared
  attempts := 0
  availableAt := db.now
  claimToken := none
  claimExpiresAt := none
  checkoutRequestId := fence.generation.requestId
  checkoutLeaseToken := fence.generation.token
  remoteOperationStartedAt := none
  remoteOperationCompletedAt := none
  updatedAt := db.now

/-- `WHERE tenant_id = … AND task_key = …`. -/
def isTaskKey (tenantId : TenantId) (key : TaskKey) (t : CompensationTask) : Bool :=
  decide (t.tenantId = tenantId ∧ t.taskKey = key)

/-- The `ON CONFLICT (tenant_id, task_key) DO UPDATE` of an enqueue: only a
queued task is made due again. -/
def requeuedTask (now : Nat) (g : Generation) (t : CompensationTask) : CompensationTask :=
  if t.status = .queued then
    { t with
      availableAt := now
      checkoutRequestId := g.requestId
      checkoutLeaseToken := g.token
      updatedAt := now }
  else { t with updatedAt := now }

/-- `REFERENCES payments` and `CHECK (quantity > 0)` of a new task. -/
def taskRowValid (db : Db) (t : CompensationTask) : Bool :=
  match t.kind with
  | .payment paymentId _ _ => paymentExists db t.tenantId paymentId
  | .inventoryRelease _ _ quantity => decide (0 < quantity)

/-- The INSERT of an enqueue. -/
def enqueueTask (order : PendingOrder) (fence : CheckoutFence) (base : TaskBaseKey)
    (kind : TaskKind) (lost : String) (db : Db) : ApiResult Db :=
  let task := newTask db order fence base kind
  if writerFence db order.tenantId fence [.started, .failed] = false then .error (leaseLost lost)
  else if db.checkout.tasks.any (isTaskKey order.tenantId task.taskKey) then
    .ok (updateTasks db (isTaskKey order.tenantId task.taskKey)
      (requeuedTask db.now (fence.generationIn order.tenantId)))
  else if taskRowValid db task = false then
    .error ⟨503, .compensationPersistenceFailed, "compensation task"⟩
  else .ok (bumpUuid (setTasks db (db.checkout.tasks ++ [task])))

/-- The loop of `enqueue_inventory_compensation_tasks`. -/
def enqueueReleases (order : PendingOrder) (fence : CheckoutFence) :
    List InventoryReservation → Db → ApiResult Db
  | [], db => .ok db
  | r :: rs, db => do
    let db₁ ← enqueueTask order fence (.inventory r.reservationId)
      (.inventoryRelease r.reservationId r.sku r.quantity)
      "inventory compensation intent was not created by the current checkout fence" db
    enqueueReleases order fence rs db₁

/-- The transaction of `enqueue_inventory_compensation_tasks`. -/
def enqueueInventoryCompensationTasks (order : PendingOrder)
    (reservations : List InventoryReservation) (fence : CheckoutFence) (db : Db) :
    ApiResult (Unit × Db) := do
  lockCheckoutFence db fence
  let db₁ ← enqueueReleases order fence reservations db
  pure ((), db₁)

/-- The transaction of `enqueue_payment_compensation_task`. -/
def enqueuePaymentCompensationTask (order : PendingOrder) (paymentId : PaymentId)
    (requestId : RequestId) (fence : CheckoutFence) (db : Db) : ApiResult (Unit × Db) := do
  lockCheckoutFence db fence
  let db₁ ← enqueueTask order fence (.payment paymentId)
    (.payment paymentId requestId order.currency)
    "payment compensation intent was not created by the current checkout fence" db
  pure ((), db₁)

/-- `WHERE tenant_id = … AND order_id = … AND task_key = …`. -/
def isOrderTask (order : PendingOrder) (key : TaskKey) (t : CompensationTask) : Bool :=
  decide (t.tenantId = order.tenantId ∧ t.orderId = order.id ∧ t.taskKey = key)

/-- The same, for the generation of the fence and in one of `statuses`. -/
def isFencedTask (order : PendingOrder) (key : TaskKey) (fence : CheckoutFence)
    (statuses : List TaskStatus) (t : CompensationTask) : Bool :=
  isOrderTask order key t &&
    decide (t.checkoutRequestId = fence.generation.requestId ∧
      t.checkoutLeaseToken = fence.generation.token ∧ t.status ∈ statuses)

/-- The status of a task of the order. -/
def taskStatus (db : Db) (order : PendingOrder) (key : TaskKey) : Option TaskStatus :=
  (db.checkout.tasks.find? (isOrderTask order key)).map (·.status)

/-- `activate_compensation_intent`. -/
def activateCompensationIntent (order : PendingOrder) (key : TaskKey) (fence : CheckoutFence)
    (db : Db) : ApiResult (Unit × Db) := do
  lockCheckoutFence db fence
  let sel := fun t => isFencedTask order key fence [.prepared] t &&
    writerFence db order.tenantId fence [.started, .failed]
  require (decide (affected sel db.checkout.tasks = 1) ||
      decide (taskStatus db order key = some .queued ∨
        taskStatus db order key = some .processing ∨ taskStatus db order key = some .completed))
    (leaseLost "compensation intent could not be activated by the current checkout fence")
  pure ((), updateTasks db sel fun t =>
    { t with status := .queued, availableAt := min t.availableAt db.now, updatedAt := db.now })

/-- A finished task. -/
def closedTask (now : Nat) (status : TaskStatus) (t : CompensationTask) : CompensationTask :=
  { t with status := status, claimToken := none, claimExpiresAt := none, updatedAt := now }

/-- `resolve_compensation_intent`; the key of a task is unique. -/
def resolveCompensationIntent (order : PendingOrder) (base : TaskBaseKey)
    (fence : CheckoutFence) (db : Db) : ApiResult (Unit × Db) := do
  let key : TaskKey := ⟨base, fence.generation.token⟩
  lockCheckoutFence db fence
  let sel := fun t => isFencedTask order key fence [.queued] t &&
    writerFence db order.tenantId fence [.started, .failed]
  require (decide (affected sel db.checkout.tasks = 1) ||
      decide (taskStatus db order key = some .processing ∨
        taskStatus db order key = some .completed))
    (leaseLost "compensation intent ownership was lost before resolution")
  pure ((), updateTasks db sel (closedTask db.now .completed))

/-- `begin_compensation_operation`. -/
def beginCompensationOperation (order : PendingOrder) (key : TaskKey) (fence : CheckoutFence)
    (db : Db) : ApiResult (Unit × Db) := do
  lockCheckoutFence db fence
  let sel := isFencedTask order key fence [.prepared, .queued, .processing]
  require (decide (affected sel db.checkout.tasks = 1))
    (leaseLost "compensation remote operation was not fenced by its durable task")
  pure ((), updateTasks db sel fun t =>
    { t with
      remoteOperationStartedAt := t.remoteOperationStartedAt.or (some db.now)
      remoteOperationCompletedAt := none
      updatedAt := db.now })

/-- `complete_compensation_operation`. The operation id is a function of the
task key, so a started operation has this one. -/
def completeCompensationOperation (order : PendingOrder) (key : TaskKey)
    (fence : CheckoutFence) (db : Db) : ApiResult (Unit × Db) := do
  lockCheckoutFence db fence
  let sel := fun t => isFencedTask order key fence [.prepared, .queued, .processing] t &&
    t.remoteOperationStartedAt.isSome
  require (decide (affected sel db.checkout.tasks = 1))
    (leaseLost "compensation remote operation completion lost its durable fence")
  pure ((), updateTasks db sel fun t =>
    { t with remoteOperationCompletedAt := some db.now, updatedAt := db.now })

/-- A task some worker may claim: due, or abandoned by its worker. -/
def isClaimableTask (db : Db) (t : CompensationTask) : Bool :=
  decide (t.attempts < compensationMaxAttempts) &&
  (decide ((t.status = .prepared ∨ t.status = .queued) ∧ t.availableAt ≤ db.now) ||
    (decide (t.status = .processing) && t.claimExpiresAt.any fun e => decide (e ≤ db.now))) &&
  lockCheckoutParent db ⟨t.tenantId, t.checkoutRequestId, t.checkoutLeaseToken⟩

/-- A claimed task row. -/
def claimedTask (now token : Nat) (t : CompensationTask) : CompensationTask :=
  { t with
    status := .processing
    attempts := t.attempts + 1
    claimToken := some token
    claimExpiresAt := some (now + compensationStaleAfter)
    updatedAt := now }

/-- The worker's copy of a task claimed with `token`. -/
def claimOf (token : Nat) (t : CompensationTask) : ClaimedTask where
  id := t.id
  tenantId := t.tenantId
  orderId := t.orderId
  kind := t.kind
  attempts := t.attempts + 1
  checkoutRequestId := t.checkoutRequestId
  checkoutLeaseToken := t.checkoutLeaseToken
  claimToken := token

/-- `claim_compensation_task`. -/
def claimCompensationTask (pick : Nat) (db : Db) : ApiResult (Option ClaimedTask × Db) :=
  let sel := fun t : CompensationTask => decide (t.id = pick) && isClaimableTask db t
  match db.checkout.tasks.find? sel with
  | none => .ok (none, db)
  | some t =>
    .ok (some (claimOf db.nextUuid t),
      bumpUuid (updateTasks db sel (claimedTask db.now db.nextUuid)))

/-- `compensation_fence`. -/
def compensationFence (task : ClaimedTask) (db : Db) : ApiResult (CheckoutFence × Db) := do
  require (db.checkout.tasks.any
        (isClaimedTask db.now task.fence.generation task.id task.claimToken) &&
      lockCheckoutParent db task.fence.generation)
    (leaseLost "compensation task fence is no longer current")
  pure (task.fence, db)

/-- The row of a worker's claim, by its claim token only. -/
def isHeldBy (now : Nat) (task : ClaimedTask) (t : CompensationTask) : Bool :=
  decide (t.tenantId = task.tenantId ∧ t.id = task.id ∧ t.status = .processing ∧
    t.claimToken = some task.claimToken) && live now t.claimExpiresAt

/-- The parent condition of the cancellation in `finish_compensation_task`. -/
def finishesOrder (db : Db) (task : ClaimedTask) (t : CompensationTask) : Bool :=
  let g : Generation := ⟨t.tenantId, t.checkoutRequestId, t.checkoutLeaseToken⟩
  decide (t.id = task.id ∧ t.tenantId = task.tenantId ∧ t.orderId = task.orderId) &&
  db.checkout.attempts.any fun a => isGeneration g a &&
    (decide (a.status = .started ∨ a.status = .failed) ||
      (decide (a.status = .pending) && db.checkout.reconciliations.any fun r =>
        isReconciliationOf g r && decide (r.status = .processing)))

/-- The cancellation of `finish_compensation_task`, once the task is
completed. -/
def cancelFinishedOrder (task : ClaimedTask) (db : Db) : Db :=
  if noOpenTask db task.tenantId task.orderId && db.checkout.tasks.any (finishesOrder db task)
  then cancelOrder db task.tenantId task.orderId
  else db

/-- `finish_compensation_task`; `failed` is `dead_letter_compensation_task`. -/
def finishCompensationTask (task : ClaimedTask) (failed : Bool) (db : Db) :
    ApiResult (Unit × Db) := do
  lockCheckoutFence db task.fence
  require (decide (affected (isHeldBy db.now task) db.checkout.tasks = 1))
    ⟨503, .compensationPersistenceFailed,
      "compensation task ownership was lost before completion"⟩
  if failed then
    pure ((), updateTasks db (isHeldBy db.now task) (closedTask db.now .failed))
  else
    pure ((), cancelFinishedOrder task
      (updateTasks db (isHeldBy db.now task) (closedTask db.now .completed)))

/-- `dead_letter_expired_compensation_task`. -/
def deadLetterExpiredCompensationTask (pick : Nat) (db : Db) : ApiResult (Bool × Db) :=
  let sel := fun t : CompensationTask => decide (t.id = pick ∧ t.status = .processing ∧
    compensationMaxAttempts ≤ t.attempts ∧ t.updatedAt + compensationStaleAfter < db.now) &&
    t.claimExpiresAt.any fun e => decide (e ≤ db.now)
  .ok (db.checkout.tasks.any sel, updateTasks db sel (closedTask db.now .failed))

/-- `reschedule_compensation_task`: it checks the worker's claim and no fence. -/
def rescheduleCompensationTask (task : ClaimedTask) (db : Db) : ApiResult (Unit × Db) :=
  .ok ((), updateTasks db (isHeldBy db.now task) fun t =>
    { closedTask db.now .queued t with availableAt := db.now + retryDelay task.attempts })

end CommercePlayground.Checkout
