/-
CommercePlayground.Checkout.Processes — the three processes of checkout: the
request handler, the payment reconciliation worker and the compensation
worker.

A worker's poll takes the row it is offered (`pick`): the queries skip locked
rows, so any eligible row can be the one. One poll is one process; a worker
is a sequence of them.
-/
import CommercePlayground.Checkout.Flow

namespace CommercePlayground.Checkout

open Lib

/-! ## The request handler -/

/-- How the authorization of a checkout ended: with a payment, or with an
answer to the request. -/
inductive AuthorizationOutcome where
  | authorized (authorization : PaymentAuthorization)
  | answered (payload : CheckoutPayload)

/-- The arms of a finished `recover_authorization`. -/
def applyRecovery (input : CheckoutInput) (order : PendingOrder) (lease : CheckoutLease)
    (e : ApiError) : AuthorizationRecovery → Flow AuthorizationOutcome
  | .recovered authorization => pure (.authorized authorization)
  | .absent => do
    tx (.cancelOrderFenced order (.attempt lease))
    if input.degrade then pure (.answered ⟨.degraded, order.id, none⟩)
    else ofResult (.error e)
  | .pending => do
    tx (.registerPendingPaymentReconciliation order lease none input.paymentMethodType false)
    if input.degrade then pure (.answered ⟨.pending, order.id, none⟩)
    else ofResult (.error (paymentReconciliationError
      "payment authorization outcome is not yet observable"))
  | .failed recoveryError => do
    tx (.cancelOrderFenced order (.attempt lease))
    ofResult (.error recoveryError)

/-- The error arm of the authorization. -/
def handleAuthorizationError (input : CheckoutInput) (order : PendingOrder)
    (lease : CheckoutLease) (e : ApiError) : Flow AuthorizationOutcome :=
  if isLeaseLost e then do
    tx (.registerPendingPaymentReconciliation order lease none input.paymentMethodType true)
    ofResult (.error e)
  else if isAmbiguousPaymentFailure e then do
    let recovery ← attempt (withCheckoutFence (.attempt lease) (recoverAuthorization order
      lease.requestId input.paymentMethodToken input.paymentMethodType (.attempt lease)))
    match recovery with
    | .ok recovery => applyRecovery input order lease e recovery
    | .error _ => ofResult (.error e)
  else do
    tx (.cancelOrderFenced order (.attempt lease))
    ofResult (.error e)

/-- The authorization of `checkout_flow`. -/
def authorizeOrder (input : CheckoutInput) (order : PendingOrder) (lease : CheckoutLease) :
    Flow AuthorizationOutcome := do
  match ← attempt (withCheckoutFence (.attempt lease) (authorizePayment order lease.requestId
      input.paymentMethodToken input.paymentMethodType)) with
  | .ok authorization => pure (.authorized authorization)
  | .error e => handleAuthorizationError input order lease e

/-- `queue_checkout_finalization_recovery`, and the lost lease as the error. -/
def queueRecovery {α : Type} (input : CheckoutInput) (order : PendingOrder)
    (lease : CheckoutLease) (paymentId : PaymentId) (e : ApiError) : Flow α := do
  tx (.registerPendingPaymentReconciliation order lease (some paymentId)
    input.paymentMethodType true)
  ofResult (.error e)

/-- Enqueue and run the compensation of a payment, and resolve its intent when
it was confirmed. -/
def compensateOrderPayment (order : PendingOrder) (paymentId : PaymentId)
    (requestId : RequestId) (fence : CheckoutFence) : Flow Bool := do
  enqueuePaymentCompensation order paymentId requestId fence
  let compensated ← compensatePaymentWithFence order paymentId requestId fence
  if compensated then do
    tx (.resolveCompensationIntent order (.payment paymentId) fence)
    pure true
  else pure false

/-- The compensating tail of a failed checkout; `released` says that the
inventory is compensated. -/
def undoOrder {α : Type} (order : PendingOrder) (lease : CheckoutLease)
    (paymentId : PaymentId) (released : Bool) (e : ApiError) : Flow α := do
  let compensated ← compensateOrderPayment order paymentId lease.requestId (.attempt lease)
  if released && compensated then do
    tx (.cancelOrderIfCompensated order (.attempt lease))
    ofResult (.error e)
  else ofResult (.error e)

/-- Release the reservations and undo the order. -/
def releaseAndUndo {α : Type} (order : PendingOrder) (lease : CheckoutLease)
    (paymentId : PaymentId) (reservations : List InventoryReservation) (e : ApiError) :
    Flow α := do
  match ← attempt (releaseInventoryWithRecovery order reservations (.attempt lease)) with
  | .ok () => undoOrder order lease paymentId true e
  | .error _ => undoOrder order lease paymentId false e

/-- The error of a checkout whose inventory is, or may be, consumed. -/
def postConsumeReconciliation (message : String) : ApiError :=
  ⟨503, .checkoutPostConsumeReconciliation, message⟩

/-- Leave a checkout that may have consumed its inventory to reconciliation. -/
def leaveToReconciliation {α : Type} (input : CheckoutInput) (order : PendingOrder)
    (lease : CheckoutLease) (paymentId : PaymentId) (message : String) : Flow α := do
  tx (.registerPendingPaymentReconciliation order lease (some paymentId)
    input.paymentMethodType false)
  ofResult (.error (postConsumeReconciliation message))

/-- The response of a paid checkout. -/
def paidResponse (order : PendingOrder) (paymentId : PaymentId) : CheckoutPayload :=
  ⟨.paid, order.id, some paymentId⟩

/-- The finalization of `checkout_flow`. A lost reply to COMMIT is no evidence
of a rollback. -/
def finalizeCheckout (input : CheckoutInput) (order : PendingOrder) (lease : CheckoutLease)
    (paymentId : PaymentId) : Flow CheckoutPayload := do
  match ← attempt (tx (.finalizeOrder order paymentId (.attempt lease))) with
  | .ok () => pure (paidResponse order paymentId)
  | .error e =>
    if isLeaseLost e then queueRecovery input order lease paymentId e
    else do
      let committed ← finalizationDurable order
      if committed then pure (paidResponse order paymentId)
      else
        leaveToReconciliation input order lease paymentId
          "inventory is already consumed; durable order finalization reconciliation is queued"

/-- The consume of `checkout_flow`. -/
def consumeOrder (input : CheckoutInput) (order : PendingOrder) (lease : CheckoutLease)
    (paymentId : PaymentId) (reservations : List InventoryReservation) :
    Flow CheckoutPayload := do
  match ← attempt (consumeInventory order reservations (.attempt lease)
      inventoryConsumeRetries) with
  | .ok () => finalizeCheckout input order lease paymentId
  | .error e =>
    if isLeaseLost e then queueRecovery input order lease paymentId e
    else if isRetryableInventoryConsumeError e then
      leaveToReconciliation input order lease paymentId
        "inventory consume outcome is ambiguous; durable checkout reconciliation is queued"
    else releaseAndUndo order lease paymentId reservations e

/-- The capture of `checkout_flow`. -/
def captureOrder (input : CheckoutInput) (order : PendingOrder) (lease : CheckoutLease)
    (paymentId : PaymentId) (reservations : List InventoryReservation) :
    Flow CheckoutPayload := do
  match ← attempt (withCheckoutFence (.attempt lease)
      (capturePayment order paymentId lease.requestId)) with
  | .ok () => consumeOrder input order lease paymentId reservations
  | .error e =>
    if isLeaseLost e then queueRecovery input order lease paymentId e
    else releaseAndUndo order lease paymentId reservations e

/-- The reservation of `checkout_flow`. -/
def reserveOrder (input : CheckoutInput) (order : PendingOrder) (lease : CheckoutLease)
    (paymentId : PaymentId) : Flow CheckoutPayload := do
  match ← attempt (reserveInventory order (.attempt lease) [] order.lines) with
  | .ok reservations => captureOrder input order lease paymentId reservations
  | .error e =>
    if isLeaseLost e then queueRecovery input order lease paymentId e
    else undoOrder order lease paymentId true e

/-- `validate_catalog`. -/
def validateCatalog (input : CheckoutInput) : Flow Unit :=
  ExceptT.mk (Prog.lift (Effect.catalog input))

/-- `quote_with_retry`: a failed attempt has no effect here, so only the last
one shows. -/
def quoteWithRetry (input : CheckoutInput) : Flow QuoteResponse := do
  let quote : QuoteResponse ← ExceptT.mk (Prog.lift (Effect.pricing input))
  ofResult (validateQuoteResponse input quote)
  pure quote

/-- `checkout_flow`. -/
def checkoutFlow (input : CheckoutInput) (lease : CheckoutLease) : Flow CheckoutPayload := do
  tx (.assertCheckoutFence (.attempt lease))
  validateCatalog input
  let quote ← quoteWithRetry input
  let order : PendingOrder ← tx (.createPendingOrder input quote lease)
  match ← authorizeOrder input order lease with
  | .answered payload => pure payload
  | .authorized authorization =>
    if authorization.pending then do
      tx (.registerPendingPaymentReconciliation order lease (some authorization.paymentId)
        input.paymentMethodType false)
      pure ⟨.pending, order.id, some authorization.paymentId⟩
    else reserveOrder input order lease authorization.paymentId

/-- The handler records the response of the flow. -/
def recordResponse (lease : CheckoutLease) (payload : CheckoutPayload) :
    Flow CheckoutPayload := do
  tx (.recordCheckoutResponse lease payload.status (some payload.orderId) payload)
  if payload.status = .pending then do
    tx (.wakePaymentReconciliation lease.tenantId lease.requestId)
    pure payload
  else pure payload

/-- The handler ends with the error of the flow. -/
def endWithError (lease : CheckoutLease) (e : ApiError) : Flow CheckoutPayload :=
  if e.code = .checkoutPostConsumeReconciliation then do
    tx (.wakePaymentReconciliation lease.tenantId lease.requestId)
    ofResult (.error e)
  else ofResult (.error e)

/-- The handler records the failure of the flow, unless it no longer owns the
attempt. -/
def recordFailure (lease : CheckoutLease) (e : ApiError) : Flow CheckoutPayload := do
  match ← attempt (tx (.recordCheckoutFailure lease e)) with
  | .ok () => endWithError lease e
  | .error recordError =>
    if isLeaseLost recordError then endWithError lease e else ofResult (.error recordError)

/-- `checkout_inner`. -/
def checkoutInner (input : CheckoutInput) : Flow CheckoutPayload := do
  ofResult (validateInput input)
  let claim : CheckoutAttemptClaim ←
    tx (.claimCheckoutAttempt input.tenantId input.requestId input)
  match claim with
  | .new token => do
    let lease : CheckoutLease := ⟨input.tenantId, input.requestId, token⟩
    match ← attempt (checkoutFlow input lease) with
    | .ok payload => recordResponse lease payload
    | .error e => recordFailure lease e
  | .pending payload => do
    tx (.wakePaymentReconciliation input.tenantId input.requestId)
    pure payload
  | .replay payload => pure payload
  | .inProgress =>
    ofResult (.error ⟨409, .checkoutInProgress, "request_id is already being processed"⟩)
  | .failed e => ofResult (.error e)

/-! ## The reconciliation worker -/

/-- `PendingPaymentOutcome`. -/
inductive PendingPaymentOutcome where
  | retry
  | completed (payload : CheckoutPayload)
  | failed (error : ApiError)

/-- `reconcile_captured_payment_failure`. -/
def reconcileCapturedPaymentFailure (job : PaymentReconciliationJob) (order : PendingOrder)
    (paymentId : PaymentId) (e : ApiError) : Flow PendingPaymentOutcome := do
  let compensated ← compensateOrderPayment order paymentId job.requestId job.fence
  if compensated then do
    tx (.cancelOrderIfCompensated order job.fence)
    pure (.failed e)
  else ofResult (.error (paymentReconciliationError
    "captured payment compensation is not yet confirmed"))

/-- The outcome of a paid order. -/
def completedOutcome (order : PendingOrder) (paymentId : PaymentId) :
    Flow PendingPaymentOutcome := do
  let payload : CheckoutPayload ← tx (.paidReconciliationPayload order paymentId)
  pure (.completed payload)

/-- The finalization of `reconcile_pending_payment`: inventory is consumed, so
it is retried and never compensated. -/
def finalizeReconciled (job : PaymentReconciliationJob) (order : PendingOrder)
    (paymentId : PaymentId) : Flow PendingPaymentOutcome := do
  match ← attempt (tx (.finalizeOrder order paymentId job.fence)) with
  | .ok () => completedOutcome order paymentId
  | .error e =>
    if isLeaseLost e then ofResult (.error e)
    else do
      let committed ← finalizationDurable order
      if committed then completedOutcome order paymentId else ofResult (.error e)

/-- The inventory part of `reconcile_pending_payment`. -/
def fulfillReconciled (job : PaymentReconciliationJob) (order : PendingOrder)
    (paymentId : PaymentId) : Flow PendingPaymentOutcome := do
  match ← attempt (reserveInventory order job.fence [] order.lines) with
  | .error e =>
    if isLeaseLost e then ofResult (.error e)
    else reconcileCapturedPaymentFailure job order paymentId e
  | .ok reservations => do
    match ← attempt (consumeInventory order reservations job.fence
        inventoryConsumeRetries) with
    | .ok () => finalizeReconciled job order paymentId
    | .error e =>
      if isLeaseLost e then ofResult (.error e)
      else do
        let _ ← attempt (releaseInventoryWithRecovery order reservations job.fence)
        reconcileCapturedPaymentFailure job order paymentId e

/-- What a snapshot already decides; `none` goes on. -/
def snapshotVerdict (s : PaymentSnapshot) : Option PendingPaymentOutcome :=
  match s.status with
  | .pending => some .retry
  | .failed => some (.failed (paymentOperationError "payment authorization"
      (authorizationFailureStatus s.failureReason) s.failureReason))
  | .voided | .refunded => some (.failed (paymentReconciliationError
      "payment authorization was voided or refunded before checkout completed"))
  | .partiallyRefunded => some (.failed (paymentReconciliationError
      "payment authorization has a partial refund and cannot complete checkout"))
  | .authorized | .captured => none

/-- A snapshot under the job's fence, observed in the job's row. -/
def observeSnapshot (job : PaymentReconciliationJob) (order : PendingOrder)
    (paymentId : PaymentId) : Flow PaymentSnapshot := do
  let snapshot ← withCheckoutFence job.fence (getPaymentSnapshot order paymentId)
  tx (.recordPaymentReconciliationObservation job)
  pure snapshot

/-- Capture an authorized payment; `none` says to retry later. -/
def captureReconciled (job : PaymentReconciliationJob) (order : PendingOrder)
    (paymentId : PaymentId) (snapshot : PaymentSnapshot) : Flow (Option PaymentSnapshot) :=
  if snapshot.status = .authorized ∧ snapshot.capturedMinor < order.totalMinor then do
    withCheckoutFence job.fence (capturePayment order paymentId job.requestId)
    let after ← observeSnapshot job order paymentId
    if after.status = .pending ∨ after.status = .authorized then pure none
    else pure (some after)
  else pure (some snapshot)

/-- The exact amount is captured and nothing of it refunded. -/
def capturedExactly (order : PendingOrder) (s : PaymentSnapshot) : Bool :=
  decide (s.status = .captured ∧ s.capturedMinor = order.totalMinor ∧ s.refundedMinor = 0)

/-- `reconcile_pending_payment` once the payment is known. -/
def reconcilePayment (job : PaymentReconciliationJob) (order : PendingOrder)
    (paymentId : PaymentId) : Flow PendingPaymentOutcome := do
  let snapshot ← observeSnapshot job order paymentId
  match snapshotVerdict snapshot with
  | some outcome => pure outcome
  | none => do
    match ← captureReconciled job order paymentId snapshot with
    | none => pure .retry
    | some snapshot =>
      if capturedExactly order snapshot then fulfillReconciled job order paymentId
      else pure (.failed (paymentReconciliationError
        "payment capture did not settle the exact checkout amount"))

/-- The payment of a job: its own, or the one the ledger knows. -/
def jobPaymentId (job : PaymentReconciliationJob) (order : PendingOrder) :
    Flow (Option PaymentId) :=
  match job.paymentId with
  | some paymentId => pure (some paymentId)
  | none => tx (.lookupAuthorizationPaymentId order job.requestId)

/-- `attach_payment_to_reconciliation`, unless the job has the payment. -/
def attachPayment (job : PaymentReconciliationJob) (paymentId : PaymentId) : Flow Unit :=
  if job.paymentId = some paymentId then pure ()
  else tx (.attachPaymentToReconciliation job paymentId)

/-- A job that fits its order. -/
def jobMatches (job : PaymentReconciliationJob) (order : PendingOrder) : Bool :=
  decide (order.currency = job.currency ∧ order.totalMinor = job.amountMinor ∧
    job.merchantReference = order.id)

/-- `reconcile_pending_payment` of a job that fits its order. -/
def reconcileOrder (job : PaymentReconciliationJob) (order : PendingOrder) :
    Flow PendingPaymentOutcome := do
  match ← jobPaymentId job order with
  | none => pure .retry
  | some paymentId => do
    attachPayment job paymentId
    reconcilePayment job order paymentId

/-- `reconcile_pending_payment`. -/
def reconcilePendingPayment (job : PaymentReconciliationJob) : Flow PendingPaymentOutcome :=
  if job.authorizeRequestId = .authorize job.requestId then do
    tx (.assertCheckoutFence job.fence)
    let order : PendingOrder ← tx (.loadPendingOrder job.tenantId job.orderId)
    if jobMatches job order then reconcileOrder job order
    else pure (.failed (paymentReconciliationError
      "payment reconciliation job does not match its order"))
  else pure (.failed (paymentReconciliationError
    "payment reconciliation job identity is invalid"))

/-- The worker settles its job. -/
def settleJob (job : PaymentReconciliationJob) : ApiResult PendingPaymentOutcome → Flow Unit
  | .ok .retry => tx (.reschedulePaymentReconciliation job)
  | .ok (.completed payload) => tx (.completePaymentReconciliation job payload)
  | .ok (.failed e) => tx (.failPaymentReconciliation job e)
  | .error e => if isLeaseLost e then pure () else tx (.reschedulePaymentReconciliation job)

/-- `process_one_payment_reconciliation`. -/
def processOnePaymentReconciliation (pick : TenantId × RequestId) : Flow Bool := do
  let reclaimed : Bool ← tx .reclaimExhaustedPaymentReconciliation
  if reclaimed then pure true
  else do
    let claimed : Option PaymentReconciliationJob ← tx (.claimPaymentReconciliation pick)
    match claimed with
    | none => pure false
    | some job => do
      let result ← attempt (reconcilePendingPayment job)
      settleJob job result
      pure true

/-! ## The compensation worker -/

/-- The inventory arm of `process_compensation_task`. -/
def releaseTask (order : PendingOrder) (fence : CheckoutFence)
    (reservation : InventoryReservation) : Flow Unit := do
  tx (.beginCompensationOperation order (releaseKey fence reservation) fence)
  releaseInventory order fence none [reservation]
  tx (.completeCompensationOperation order (releaseKey fence reservation) fence)

/-- The payment arm of `process_compensation_task`. -/
def refundTask (order : PendingOrder) (fence : CheckoutFence) (paymentId : PaymentId)
    (requestId : RequestId) (currency : Currency) : Flow Unit :=
  if currency = order.currency then do
    let compensated ← compensatePaymentWithFence order paymentId requestId fence
    if compensated then pure ()
    else ofResult (.error (paymentReconciliationError
      "durable payment compensation is not yet confirmed"))
  else ofResult (.error ⟨500, .compensationPersistenceFailed,
    "payment compensation currency does not match the order"⟩)

/-- `process_compensation_task`. -/
def processCompensationTask (task : ClaimedTask) : Flow Unit := do
  let fence : CheckoutFence ← tx (.compensationFence task)
  let order : PendingOrder ← tx (.loadPendingOrder task.tenantId task.orderId)
  match task.kind with
  | .inventoryRelease reservationId sku quantity =>
    releaseTask order fence ⟨reservationId, sku, quantity, none⟩
  | .payment paymentId requestId currency =>
    refundTask order fence paymentId requestId currency

/-- The worker settles its task. -/
def settleTask (task : ClaimedTask) : ApiResult Unit → Flow Unit
  | .ok () => tx (.finishCompensationTask task false)
  | .error _ =>
    if compensationMaxAttempts ≤ task.attempts then tx (.finishCompensationTask task true)
    else tx (.rescheduleCompensationTask task)

/-- `process_one_compensation`. -/
def processOneCompensation (expired pick : Nat) : Flow Bool := do
  let buried : Bool ← tx (.deadLetterExpiredCompensationTask expired)
  if buried then pure true
  else do
    let claimed : Option ClaimedTask ← tx (.claimCompensationTask pick)
    match claimed with
    | none => pure false
    | some task => do
      let result ← attempt (processCompensationTask task)
      settleTask task result
      pure true

end CommercePlayground.Checkout
