/-
CommercePlayground.Checkout.Flow — the control flow of checkout: the request
handler (`checkout_inner`, `checkout_flow`), the reconciliation worker and the
compensation worker, with the remote operations they share.

Every `?` of the source is a bind of `Flow`; a `match` on a result is an
`attempt`. Logging, spans, propagation contexts and delays are left out. The
feature flag only chooses whether a recommendation is fetched for the
response of a paid checkout, and that call cannot fail the checkout.
-/
import CommercePlayground.Checkout.Effects

namespace CommercePlayground.Checkout

open Lib

/-! ## Payment operations -/

/-- `payment_error`. -/
def paymentError (status : PaymentRpcException) (operation : String) : ApiError :=
  let message := operation ++ ": " ++ status.message
  match status.statusCode with
  | .deadlineExceeded => ⟨504, .paymentTimeout, message⟩
  | .unavailable => ⟨503, .paymentProviderUnavailable, message⟩
  | .internal => ⟨502, .paymentInternal, message⟩
  | .notFound => ⟨404, .paymentNotFound, message⟩
  | .alreadyExists => ⟨409, .paymentAlreadyProcessed, message⟩
  | .failedPrecondition => ⟨409, .paymentInvalidState, message⟩
  | .invalidArgument => ⟨400, .paymentInvalidRequest, message⟩
  | _ => ⟨502, .paymentFailed, message⟩

/-- `payment_operation_error`. -/
def paymentOperationError (operation : String) (status : PaymentOperationStatus) :
    PaymentFailureReason → ApiError
  | .insufficientFunds => ⟨402, .paymentInsufficientFunds, operation⟩
  | .invalidPaymentMethod => ⟨400, .paymentInvalidMethod, operation⟩
  | .providerUnavailable => ⟨503, .paymentProviderUnavailable, operation⟩
  | .alreadyProcessed => ⟨409, .paymentAlreadyProcessed, operation⟩
  | .invalidState => ⟨409, .paymentInvalidState, operation⟩
  | .declined => ⟨402, .paymentDeclined, operation⟩
  | .unspecified =>
    match status with
    | .declined => ⟨402, .paymentDeclined, operation⟩
    | .pending => ⟨202, .paymentPending, operation⟩
    | .failed => ⟨502, .paymentFailed, operation⟩
    | .succeeded => ⟨502, .paymentProtocolError, operation⟩

/-- `ApiError::is_ambiguous_payment_failure`. -/
def isAmbiguousPaymentFailure (e : ApiError) : Bool :=
  decide (e.code = .paymentProviderUnavailable ∨ e.code = .paymentTimeout ∨
    e.code = .paymentInternal ∨ e.code = .paymentProtocolError)

def isLeaseLost (e : ApiError) : Bool := decide (e.code = .checkoutLeaseLost)

/-- `payment_reconciliation_error`. -/
def paymentReconciliationError (message : String) : ApiError :=
  ⟨502, .paymentReconciliationFailed, message⟩

/-- `authorization_failure_status`. -/
def authorizationFailureStatus : PaymentFailureReason → PaymentOperationStatus
  | .declined | .insufficientFunds | .invalidPaymentMethod => .declined
  | _ => .failed

/-- `PaymentAuthorization`: the operation status is pending or a success. -/
structure PaymentAuthorization where
  paymentId : PaymentId
  pending : Bool

/-- The error of a gRPC status, else the response. -/
def paymentResponse (operation : String) :
    Except PaymentRpcException OperationResponse → ApiResult OperationResponse
  | .error status => .error (paymentError status operation)
  | .ok response => .ok response

/-- The amount of an order. -/
def PendingOrder.total (order : PendingOrder) : Money := ⟨order.currency, order.totalMinor⟩

/-- The outcome `authorize_payment` makes of a response. -/
def authorization (response : OperationResponse) : ApiResult PaymentAuthorization :=
  match response.operationStatus with
  | .succeeded => .ok ⟨response.payment.paymentId, false⟩
  | .pending => .ok ⟨response.payment.paymentId, true⟩
  | .declined | .failed => .error (paymentOperationError "payment authorization"
      response.operationStatus response.failureReason)

/-- `authorize_payment`. -/
def authorizePayment (order : PendingOrder) (requestId : RequestId) (token : PaymentToken)
    (method : PaymentMethodType) : Flow PaymentAuthorization := do
  let reply ← call (.payment ⟨order.tenantId, .authorize requestId,
    .authorize order.id order.total method token⟩)
  let response ← ofResult (paymentResponse "payment authorization" reply)
  ofResult (authorization response)

/-- `capture_payment`, `void_payment` and `refund_payment` succeed only when
the operation did. -/
def requireSucceeded (operation : String) (response : OperationResponse) : ApiResult Unit :=
  if response.operationStatus = .succeeded then .ok ()
  else .error (paymentOperationError operation response.operationStatus response.failureReason)

/-- A payment operation that has to succeed. -/
def paymentOperation (operation : String) (q : PaymentStore.Request) : Flow Unit := do
  let reply ← call (.payment q)
  let response ← ofResult (paymentResponse operation reply)
  ofResult (requireSucceeded operation response)

/-- `capture_payment`. -/
def capturePayment (order : PendingOrder) (paymentId : PaymentId) (requestId : RequestId) :
    Flow Unit :=
  paymentOperation "payment capture"
    ⟨order.tenantId, .capture requestId, .capture paymentId (some order.total)⟩

/-- `void_payment`. -/
def voidPayment (order : PendingOrder) (paymentId : PaymentId) (requestId : RequestId) :
    Flow Unit :=
  paymentOperation "payment void"
    ⟨order.tenantId, .void requestId, .void paymentId .orderCancelled⟩

/-- `refund_payment`. -/
def refundPayment (order : PendingOrder) (paymentId : PaymentId) (requestId : RequestId)
    (amount : Int) : Flow Unit :=
  paymentOperation "payment refund"
    ⟨order.tenantId, .refund requestId amount,
      .refund paymentId ⟨order.currency, amount⟩ .orderCancelled⟩

/-- `PaymentSnapshot`. -/
structure PaymentSnapshot where
  status : PaymentStatus
  failureReason : PaymentFailureReason
  capturedMinor : Int
  refundedMinor : Int

/-- The checks of `get_payment_snapshot`. -/
def validateSnapshot (order : PendingOrder) (paymentId : PaymentId) (payment : PaymentRecord) :
    ApiResult PaymentSnapshot :=
  if payment.paymentId ≠ paymentId ∨ payment.merchantReference ≠ order.id then
    .error (paymentReconciliationError
      "payment reconciliation returned the wrong payment resource")
  else if payment.currency ≠ order.currency ∨ payment.authorizedAmount ≠ order.totalMinor ∨
      payment.authorizedAmount < 0 ∨ payment.capturedAmount < 0 ∨ payment.refundedAmount < 0 ∨
      payment.capturedAmount > payment.authorizedAmount ∨
      payment.refundedAmount > payment.capturedAmount then
    .error (paymentReconciliationError "payment reconciliation returned invalid amounts")
  else .ok ⟨payment.status, payment.failureReason, payment.capturedAmount,
    payment.refundedAmount⟩

/-- The error of a gRPC status, else the record. -/
def paymentRecord :
    Except PaymentRpcException PaymentRecord → ApiResult PaymentRecord
  | .error status => .error (paymentError status "payment reconciliation lookup")
  | .ok record => .ok record

/-- `get_payment_snapshot`. -/
def getPaymentSnapshot (order : PendingOrder) (paymentId : PaymentId) :
    Flow PaymentSnapshot := do
  let reply ← call (.getPayment order.tenantId paymentId)
  let record ← ofResult (paymentRecord reply)
  ofResult (validateSnapshot order paymentId record)

/-! ## Payment compensation -/

/-- `payment_compensation_confirmed`. -/
def paymentCompensationConfirmed (s : PaymentSnapshot) : Bool :=
  match s.status with
  | .voided | .failed => decide (s.capturedMinor = 0 ∧ s.refundedMinor = 0)
  | .partiallyRefunded | .refunded => decide (s.capturedMinor = s.refundedMinor)
  | .pending | .authorized | .captured => false

/-- The financial action of one round of `compensate_payment`; its outcome is
re-read, not believed. `none` means that there is nothing to do. -/
def compensationAction (order : PendingOrder) (paymentId : PaymentId) (requestId : RequestId)
    (s : PaymentSnapshot) : Option (Flow Unit) :=
  if s.capturedMinor - s.refundedMinor > 0 then
    some (refundPayment order paymentId requestId (s.capturedMinor - s.refundedMinor))
  else if s.status = .authorized then some (voidPayment order paymentId requestId)
  else none

/-- `compensate_payment`, with the rounds left. -/
def compensatePayment (order : PendingOrder) (paymentId : PaymentId) (requestId : RequestId) :
    Nat → Flow Bool
  | 0 => pure false
  | rounds + 1 => do
    match ← attempt (getPaymentSnapshot order paymentId) with
    | .error _ => pure false
    | .ok snapshot =>
      if paymentCompensationConfirmed snapshot then pure true
      else match compensationAction order paymentId requestId snapshot with
        | none => pure false
        | some action => do
          let _ ← attempt action
          match ← attempt (getPaymentSnapshot order paymentId) with
          | .error _ => pure false
          | .ok after =>
            if paymentCompensationConfirmed after then pure true
            else compensatePayment order paymentId requestId rounds

/-- `compensate_payment_with_fence`. -/
def compensatePaymentWithFence (order : PendingOrder) (paymentId : PaymentId)
    (requestId : RequestId) (fence : CheckoutFence) : Flow Bool := do
  let key : TaskKey := ⟨.payment paymentId, fence.generation.token⟩
  tx (.beginCompensationOperation order key fence)
  let compensated ← withCheckoutFence fence (compensatePayment order paymentId requestId 3)
  if compensated then do
    tx (.completeCompensationOperation order key fence)
    pure true
  else pure false

/-- `enqueue_payment_compensation_task`. -/
def enqueuePaymentCompensation (order : PendingOrder) (paymentId : PaymentId)
    (requestId : RequestId) (fence : CheckoutFence) : Flow Unit := do
  tx (.enqueuePaymentCompensationTask order paymentId requestId fence)
  tx (.activateCompensationIntent order ⟨.payment paymentId, fence.generation.token⟩ fence)

/-! ## Authorization recovery -/

/-- `AuthorizationRecovery`. -/
inductive AuthorizationRecovery where
  | recovered (authorization : PaymentAuthorization)
  | absent
  | pending
  | failed (error : ApiError)

/-- The captured arm of `recover_authorization`. -/
def recoverCaptured (order : PendingOrder) (paymentId : PaymentId) (requestId : RequestId)
    (fence : CheckoutFence) : Flow AuthorizationRecovery := do
  enqueuePaymentCompensation order paymentId requestId fence
  let compensated ← compensatePaymentWithFence order paymentId requestId fence
  if compensated then do
    tx (.resolveCompensationIntent order (.payment paymentId) fence)
    pure .absent
  else ofResult (.error (paymentReconciliationError
    "captured funds remain after ambiguous authorization"))

/-- The last match of `recover_authorization`. -/
def recoveredStatus (paymentId : PaymentId) (s : PaymentSnapshot) :
    ApiResult AuthorizationRecovery :=
  match s.status with
  | .pending => .ok (.recovered ⟨paymentId, true⟩)
  | .authorized => .ok (.recovered ⟨paymentId, false⟩)
  | .voided | .refunded => .ok .absent
  | .failed => .ok (.failed (paymentOperationError "payment authorization"
      (authorizationFailureStatus s.failureReason) s.failureReason))
  | .captured | .partiallyRefunded => .error (paymentReconciliationError
      "payment state has no compensable captured balance")

/-- `recover_authorization` after the retry remained ambiguous. -/
def recoverFromLedger (order : PendingOrder) (requestId : RequestId) (fence : CheckoutFence) :
    Flow AuthorizationRecovery := do
  match ← tx (.lookupAuthorizationPaymentId order requestId) with
  | none => pure .pending
  | some paymentId => do
    let snapshot ← getPaymentSnapshot order paymentId
    if snapshot.capturedMinor > snapshot.refundedMinor then
      recoverCaptured order paymentId requestId fence
    else ofResult (recoveredStatus paymentId snapshot)

/-- `recover_authorization`. -/
def recoverAuthorization (order : PendingOrder) (requestId : RequestId) (token : PaymentToken)
    (method : PaymentMethodType) (fence : CheckoutFence) : Flow AuthorizationRecovery := do
  match ← attempt (authorizePayment order requestId token method) with
  | .ok authorization => pure (.recovered authorization)
  | .error retryError =>
    if isAmbiguousPaymentFailure retryError then recoverFromLedger order requestId fence
    else pure (.failed retryError)

/-! ## Inventory operations -/

def inventoryProtocolError (message : String) : ApiError :=
  ⟨502, .inventoryProtocolError, message⟩

/-- `validate_inventory_release_response`; the handler echoes the identity of
the request. -/
def validateRelease (reservation : InventoryReservation) (o : Inventory.ReleaseOutcome) :
    ApiResult Unit :=
  let matched := match o.status with
    | .released => decide (o.released = reservation.quantity)
    | .alreadyReleased => decide (o.released = 0)
  if matched = false ∨ o.reservedRemaining < 0 ∨ o.available < 0 then
    .error (inventoryProtocolError "inventory release payload does not match the request")
  else if reservation.locationId.any fun l => decide (l ≠ o.locationId) then
    .error (inventoryProtocolError
      "inventory release location does not match the reservation")
  else .ok ()

/-- What `release_inventory` makes of a response; 404 says that the
reservation is gone. -/
def releaseOutcome (reservation : InventoryReservation)
    (response : Response Inventory.ReleaseOutcome) : ApiResult Unit :=
  if response.status = 404 then .ok ()
  else if response.isSuccess then
    match response.body with
    | some o => validateRelease reservation o
    | none => .error (inventoryProtocolError
        "inventory release payload could not be decoded")
  else .error ⟨if response.status = 409 then 409 else 503, .inventoryReleaseFailed,
    "inventory release failed"⟩

/-- The request of a release. -/
def releaseBody (order : PendingOrder) (fence : CheckoutFence)
    (reservation : InventoryReservation) : Inventory.ReleaseBody where
  tenantId := order.tenantId
  reservationId := reservation.reservationId
  sku := reservation.sku
  quantity := reservation.quantity
  locationId := reservation.locationId
  checkoutRequestId := some fence.generation.requestId
  checkoutLeaseToken := some fence.generation.token

/-- The HTTP call of a release, with its transport error. -/
def postRelease (order : PendingOrder) (fence : CheckoutFence)
    (reservation : InventoryReservation) : Flow (Response Inventory.ReleaseOutcome) := do
  match ← call (.release (releaseBody order fence reservation)) with
  | some response => pure response
  | none => ofResult (.error ⟨503, .inventoryReleaseUnavailable, "inventory release"⟩)

/-- The first error is kept. -/
def firstError (first : Option ApiError) : ApiResult Unit → Option ApiError
  | .ok () => first
  | .error e => first.or (some e)

/-- `release_inventory`, with the first error so far. -/
def releaseInventory (order : PendingOrder) (fence : CheckoutFence) :
    Option ApiError → List InventoryReservation → Flow Unit
  | none, [] => pure ()
  | some e, [] => ofResult (.error e)
  | first, reservation :: rest => do
    match ← attempt (withCheckoutFence fence (postRelease order fence reservation)) with
    | .ok response => do
      tx (.assertCheckoutFence fence)
      releaseInventory order fence (firstError first (releaseOutcome reservation response)) rest
    | .error e =>
      if isLeaseLost e then ofResult (.error e)
      else releaseInventory order fence (first.or (some e)) rest

/-- The key of a reservation's release task. -/
def releaseKey (fence : CheckoutFence) (reservation : InventoryReservation) : TaskKey :=
  ⟨.inventory reservation.reservationId, fence.generation.token⟩

/-- One transaction for each reservation, in order. -/
def forEachReservation (f : InventoryReservation → Flow Unit) :
    List InventoryReservation → Flow Unit
  | [] => pure ()
  | reservation :: rest => do
    f reservation
    forEachReservation f rest

/-- `enqueue_inventory_compensation_tasks`. -/
def enqueueInventoryCompensation (order : PendingOrder)
    (reservations : List InventoryReservation) (fence : CheckoutFence) : Flow Unit := do
  tx (.enqueueInventoryCompensationTasks order reservations fence)
  forEachReservation (fun reservation =>
    tx (.activateCompensationIntent order (releaseKey fence reservation) fence)) reservations

/-- `release_inventory_with_recovery`: the intent is durable before the remote
release. -/
def releaseInventoryWithRecovery (order : PendingOrder)
    (reservations : List InventoryReservation) (fence : CheckoutFence) : Flow Unit := do
  enqueueInventoryCompensation order reservations fence
  forEachReservation (fun reservation =>
    tx (.beginCompensationOperation order (releaseKey fence reservation) fence)) reservations
  releaseInventory order fence none reservations
  forEachReservation (fun reservation => do
    tx (.completeCompensationOperation order (releaseKey fence reservation) fence)
    tx (.resolveCompensationIntent order (.inventory reservation.reservationId) fence))
    reservations

/-- The reservation of an order line before inventory answered. -/
def lineReservation (order : PendingOrder) (line : OrderLine) : InventoryReservation where
  reservationId := .line order.id line.variantId
  sku := line.sku
  quantity := line.quantity
  locationId := none

/-- The request of a reservation. -/
def reserveQuery (order : PendingOrder) (fence : CheckoutFence) (line : OrderLine) :
    Inventory.ReserveQuery where
  tenantId := order.tenantId
  reservationId := .line order.id line.variantId
  sku := line.sku
  quantity := line.quantity
  fail := false
  checkoutRequestId := some fence.generation.requestId
  checkoutLeaseToken := some fence.generation.token

/-- The HTTP call of a reservation, with its transport error. -/
def postReserve (order : PendingOrder) (fence : CheckoutFence) (line : OrderLine) :
    Flow (Response Inventory.ReserveOutcome) := do
  match ← call (.reserve (reserveQuery order fence line)) with
  | some response => pure response
  | none => ofResult (.error ⟨503, .inventoryUnavailable, "inventory"⟩)

/-- What `reserve_inventory` makes of a response; `parse_inventory_reservation`
is its last arm, and the handler echoes the identity of the request. -/
def reserveOutcome (order : PendingOrder) (line : OrderLine)
    (response : Response Inventory.ReserveOutcome) : ApiResult InventoryReservation :=
  if response.isSuccess = false then
    .error ⟨if response.status = 409 then 409 else 503, .inventoryReservationFailed,
      "inventory reservation failed"⟩
  else match response.body with
    | none => .error (inventoryProtocolError "inventory")
    | some o =>
      if o.remaining < 0 then
        .error (inventoryProtocolError
          "inventory reservation payload does not match the request")
      else .ok { lineReservation order line with locationId := some o.locationId }

/-- A failed line: what was reserved so far, and the line itself, is released. -/
def abandonReservations (order : PendingOrder) (fence : CheckoutFence)
    (reservations : List InventoryReservation) (e : ApiError) :
    Flow (List InventoryReservation) := do
  releaseInventoryWithRecovery order reservations fence
  ofResult (.error e)

/-- `reserve_inventory`, with the reservations made so far. -/
def reserveInventory (order : PendingOrder) (fence : CheckoutFence) :
    List InventoryReservation → List OrderLine → Flow (List InventoryReservation)
  | reservations, [] => pure reservations
  | reservations, line :: lines => do
    match ← attempt (withCheckoutFence fence (postReserve order fence line)) with
    | .error e =>
      abandonReservations order fence (reservations ++ [lineReservation order line])
        ⟨503, .inventoryUnavailable, e.message⟩
    | .ok response => do
      tx (.assertCheckoutFence fence)
      match reserveOutcome order line response with
      | .error e =>
        abandonReservations order fence (reservations ++ [lineReservation order line]) e
      | .ok reservation => reserveInventory order fence (reservations ++ [reservation]) lines

/-- The request of a consume. -/
def consumeBody (order : PendingOrder) (reservations : List InventoryReservation)
    (fence : CheckoutFence) : Inventory.ConsumeBody where
  tenantId := order.tenantId
  checkoutRequestId := some fence.generation.requestId
  checkoutLeaseToken := some fence.generation.token
  reservations := reservations.map fun r => ⟨r.reservationId, r.sku, r.quantity, r.locationId⟩

def inventoryCommitProtocolError (message : String) : ApiError :=
  ⟨502, .inventoryCommitProtocolError, message⟩

/-- `quantity_matches`. -/
def quantityMatches (o : InventoryConsumeResponse) (expected : Nat) : Bool :=
  match o.status with
  | .consumed => decide (o.consumed = expected)
  | .alreadyConsumed => decide (o.consumed = 0)

/-- What `consume_inventory_attempt` makes of a response. -/
def consumeOutcome (order : PendingOrder) (reservations : List InventoryReservation)
    (response : Response InventoryConsumeResponse) : ApiResult Unit :=
  if response.isSuccess = false then
    if response.isBusy then
      .error ⟨503, .inventoryCommitUnavailable, "inventory consume"⟩
    else .error ⟨409, .inventoryCommitFailed, "inventory consume"⟩
  else match response.body with
    | none => .error (inventoryCommitProtocolError "inventory consume")
    | some o =>
      let expected := (reservations.map (·.quantity)).sum
      if expected > 4294967295 then
        .error (inventoryCommitProtocolError "inventory consume quantity overflowed")
      else if o.tenantId ≠ order.tenantId ∨ o.reservationCount ≠ reservations.length ∨
          quantityMatches o expected = false then
        .error (inventoryCommitProtocolError
          "inventory consume payload does not match the request")
      else .ok ()

/-- The HTTP call of a consume, with its transport error. -/
def postConsume (order : PendingOrder) (reservations : List InventoryReservation)
    (fence : CheckoutFence) : Flow (Response InventoryConsumeResponse) := do
  match ← call (.consume (consumeBody order reservations fence)) with
  | some response => pure response
  | none => ofResult (.error ⟨503, .inventoryCommitUnavailable, "inventory consume"⟩)

/-- `consume_inventory_attempt`. -/
def consumeInventoryAttempt (order : PendingOrder) (reservations : List InventoryReservation)
    (fence : CheckoutFence) : Flow Unit := do
  let response ← withCheckoutFence fence (postConsume order reservations fence)
  tx (.assertCheckoutFence fence)
  ofResult (consumeOutcome order reservations response)

/-- `is_retryable_inventory_consume_error`. -/
def isRetryableInventoryConsumeError (e : ApiError) : Bool :=
  decide (e.code = .inventoryCommitUnavailable ∨ e.code = .inventoryCommitProtocolError)

/-- `consume_inventory`, with the retries left. -/
def consumeInventory (order : PendingOrder) (reservations : List InventoryReservation)
    (fence : CheckoutFence) : Nat → Flow Unit
  | 0 => consumeInventoryAttempt order reservations fence
  | retries + 1 => do
    match ← attempt (consumeInventoryAttempt order reservations fence) with
    | .ok () => pure ()
    | .error e =>
      if isRetryableInventoryConsumeError e then
        consumeInventory order reservations fence retries
      else ofResult (.error e)

/-- `INVENTORY_CONSUME_ATTEMPTS - 1`. -/
def inventoryConsumeRetries : Nat := 2

/-- Whether the finalization of an order became durable after an error. -/
def finalizationDurable (order : PendingOrder) : Flow Bool := do
  match ← attempt (tx (.finalizationCommitted order)) with
  | .ok committed => pure committed
  | .error e =>
    if e.code = .finalizationReconciliationPending then pure false else ofResult (.error e)

end CommercePlayground.Checkout
