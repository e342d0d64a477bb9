/-
CommercePlayground.Checkout.Orders — the attempt and the order of a checkout
request: `claim_checkout_attempt` with its reclaim of a stale generation,
`create_pending_order`, the recorded outcome of an attempt, cancellation and
`finalize_order`.
-/
import CommercePlayground.Checkout.Fence
import Mathlib.Data.List.MinMax

namespace CommercePlayground.Checkout

open Lib

/-! ## Attempts -/

/-- `WHERE tenant_id = … AND request_id = …`. -/
def isAttempt (tenantId : TenantId) (requestId : RequestId) (a : CheckoutAttempt) : Bool :=
  decide (a.tenantId = tenantId ∧ a.requestId = requestId)

/-- `CheckoutAttemptClaim`. -/
inductive CheckoutAttemptClaim where
  | new (leaseToken : Nat)
  | inProgress
  | pending (payload : CheckoutPayload)
  | replay (payload : CheckoutPayload)
  | failed (error : ApiError)

/-- The row a first claim inserts. -/
def newAttempt (db : Db) (tenantId : TenantId) (requestId : RequestId)
    (fingerprint : CheckoutInput) : CheckoutAttempt where
  tenantId := tenantId
  requestId := requestId
  requestFingerprint := fingerprint
  status := .started
  orderId := none
  responsePayload := none
  errorStatus := none
  errorCode := none
  errorMessage := none
  leaseToken := db.nextUuid
  leaseExpiresAt := some (db.now + attemptStaleAfter)
  updatedAt := db.now

/-- `COALESCE(lease_expires_at, updated_at + 10 minutes) <= CURRENT_TIMESTAMP`. -/
def isStale (now : Nat) (a : CheckoutAttempt) : Bool :=
  decide ((a.leaseExpiresAt.getD (a.updatedAt + attemptStaleAfter)) ≤ now)

/-- The order an attempt is linked to. -/
def linkedOrder (db : Db) (a : CheckoutAttempt) : Option Order :=
  a.orderId.bind fun id =>
    db.checkout.orders.find? fun o => decide (o.tenantId = a.tenantId ∧ o.id = id)

/-- `stale_reclaim_order_is_safe`. -/
def staleReclaimOrderIsSafe (orderId : Option OrderId) (status : Option OrderStatus) : Bool :=
  orderId.isNone || decide (status = some .pending)

/-- The latest payment of an order. -/
def latestPayment (db : Db) (tenantId : TenantId) (orderId : OrderId) : Option Payment :=
  (db.payment.payments.filter fun p =>
    decide (p.tenantId = tenantId ∧ p.orderId = orderId)).argmax (·.createdAt)

/-- The response of a checkout whose order turned out to be paid. -/
def paidPayload (db : Db) (tenantId : TenantId) (orderId : OrderId) : CheckoutPayload :=
  ⟨.paid, orderId, (latestPayment db tenantId orderId).map (·.id)⟩

/-- An attempt that ends with a response. -/
def respond (now : Nat) (status : AttemptStatus) (orderId : Option OrderId)
    (payload : CheckoutPayload) (a : CheckoutAttempt) : CheckoutAttempt :=
  { a with
    status := status
    orderId := orderId
    responsePayload := some payload
    errorStatus := none
    errorCode := none
    errorMessage := none
    leaseExpiresAt := none
    updatedAt := now }

/-- An attempt that ends with an error. -/
def fail (now : Nat) (error : ApiError) (a : CheckoutAttempt) : CheckoutAttempt :=
  { a with
    status := .failed
    responsePayload := none
    errorStatus := some error.status.toI16
    errorCode := some error.code
    errorMessage := some error.message
    leaseExpiresAt := none
    updatedAt := now }

/-- A stale attempt taken over by a new generation. -/
def reclaimed (now token : Nat) (a : CheckoutAttempt) : CheckoutAttempt :=
  { a with
    status := .started
    leaseToken := token
    leaseExpiresAt := some (now + attemptStaleAfter)
    responsePayload := none
    errorStatus := none
    errorCode := none
    errorMessage := none
    updatedAt := now }

/-- A reconciliation handed to the new generation; a worker's claim on it is
retired. -/
def transferred (now token : Nat) (r : Reconciliation) : Reconciliation :=
  { r with
    checkoutLeaseToken := token
    status := if r.status = .processing then
        (if r.attempts < reconciliationMaxAttempts then .queued else .awaitingProvider)
      else r.status
    availableAt := if r.status = .processing then now else r.availableAt
    leaseToken := none
    leaseExpiresAt := none }

/-- A task of the old generation, quarantined. -/
def superseded (now : Nat) (t : CompensationTask) : CompensationTask :=
  { t with
    status := .superseded
    claimToken := none
    claimExpiresAt := none
    updatedAt := now }

/-- A task that still has work to do, or is dead-lettered. -/
def isOpenTask (t : CompensationTask) : Bool :=
  decide (t.status ≠ .completed ∧ t.status ≠ .superseded)

/-- `checkout_request_id` and `checkout_lease_token` of a task. -/
def isTaskOf (g : Generation) (t : CompensationTask) : Bool :=
  decide (t.tenantId = g.tenantId ∧ t.checkoutRequestId = g.requestId ∧
    t.checkoutLeaseToken = g.token)

/-- The three statements of a reclaim: the attempt gets the fresh token, the
reconciliation follows it and the open tasks of the old generation are
quarantined. -/
def reclaim (db : Db) (g : Generation) : Db :=
  let db₁ := updateAttempts db
    (fun a => isGeneration g a && decide (a.status = .started) && isStale db.now a)
    (reclaimed db.now db.nextUuid)
  let db₂ := updateReconciliations db₁
    (fun r => isReconciliationOf g r && decide (r.status ≠ .completed))
    (transferred db.now db.nextUuid)
  bumpUuid (updateTasks db₂ (fun t => isTaskOf g t && isOpenTask t) (superseded db.now))

/-- The stale arm of `claim_checkout_attempt`. -/
def claimStaleAttempt (a : CheckoutAttempt) (db : Db) : ApiResult (CheckoutAttemptClaim × Db) :=
  let g : Generation := ⟨a.tenantId, a.requestId, a.leaseToken⟩
  let status := (linkedOrder db a).map (·.status)
  match a.orderId with
  | some orderId =>
    if status = some .paid then
      let payload := paidPayload db a.tenantId orderId
      let sel := fun a => isGeneration g a &&
        decide (a.status = .started ∧ a.orderId = some orderId)
      if affected sel db.checkout.attempts = 1 then
        .ok (.replay payload, updateAttempts db sel (respond db.now .paid (some orderId) payload))
      else .error (leaseLost "paid checkout reclaim lost its lease")
    else if staleReclaimOrderIsSafe a.orderId status = false then
      .error ⟨409, .checkoutReconciliationRequired,
        "stale checkout attempt is linked to a non-pending order"⟩
    else .ok (.new db.nextUuid, reclaim db g)
  | none => .ok (.new db.nextUuid, reclaim db g)

/-- `replay_error_code`: the codes a repeated request may see again. -/
def replayErrorCode : ErrorCode → ErrorCode
  | .amountOutOfRange => .amountOutOfRange
  | .catalogProtocolError => .catalogProtocolError
  | .catalogQueryFailed => .catalogQueryFailed
  | .catalogUnavailable => .catalogUnavailable
  | .databaseTimeout => .databaseTimeout
  | .databaseUnavailable => .databaseUnavailable
  | .eventEncodeFailed => .eventEncodeFailed
  | .eventProtocolError => .eventProtocolError
  | .invalidCartItem => .invalidCartItem
  | .invalidCart => .invalidCart
  | .invalidCurrency => .invalidCurrency
  | .invalidIdentity => .invalidIdentity
  | .invalidItems => .invalidItems
  | .invalidQuantity => .invalidQuantity
  | .invalidRequestId => .invalidRequestId
  | .invalidSession => .invalidSession
  | .inventoryReleaseFailed => .inventoryReleaseFailed
  | .inventoryReleaseUnavailable => .inventoryReleaseUnavailable
  | .inventoryProtocolError => .inventoryProtocolError
  | .inventoryReservationFailed => .inventoryReservationFailed
  | .inventoryUnavailable => .inventoryUnavailable
  | .inventoryCommitFailed => .inventoryCommitFailed
  | .inventoryCommitUnavailable => .inventoryCommitUnavailable
  | .inventoryCommitProtocolError => .inventoryCommitProtocolError
  | .checkoutPostConsumeReconciliation => .checkoutPostConsumeReconciliation
  | .checkoutReconciliationRequired => .checkoutReconciliationRequired
  | .messagingRejected => .messagingRejected
  | .messagingUnavailable => .messagingUnavailable
  | .orderNotFound => .orderNotFound
  | .paymentAlreadyProcessed => .paymentAlreadyProcessed
  | .paymentDeclined => .paymentDeclined
  | .paymentFailed => .paymentFailed
  | .paymentInsufficientFunds => .paymentInsufficientFunds
  | .paymentInternal => .paymentInternal
  | .paymentInvalidMethod => .paymentInvalidMethod
  | .paymentInvalidRequest => .paymentInvalidRequest
  | .paymentInvalidState => .paymentInvalidState
  | .paymentNotFound => .paymentNotFound
  | .paymentPending => .paymentPending
  | .paymentProtocolError => .paymentProtocolError
  | .paymentProviderUnavailable => .paymentProviderUnavailable
  | .paymentReconciliationFailed => .paymentReconciliationFailed
  | .paymentReconciliationPending => .paymentReconciliationPending
  | .paymentTimeout => .paymentTimeout
  | .pricingFailed => .pricingFailed
  | .pricingInvalidRequest => .pricingInvalidRequest
  | .pricingProtocolError => .pricingProtocolError
  | .pricingTimeout => .pricingTimeout
  | .pricingUnavailable => .pricingUnavailable
  | .productNotFound => .productNotFound
  | .recommendationProtocolError => .recommendationProtocolError
  | .recommendationUnavailable => .recommendationUnavailable
  | _ => .checkoutRequestFailed

/-- The error of a failed attempt, as a repeated request gets it. A missing
code reads as the empty one, which `replay_error_code` does not know. -/
def replayedError (a : CheckoutAttempt) : ApiError where
  status := (a.errorStatus.bind StatusCode.fromI16).getD .internalServerError
  code := (a.errorCode.map replayErrorCode).getD .checkoutRequestFailed
  message := a.errorMessage.getD "checkout request previously failed"

/-- `claim_checkout_attempt`. The row is locked between the read and the
reclaim, so the reclaim finds it. -/
def claimCheckoutAttempt (tenantId : TenantId) (requestId : RequestId)
    (fingerprint : CheckoutInput) (db : Db) : ApiResult (CheckoutAttemptClaim × Db) :=
  match db.checkout.attempts.find? (isAttempt tenantId requestId) with
  | none =>
    .ok (.new db.nextUuid, bumpUuid (setAttempts db
      (db.checkout.attempts ++ [newAttempt db tenantId requestId fingerprint])))
  | some a =>
    if a.requestFingerprint ≠ fingerprint then
      .error ⟨409, .checkoutRequestConflict,
        "request_id was already used for different checkout input"⟩
    else match a.status with
      | .started => if isStale db.now a then claimStaleAttempt a db else .ok (.inProgress, db)
      | .pending =>
        match a.responsePayload with
        | some payload => .ok (.pending payload, db)
        | none => .error (idempotencyCorrupt "checkout idempotency response is invalid")
      | .paid | .degraded =>
        match a.responsePayload with
        | some payload => .ok (.replay payload, db)
        | none => .error (idempotencyCorrupt "checkout idempotency response is invalid")
      | .failed => .ok (.failed (replayedError a), db)

/-- `record_checkout_response`. The CHECK of the table admits a response only
in these statuses. -/
def recordCheckoutResponse (lease : CheckoutLease) (status : AttemptStatus)
    (orderId : Option OrderId) (payload : CheckoutPayload) (db : Db) : ApiResult (Unit × Db) := do
  let sel := isLiveLease db.now ⟨lease.tenantId, lease.requestId, lease.token⟩
  require (decide (affected sel db.checkout.attempts = 1))
    (leaseLost "checkout idempotency response no longer owns an active lease")
  require (decide (status = .pending ∨ status = .paid ∨ status = .degraded)) dbError
  pure ((), updateAttempts db sel (respond db.now status orderId payload))

/-- `record_checkout_failure`. -/
def recordCheckoutFailure (lease : CheckoutLease) (error : ApiError) (db : Db) :
    ApiResult (Unit × Db) := do
  let sel := isLiveLease db.now ⟨lease.tenantId, lease.requestId, lease.token⟩
  require (decide (affected sel db.checkout.attempts = 1))
    (leaseLost "checkout idempotency failure no longer owns an active lease")
  pure ((), updateAttempts db sel (fail db.now error))

/-! ## Orders -/

/-- `PendingOrder`. -/
structure PendingOrder where
  id : OrderId
  cartId : CartId
  tenantId : TenantId
  customerId : CustomerId
  sessionId : SessionId
  currency : Currency
  lines : List OrderLine
  subtotalMinor : Int
  discountMinor : Int
  taxMinor : Int
  totalMinor : Int
  promotionCode : Option PromotionCode

/-- `WHERE tenant_id = … AND id = …`. -/
def isOrder (tenantId : TenantId) (id : OrderId) (o : Order) : Bool :=
  decide (o.tenantId = tenantId ∧ o.id = id)

/-- The cart of an order. -/
def cartOf (db : Db) (o : Order) : Option Cart :=
  db.checkout.carts.find? fun c => decide (c.tenantId = o.tenantId ∧ c.id = o.cartId)

/-- The `PendingOrder` of a stored order. -/
def pendingOrder (o : Order) (sessionId : SessionId) : PendingOrder where
  id := o.id
  cartId := o.cartId
  tenantId := o.tenantId
  customerId := o.customerId
  sessionId := sessionId
  currency := o.currency
  lines := o.lines
  subtotalMinor := o.subtotalMinor
  discountMinor := o.discountMinor
  taxMinor := o.taxMinor
  totalMinor := o.totalMinor
  promotionCode := o.promotionCode

/-- The attempt that `create_pending_order` links to its order: the lease's
expiry is not checked. -/
def isLinkable (g : Generation) (orderId : OrderId) (a : CheckoutAttempt) : Bool :=
  isGeneration g a && decide (a.status = .started) &&
    decide (a.orderId = none ∨ a.orderId = some orderId)

/-- `UPDATE checkout_attempts SET order_id = …`. -/
def linkOrder (g : Generation) (orderId : OrderId) (message : String) (db : Db) :
    ApiResult Db :=
  let sel := isLinkable g orderId
  if affected sel db.checkout.attempts = 1 then
    .ok (updateAttempts db sel fun a => { a with orderId := some orderId, updatedAt := db.now })
  else .error (idempotencyCorrupt message)

/-- The generation `create_pending_order` writes for. -/
def orderGeneration (input : CheckoutInput) (lease : CheckoutLease) : Generation :=
  ⟨input.tenantId, lease.requestId, lease.token⟩

/-- `create_pending_order` of a request that has an order already. -/
def reuseOrder (input : CheckoutInput) (lease : CheckoutLease) (o : Order) (db : Db) :
    ApiResult (PendingOrder × Db) := do
  require (decide (o.customerId = input.customerId ∧ o.currency = input.currencyCode ∧
      (cartOf db o).bind (·.sessionId) = some input.sessionId))
    ⟨409, .checkoutRequestConflict,
      "checkout request is linked to a different order identity"⟩
  let db₁ ← linkOrder (orderGeneration input lease) o.id
    "checkout attempt is not linked to its durable order" db
  pure (pendingOrder o input.sessionId, db₁)

/-- The order lines: each item's active variant at the quoted price. -/
def orderLines (db : Db) (tenantId : TenantId) (quote : QuoteResponse) :
    List CheckoutItemInput → ApiResult (List OrderLine)
  | [] => .ok []
  | item :: items =>
    match db.inventory.variants.find? fun v =>
      decide (v.tenantId = tenantId ∧ v.sku = item.sku) && v.active && v.productActive with
    | none => .error ⟨404, .productNotFound, "unknown SKU"⟩
    | some v =>
      match quote.lines.find? fun l => decide (l.sku = item.sku) with
      | none => .error (pricingProtocolError "missing quote line")
      | some line =>
        match line.unitPrice with
        | none => .error (pricingProtocolError "quote line has no unit price")
        | some price => do
          let unitPrice ← i32Amount price.amountMinor
          let lines ← orderLines db tenantId quote items
          pure (⟨v.id, item.sku, item.quantity, unitPrice⟩ :: lines)

/-- `INSERT INTO carts … ON CONFLICT DO NOTHING`: the id, and the session of a
tenant, are unique. -/
def ensureCart (input : CheckoutInput) (cartId : CartId) (db : Db) : Db :=
  if db.checkout.carts.any fun c => decide (c.id = cartId ∨
      (c.tenantId = input.tenantId ∧ c.sessionId = some input.sessionId)) then db
  else setCarts db (db.checkout.carts ++ [{
    id := cartId
    tenantId := input.tenantId
    customerId := some input.customerId
    sessionId := some input.sessionId
    status := .active
    currency := input.currencyCode }])

/-- The cart a new order takes: it has to be active and the customer's own. -/
def checkCart (input : CheckoutInput) (cartId : CartId) (db : Db) : ApiResult Unit :=
  match db.checkout.carts.find? fun c => decide (c.tenantId = input.tenantId ∧ c.id = cartId) with
  | none => .error ⟨500, .cartPersistenceFailed, "checkout cart was not persisted"⟩
  | some c =>
    require (decide (c.customerId = some input.customerId ∧ c.status = .active ∧
        c.currency = input.currencyCode ∧ c.sessionId = some input.sessionId))
      ⟨409, .cartScopeConflict,
        "cart does not belong to the checkout customer or is not active"⟩

/-- The order row a new checkout inserts. -/
def newOrder (input : CheckoutInput) (lease : CheckoutLease) (cartId : CartId)
    (totals : QuoteTotals) (lines : List OrderLine) (id : OrderId) : Order where
  id := id
  tenantId := input.tenantId
  checkoutRequestId := lease.requestId
  customerId := input.customerId
  cartId := cartId
  status := .pending
  currency := input.currencyCode
  subtotalMinor := totals.subtotal
  discountMinor := totals.discount
  taxMinor := totals.tax
  totalMinor := totals.total
  promotionCode := input.promotionCode
  lines := lines

/-- The cart id of a new order: the request's, or a fresh one. -/
def chosenCart (input : CheckoutInput) (db : Db) : CartId := input.cartId.getD db.nextUuid

/-- `create_pending_order` of a request without an order. -/
def insertOrder (input : CheckoutInput) (quote : QuoteResponse) (lease : CheckoutLease)
    (db : Db) : ApiResult (PendingOrder × Db) := do
  let totals ← quoteTotals input quote
  let cartId := chosenCart input db
  let db₁ := ensureCart input cartId (bumpUuid db)
  checkCart input cartId db₁
  let lines ← orderLines db₁ input.tenantId quote input.items
  i32Totals totals
  require (decide (lines.map (·.variantId)).Nodup) dbError
  let o := newOrder input lease cartId totals lines db₁.nextUuid
  let db₂ := bumpUuid (setOrders db₁ (db₁.checkout.orders ++ [o]))
  let db₃ ← linkOrder (orderGeneration input lease) o.id
    "checkout attempt could not be linked to its durable order" db₂
  pure (pendingOrder o input.sessionId, db₃)

/-- The order of a checkout request. -/
def orderOfRequest (db : Db) (tenantId : TenantId) (requestId : RequestId) : Option Order :=
  db.checkout.orders.find? fun o =>
    decide (o.tenantId = tenantId ∧ o.checkoutRequestId = requestId)

/-- `create_pending_order`. -/
def createPendingOrder (input : CheckoutInput) (quote : QuoteResponse) (lease : CheckoutLease)
    (db : Db) : ApiResult (PendingOrder × Db) := do
  validateInput input
  validateQuoteResponse input quote
  match orderOfRequest db input.tenantId lease.requestId with
  | some o => reuseOrder input lease o db
  | none => insertOrder input quote lease db

/-- `load_pending_order`. -/
def loadPendingOrder (tenantId : TenantId) (orderId : OrderId) (db : Db) :
    ApiResult (PendingOrder × Db) :=
  match db.checkout.orders.find? (isOrder tenantId orderId) with
  | none => .error ⟨404, .orderNotFound, "compensation order was not found"⟩
  | some o =>
    match (cartOf db o).bind (·.sessionId) with
    | none => .error ⟨503, .compensationPersistenceFailed,
        "compensation order has no session identity"⟩
    | some sessionId => .ok (pendingOrder o sessionId, db)

/-- No task of the order has work to do or is dead-lettered. -/
def noOpenTask (db : Db) (tenantId : TenantId) (orderId : OrderId) : Bool :=
  db.checkout.tasks.all fun t =>
    !(decide (t.tenantId = tenantId ∧ t.orderId = orderId) && isOpenTask t)

/-- A pending order, by id. -/
def isPendingOrder (tenantId : TenantId) (id : OrderId) (o : Order) : Bool :=
  isOrder tenantId id o && decide (o.status = .pending)

/-- `UPDATE orders SET status = 'cancelled' … AND status = 'pending'`. -/
def cancelOrder (db : Db) (tenantId : TenantId) (id : OrderId) : Db :=
  updateOrders db (isPendingOrder tenantId id) fun o => { o with status := .cancelled }

/-- `cancel_order_fenced`. -/
def cancelOrderFenced (order : PendingOrder) (fence : CheckoutFence) (db : Db) :
    ApiResult (Unit × Db) := do
  lockCheckoutFence db fence
  require (decide (affected (isPendingOrder order.tenantId order.id) db.checkout.orders = 1) &&
      writerFence db order.tenantId fence [.started])
    ⟨409, .orderStateConflict, "pending order could not be cancelled"⟩
  pure ((), cancelOrder db order.tenantId order.id)

/-- `cancel_order_if_compensated`. -/
def cancelOrderIfCompensated (order : PendingOrder) (fence : CheckoutFence) (db : Db) :
    ApiResult (Unit × Db) := do
  lockCheckoutFence db fence
  require (decide (affected (isPendingOrder order.tenantId order.id) db.checkout.orders = 1) &&
      noOpenTask db order.tenantId order.id && writerFence db order.tenantId fence [.started])
    ⟨409, .orderStateConflict,
      "order was not cancelled because compensation is incomplete or state changed"⟩
  pure ((), cancelOrder db order.tenantId order.id)

/-- `finalization_committed`. -/
def finalizationCommitted (order : PendingOrder) (db : Db) : ApiResult (Bool × Db) :=
  let pendingError (message : String) : ApiError :=
    ⟨503, .finalizationReconciliationPending, message⟩
  match db.checkout.orders.find? (isOrder order.tenantId order.id) with
  | none => .error (pendingError "finalized order is not observable yet")
  | some o =>
    let outbox := db.checkout.outbox.any fun e =>
      decide (e.tenantId = o.tenantId ∧ e.orderId = order.id)
    if o.status = .paid then
      if outbox then .ok (true, db)
      else .error (pendingError "paid order is missing its transactional outbox event")
    else if o.status = .pending then .ok (false, db)
    else .error (pendingError "order is in unexpected state")

/-- The cart a finalization checks out. -/
def isActiveCart (order : PendingOrder) (c : Cart) : Bool :=
  decide (c.tenantId = order.tenantId ∧ c.id = order.cartId ∧ c.status = .active)

/-- A promotion that can be redeemed now. -/
def isRedeemable (now : Nat) (tenantId : TenantId) (code : PromotionCode) (p : Promotion) :
    Bool :=
  decide (p.tenantId = tenantId ∧ p.code = code) && p.active && decide (p.startsAt ≤ now) &&
    p.endsAt.all (fun t => decide (now < t)) &&
    p.maxRedemptions.all (fun m => decide (p.redemptionCount < m))

/-- The promotion of an order; the empty code counts as none. -/
def redeemedCode (order : PendingOrder) : Option PromotionCode :=
  order.promotionCode.filter fun code => decide (code ≠ 0)

/-- The redemption of `finalize_order`. -/
def redeemPromotion (order : PendingOrder) (db : Db) : ApiResult Db :=
  match redeemedCode order with
  | none => .ok db
  | some code =>
    let sel := isRedeemable db.now order.tenantId code
    if affected sel db.checkout.promotions = 1 then
      .ok (setPromotions db (updateWhere sel
        (fun p => { p with redemptionCount := p.redemptionCount + 1 }) db.checkout.promotions))
    else .error ⟨409, .promotionRedemptionUnavailable, "promotion is no longer redeemable"⟩

/-- The paid event of an order. -/
def paidEvent (order : PendingOrder) (paymentId : PaymentId) : OutboxEvent :=
  ⟨order.tenantId, order.id, paymentId, order.totalMinor⟩

/-- `INSERT INTO outbox_events … ON CONFLICT (tenant_id, event_key) DO NOTHING`. -/
def insertPaidEvent (order : PendingOrder) (paymentId : PaymentId) (db : Db) : Db :=
  if db.checkout.outbox.any fun e => decide (e.tenantId = order.tenantId ∧ e.orderId = order.id)
  then db
  else setOutbox db (db.checkout.outbox ++ [paidEvent order paymentId])

/-- `INSERT INTO feature_exposures … ON CONFLICT (tenant_id, exposure_key) DO
NOTHING`. -/
def insertExposure (order : PendingOrder) (db : Db) : Db :=
  setExposures db (insertMissing
    (fun e => decide (e.tenantId = order.tenantId ∧ e.orderId = order.id))
    ⟨order.tenantId, order.id, order.customerId, order.sessionId⟩ db.checkout.exposures)

/-- `INSERT INTO analytics_events … ON CONFLICT (tenant_id, event_key) DO
NOTHING`. -/
def insertAnalytics (order : PendingOrder) (paymentId : PaymentId) (db : Db) : Db :=
  setAnalytics db (insertMissing
    (fun e => decide (e.tenantId = order.tenantId ∧ e.orderId = order.id))
    ⟨order.tenantId, order.id, order.customerId, order.sessionId, paymentId, order.totalMinor⟩
    db.checkout.analytics)

/-- The order update of `finalize_order`. -/
def payOrder (db : Db) (order : PendingOrder) : Db :=
  updateOrders db (isPendingOrder order.tenantId order.id) fun o => { o with status := .paid }

/-- The cart update of `finalize_order`. -/
def checkOutCart (db : Db) (order : PendingOrder) : Db :=
  setCarts db (updateWhere (isActiveCart order) (fun c => { c with status := .checkedOut })
    db.checkout.carts)

/-- `finalize_order`. -/
def finalizeOrder (order : PendingOrder) (paymentId : PaymentId) (fence : CheckoutFence)
    (db : Db) : ApiResult (Unit × Db) := do
  lockCheckoutFence db fence
  require (decide (affected (isPendingOrder order.tenantId order.id) db.checkout.orders = 1) &&
      writerFence db order.tenantId fence [.started])
    ⟨409, .finalizationStateConflict, "order is no longer pending"⟩
  let db₁ := payOrder db order
  require (decide (affected (isActiveCart order) db₁.checkout.carts = 1))
    ⟨409, .finalizationStateConflict, "order cart is no longer active"⟩
  let db₂ := checkOutCart db₁ order
  let db₃ ← redeemPromotion order db₂
  let db₄ := insertAnalytics order paymentId (insertExposure order db₃)
  pure ((), insertPaidEvent order paymentId db₄)

end CommercePlayground.Checkout
