/-
CommercePlayground.Payment.Store — `JdbcPaymentStore`, the durable payment
state and its request replay ledger.

Every public operation is one transaction. A transaction is a function
`Db → Except StoreError (α × Db)`: an error rolls everything back, so it
carries no database. The CHECK constraints, primary keys and unique indexes
of migrations 001, 009 and 012 are evaluated at every write (`writePayments`,
`insertOperation`, `insertDecision`); a statement that breaks one fails with
the constraint it broke.

Row locks and the per-request advisory lock are what makes a transaction
atomic; they have no other effect and are not represented.
-/
import CommercePlayground.Schema

namespace CommercePlayground.PaymentStore

open Lib

/-! ## Constraints -/

/-- The kinds of constraint a write can break. -/
inductive Violation where
  | check | primaryKey | activeOrderIndex | foreignKey
  deriving DecidableEq

/-- How a store transaction fails: an exception of the service, a statement
the database rejects, or an `IllegalStateException`. -/
inductive StoreError where
  | rpc (e : PaymentRpcException)
  | sql (v : Violation)
  | illegalState (message : String)

/-- `payments_pending_reconciliation_state_check`'s body for a pending row,
shared with the lifecycle check. -/
def pendingShape (p : Payment) : Tri :=
  Tri.or
    (Tri.and (Tri.isIn p.pendingResolution [.manualReconciliation])
      (Tri.and (Tri.isNull p.pendingReconciliationAt)
        (Tri.and (Tri.isNull p.pendingResolutionAt)
          (Tri.isNull p.providerDecisionVerifiedAt))))
    (Tri.and (Tri.isIn p.pendingResolution [.authorized, .failed])
      (Tri.and (Tri.notNull p.pendingReconciliationAt)
        (Tri.and (Tri.isNull p.pendingResolutionAt)
          (Tri.isNull p.providerDecisionVerifiedAt))))

/-- `payments_pending_reconciliation_lifecycle_check` (migration 012). -/
def lifecycleCheck (p : Payment) : Tri :=
  Tri.or
    (Tri.and (some (p.status = .pending)) (pendingShape p))
    (Tri.or
      (Tri.and (some (p.status ≠ .pending))
        (Tri.and (Tri.isNull p.pendingResolution)
          (Tri.and (Tri.isNull p.pendingReconciliationAt)
            (Tri.and (Tri.isNull p.pendingResolutionAt)
              (Tri.isNull p.providerDecisionVerifiedAt)))))
      (Tri.and (some (p.status ≠ .pending))
        (Tri.and (Tri.isIn p.pendingResolution [.authorized, .failed])
          (Tri.and (Tri.isNull p.pendingReconciliationAt)
            (Tri.and (Tri.notNull p.pendingResolutionAt)
              (Tri.notNull p.providerDecisionVerifiedAt))))))

/-- `payments_pending_reconciliation_state_check` (migration 012). -/
def stateCheck (p : Payment) : Tri := Tri.or (some (p.status ≠ .pending)) (pendingShape p)

/-- `payments_pending_resolution_timestamp_check` (migration 012). -/
def timestampCheck (p : Payment) : Tri :=
  Tri.or (Tri.isNull p.pendingResolutionAt)
    (Tri.isIn p.pendingResolution [.authorized, .failed])

/-- `captured_at IS NULL OR authorized_at IS NULL OR captured_at >= authorized_at`. -/
def capturedAfterAuthorized (p : Payment) : Bool :=
  match p.capturedAt, p.authorizedAt with
  | some c, some a => decide (a ≤ c)
  | _, _ => true

/-- The balance and timestamp CHECKs of migration 001. The columns are
INTEGER, so they also bound the amounts. -/
def balanceChecks (p : Payment) : Bool :=
  decide (0 ≤ p.amountMinor ∧ p.amountMinor ≤ 2147483647) &&
  decide (0 ≤ p.capturedAmountMinor ∧ p.capturedAmountMinor ≤ p.amountMinor) &&
  decide (0 ≤ p.refundedAmountMinor ∧ p.refundedAmountMinor ≤ p.capturedAmountMinor) &&
  (p.status != .captured || p.capturedAt.isSome) &&
  (p.status != .failed || p.failureCode.isSome) &&
  capturedAfterAuthorized p

/-- All CHECK constraints of `payments`. -/
def rowChecks (p : Payment) : Bool :=
  balanceChecks p && (timestampCheck p).passes && (stateCheck p).passes &&
    (lifecycleCheck p).passes

/-- The predicate of `uq_payments_one_active_order`. -/
def indexed (p : Payment) : Bool :=
  match p.status with
  | .pending | .authorized | .captured | .partiallyRefunded => true
  | .failed | .refunded | .voided => false

/-- The (tenant, order) keys held by `uq_payments_one_active_order`. -/
def activeOrderKeys (t : List Payment) : List (TenantId × OrderId) :=
  (t.filter indexed).map fun p => (p.tenantId, p.orderId)

/-- The database with another `payments` table. -/
def setPayments (db : Db) (t : List Payment) : Db :=
  { db with payment := { db.payment with payments := t } }

/-- The database with another ledger. -/
def setOperations (db : Db) (t : List StoredOperation) : Db :=
  { db with payment := { db.payment with operations := t } }

/-- The database with other provider decisions. -/
def setDecisions (db : Db) (t : List ProviderDecision) : Db :=
  { db with payment := { db.payment with decisions := t } }

/-- The database with other checkout reconciliation jobs. -/
def setReconciliations (db : Db) (t : List Reconciliation) : Db :=
  { db with checkout := { db.checkout with reconciliations := t } }

/-- Write the `payments` table: the statement fails when a row breaks a CHECK,
two rows share their key, or the partial unique index gets a duplicate. -/
def writePayments (db : Db) (t : List Payment) : Except StoreError Db :=
  if t.all rowChecks = false then .error (.sql .check)
  else if ¬ (t.map (·.id)).Nodup then .error (.sql .primaryKey)
  else if ¬ (activeOrderKeys t).Nodup then .error (.sql .activeOrderIndex)
  else .ok (setPayments db t)

/-- The primary key of `payment_operation_requests`. -/
def operationKey (o : StoredOperation) : TenantId × PaymentRequestId :=
  (o.tenantId, o.requestId)

/-- Insert into `payment_operation_requests`, under its primary key and the
foreign key to `payments` (migration 009). -/
def insertOperation (db : Db) (o : StoredOperation) : Except StoreError Db :=
  if operationKey o ∈ db.payment.operations.map operationKey then
    .error (.sql .primaryKey)
  else if o.paymentId.all (fun p => db.payment.payments.any fun r =>
      r.tenantId = o.tenantId ∧ r.id = p) = false then
    .error (.sql .foreignKey)
  else .ok (setOperations db (db.payment.operations ++ [o]))

/-- Insert into `payment_provider_authorization_decisions`, under its primary
key and the foreign key to `payments`. -/
def insertDecision (db : Db) (d : ProviderDecision) : Except StoreError Db :=
  if (d.tenantId, d.paymentId) ∈ db.payment.decisions.map (fun e => (e.tenantId, e.paymentId)) then
    .error (.sql .primaryKey)
  else if db.payment.payments.any (fun r => r.tenantId = d.tenantId ∧ r.id = d.paymentId)
      = false then
    .error (.sql .foreignKey)
  else if d.amountMinor < 0 then .error (.sql .check)
  else .ok (setDecisions db (db.payment.decisions ++ [d]))

/-! ## Provider behaviour by payment token -/

/-- `PaymentFaultPolicy.Kind`. -/
inductive FaultKind where
  | none | declined | insufficientFunds | invalidPaymentMethod | pending
  | unavailable | deadlineExceeded | internal
  deriving DecidableEq

/-- `PaymentFaultPolicy.Decision`. -/
structure Decision where
  kind : FaultKind
  operationStatus : PaymentOperationStatus
  failureReason : PaymentFailureReason
  pendingResolution : Option PendingResolution

/-- `PaymentFaultPolicy.forMethod`. -/
def forMethod : PaymentToken → Decision
  | .declined => ⟨.declined, .declined, .declined, none⟩
  | .insufficientFunds => ⟨.insufficientFunds, .declined, .insufficientFunds, none⟩
  | .invalidPaymentMethod => ⟨.invalidPaymentMethod, .declined, .invalidPaymentMethod, none⟩
  | .pending => ⟨.pending, .pending, .unspecified, some .authorized⟩
  | .pendingFail => ⟨.pending, .pending, .unspecified, some .failed⟩
  | .pendingUnknown => ⟨.pending, .pending, .providerUnavailable, some .manualReconciliation⟩
  | .unavailable => ⟨.unavailable, .failed, .providerUnavailable, none⟩
  | .timeout => ⟨.deadlineExceeded, .failed, .providerUnavailable, none⟩
  | .internal => ⟨.internal, .failed, .unspecified, none⟩
  | .other _ => ⟨.none, .succeeded, .unspecified, none⟩

/-- `Decision.isTransportFailure` and `transportException` in one. -/
def Decision.transportException (d : Decision) : Option PaymentRpcException :=
  match d.kind with
  | .unavailable => some ⟨.unavailable, d.failureReason, "payment provider unavailable"⟩
  | .deadlineExceeded =>
    some ⟨.deadlineExceeded, d.failureReason, "payment provider timed out"⟩
  | .internal =>
    some ⟨.internal, d.failureReason, "payment provider returned an internal error"⟩
  | _ => none

/-! ## Exceptions -/

/-- `PaymentRpcException.invalidArgument`. -/
def invalidArgument (reason : PaymentFailureReason) (message : String) : PaymentRpcException :=
  ⟨.invalidArgument, reason, message⟩

/-- `PaymentRpcException.alreadyExists`. -/
def alreadyExists (message : String) : PaymentRpcException :=
  ⟨.alreadyExists, .alreadyProcessed, message⟩

/-- `PaymentRpcException.notFound`. -/
def notFound (message : String) : PaymentRpcException := ⟨.notFound, .invalidState, message⟩

/-- `PaymentRpcException.failedPrecondition`. -/
def failedPrecondition (message : String) : PaymentRpcException :=
  ⟨.failedPrecondition, .invalidState, message⟩

/-! ## Reads -/

/-- The join condition between a payment and its provider decision. -/
def decisionMatches (d : ProviderDecision) (p : Payment) : Bool :=
  decide (d.tenantId = p.tenantId ∧ d.paymentId = p.id ∧ d.provider = p.provider ∧
    d.providerReference = p.providerReference ∧ d.amountMinor = p.amountMinor ∧
    d.currency = p.currency)

/-- `PaymentRow`: the payment and the verification time of its authorizing
decision, the `provider_decision_verified_at` sub-select. The decision table
has one row per payment, so ORDER BY and LIMIT select that row. -/
structure PaymentRow where
  row : Payment
  providerDecisionVerifiedAt : Option Nat

/-- `mapPayment`. -/
def paymentRow (db : Db) (p : Payment) : PaymentRow :=
  ⟨p, (db.payment.decisions.find? fun d =>
    decisionMatches d p && decide (d.outcome = .authorized)).map (·.verifiedAt)⟩

/-- `hasProviderDecisionProof`. -/
def PaymentRow.hasProviderDecisionProof (r : PaymentRow) : Bool :=
  r.providerDecisionVerifiedAt.isSome

/-- `WHERE tenant_id = … AND id = …`. -/
def isRow (tenantId : TenantId) (id : PaymentId) (p : Payment) : Bool :=
  decide (p.tenantId = tenantId ∧ p.id = id)

/-- `findPayment`. -/
def findPayment (db : Db) (tenantId : TenantId) (id : PaymentId) : Option PaymentRow :=
  (db.payment.payments.find? (isRow tenantId id)).map (paymentRow db)

/-- The WHERE predicate of `findByMerchantReference` on the status columns:
the payment is active. -/
def isActive (p : Payment) : Bool :=
  match p.status with
  | .pending | .authorized | .captured | .partiallyRefunded => true
  | .refunded => decide (p.capturedAmountMinor < p.amountMinor)
  | .failed | .voided => false

/-- `findByMerchantReference`. -/
def findByMerchantReference (db : Db) (tenantId : TenantId) (orderId : OrderId) :
    Option PaymentRow :=
  (db.payment.payments.find? fun p =>
    decide (p.tenantId = tenantId ∧ p.orderId = orderId) && isActive p).map (paymentRow db)

/-- `findStoredOperation`. -/
def findStoredOperation (db : Db) (tenantId : TenantId) (requestId : PaymentRequestId) :
    Option StoredOperation :=
  db.payment.operations.find? fun o => decide (o.tenantId = tenantId ∧ o.requestId = requestId)

/-- `lockOrder`. -/
def lockOrder (db : Db) (tenantId : TenantId) (orderId : OrderId) : Option Order :=
  db.checkout.orders.find? fun o => decide (o.tenantId = tenantId ∧ o.id = orderId)

/-! ## Statuses and records -/

/-- `statusForBalances`. -/
def statusForBalances (authorized captured refunded : Int) : PaymentStatus :=
  if captured < authorized then
    if refunded = captured ∧ captured > 0 then .refunded
    else if refunded > 0 then .partiallyRefunded
    else .authorized
  else if refunded = 0 then .captured
  else if refunded = captured then .refunded
  else .partiallyRefunded

/-- The statuses whose wire value is derived from the balances. -/
def settledStatus : PaymentStatus → Bool
  | .authorized | .captured | .partiallyRefunded | .refunded => true
  | .pending | .failed | .voided => false

/-- `toPaymentStatus`. -/
def toPaymentStatus (r : PaymentRow) : PaymentStatus :=
  if settledStatus r.row.status then
    if r.hasProviderDecisionProof then
      statusForBalances r.row.amountMinor r.row.capturedAmountMinor r.row.refundedAmountMinor
    else .pending
  else r.row.status

/-- `fromFailureCode`. -/
def fromFailureCode : Option FailureCode → PaymentFailureReason
  | none => .unspecified
  | some .providerOutcomeUnknown => .providerUnavailable
  | some (.reason r) => r

/-- `toFailureReason`. -/
def toFailureReason (r : PaymentRow) : PaymentFailureReason :=
  if r.hasProviderDecisionProof = false ∧ settledStatus r.row.status then .providerUnavailable
  else fromFailureCode r.row.failureCode

/-- `toRecord`. -/
def toRecord (r : PaymentRow) : PaymentRecord where
  paymentId := r.row.id
  merchantReference := r.row.orderId
  currency := r.row.currency
  authorizedAmount := r.row.amountMinor
  status := toPaymentStatus r
  methodType := r.row.methodType
  failureReason := toFailureReason r
  capturedAmount := r.row.capturedAmountMinor
  refundedAmount := r.row.refundedAmountMinor

/-- `isCaptureable`. -/
def isCaptureable (r : PaymentRow) : Bool :=
  if r.row.capturedAmountMinor ≥ r.row.amountMinor then false
  else r.hasProviderDecisionProof &&
    match r.row.status with
    | .authorized | .partiallyRefunded | .refunded => true
    | _ => false

/-- `isRefundable`. -/
def isRefundable (r : PaymentRow) : Bool :=
  r.hasProviderDecisionProof && settledStatus r.row.status

/-! ## The four operations -/

/-- `OperationResult`: the response and the amount the ledger records. -/
abbrev OperationResult := OperationResponse × Int

/-- A response that reports success. -/
def succeededResponse (r : PaymentRow) : OperationResponse :=
  ⟨.succeeded, toRecord r, .unspecified⟩

/-- `pendingResolution` of `authorizeOnce`. -/
def pendingResolution (d : Decision) : Option PendingResolution :=
  if d.kind = .pending then d.pendingResolution
  else if d.kind = .none then some .authorized else none

/-- `operationFailureReason` of `authorizeOnce`. -/
def operationFailureReason (d : Decision) : PaymentFailureReason :=
  if pendingResolution d = some .manualReconciliation then .providerUnavailable
  else d.failureReason

/-- The row `authorizeOnce` inserts, from the provider's decision `d`, the
database status it leads to and the outcome of its provider decision row. -/
def newPayment (db : Db) (tenantId : TenantId) (requestId : PaymentRequestId)
    (orderId : OrderId) (amount : Money) (methodType : PaymentMethodType) (d : Decision)
    (status : PaymentStatus) (outcome : Option DecisionOutcome) : Payment :=
  let id : PaymentId := ⟨tenantId, requestId⟩
  let verifiedAt : Option Nat := outcome.map fun _ => db.now
  let authorizedAt := if status = .authorized then verifiedAt else none
  { id := id
    tenantId := tenantId
    orderId := orderId
    provider := db.payment.provider
    providerReference := ⟨db.payment.provider, id⟩
    status := status
    amountMinor := amount.amountMinor
    currency := amount.currency
    methodType := methodType
    capturedAmountMinor := 0
    refundedAmountMinor := 0
    failureCode :=
      if pendingResolution d = some .manualReconciliation then some .providerOutcomeUnknown
      else if d.failureReason = .unspecified then none
      else some (.reason d.failureReason)
    authorizedAt := authorizedAt
    capturedAt := none
    createdAt := db.now
    pendingResolution := pendingResolution d
    pendingReconciliationAttempts := 0
    pendingReconciliationAt := if d.kind = .pending then verifiedAt else none
    pendingResolutionAt := authorizedAt
    providerDecisionVerifiedAt := authorizedAt }

/-- The decision row that backs a payment just inserted. -/
def decisionFor (p : Payment) (outcome : DecisionOutcome) (now : Nat) : ProviderDecision where
  tenantId := p.tenantId
  paymentId := p.id
  provider := p.provider
  providerReference := p.providerReference
  amountMinor := p.amountMinor
  currency := p.currency
  outcome := outcome
  verifiedAt := now

/-- `if (providerDecisionAvailable) INSERT …`. -/
def recordDecision (db : Db) (p : Payment) : Option DecisionOutcome → Except StoreError Db
  | some outcome => insertDecision db (decisionFor p outcome db.now)
  | none => .ok db

/-- The `databaseStatus` switch of `authorizeOnce`. -/
def databaseStatus (d : Decision) : Except StoreError PaymentStatus :=
  match d.kind with
  | .none => .ok .authorized
  | .pending => .ok .pending
  | .declined | .insufficientFunds | .invalidPaymentMethod => .ok .failed
  | .unavailable | .deadlineExceeded | .internal =>
    .error (.illegalState "transport fault must not reach the store")

/-- `providerDecisionOutcome`: the decision the provider already took. -/
def providerDecisionOutcome (d : Decision) : Option DecisionOutcome :=
  match d.kind, d.pendingResolution with
  | .none, _ => some .authorized
  | .pending, some .authorized => some .authorized
  | .pending, some .failed => some .failed
  | _, _ => none

/-- `authorizeOnce`. -/
def authorizeOnce (tenantId : TenantId) (requestId : PaymentRequestId) (orderId : OrderId)
    (amount : Money) (methodType : PaymentMethodType) (d : Decision) (db : Db) :
    Except StoreError (OperationResult × Db) :=
  match lockOrder db tenantId orderId with
  | none => .error (.rpc (notFound "merchant reference order was not found"))
  | some order =>
    if order.status ≠ .pending ∧ order.status ≠ .confirmed then
      .error (.rpc (failedPrecondition "order is not payable"))
    else if order.totalMinor ≠ amount.amountMinor then
      .error (.rpc (invalidArgument .unspecified
        "amount.amount_minor must match the order total"))
    else if order.currency ≠ amount.currency then
      .error (.rpc (invalidArgument .unspecified
        "amount.currency_code must match the order currency"))
    else if (findByMerchantReference db tenantId orderId).isSome then
      .error (.rpc (alreadyExists "order already has an active payment"))
    else do
      let status ← databaseStatus d
      let outcome := providerDecisionOutcome d
      let p := newPayment db tenantId requestId orderId amount methodType d status outcome
      let db₁ ← writePayments db (db.payment.payments ++ [p])
      let db₂ ← recordDecision db₁ p outcome
      pure ((⟨d.operationStatus, toRecord ⟨p, p.authorizedAt⟩, operationFailureReason d⟩,
        amount.amountMinor), db₂)

/-- `UPDATE payments SET … WHERE tenant_id = … AND id = …`. -/
def updatePayment (db : Db) (tenantId : TenantId) (id : PaymentId) (f : Payment → Payment) :
    Except StoreError Db :=
  writePayments db (updateWhere (isRow tenantId id) f db.payment.payments)

/-- What a capture that brings the total to `captured` does to the row. -/
def applyCapture (now : Nat) (captured : Int) (p : Payment) : Payment :=
  { p with
    status := statusForBalances p.amountMinor captured p.refundedAmountMinor
    capturedAmountMinor := captured
    capturedAt :=
      if captured = p.amountMinor then some (p.capturedAt.getD now) else p.capturedAt }

/-- What a void does to the row. -/
def applyVoid (p : Payment) : Payment := { p with status := .voided }

/-- What a refund that brings the total to `refunded` does to the row. -/
def applyRefund (refunded : Int) (p : Payment) : Payment :=
  { p with
    status := statusForBalances p.amountMinor p.capturedAmountMinor refunded
    refundedAmountMinor := refunded }

/-- `captureOnce`. -/
def captureOnce (tenantId : TenantId) (paymentId : PaymentId) (requested : Option Money)
    (db : Db) : Except StoreError (OperationResult × Db) :=
  match findPayment db tenantId paymentId with
  | none => .error (.rpc (notFound "payment was not found"))
  | some r =>
    if isCaptureable r = false then
      .error (.rpc (failedPrecondition "payment is not authorized"))
    else if requested.any (fun m => m.currency ≠ r.row.currency) then
      .error (.rpc (invalidArgument .unspecified
        "amount.currency_code must match the authorization"))
    else
      let remaining := r.row.amountMinor - r.row.capturedAmountMinor
      let amount := (requested.map (·.amountMinor)).getD remaining
      if amount ≤ 0 ∨ amount > remaining then
        .error (.rpc (invalidArgument .unspecified
          "capture amount exceeds the uncaptured authorization"))
      else do
        let captured := r.row.capturedAmountMinor + amount
        let db' ← updatePayment db tenantId paymentId (applyCapture db.now captured)
        pure ((succeededResponse { r with row := applyCapture db.now captured r.row }, amount),
          db')

/-- `voidOnce`. -/
def voidOnce (tenantId : TenantId) (paymentId : PaymentId) (db : Db) :
    Except StoreError (OperationResult × Db) :=
  match findPayment db tenantId paymentId with
  | none => .error (.rpc (notFound "payment was not found"))
  | some r =>
    if r.row.status ≠ .authorized ∨ r.hasProviderDecisionProof = false ∨
        r.row.capturedAmountMinor ≠ 0 then
      .error (.rpc (failedPrecondition "payment authorization is not voidable"))
    else do
      let db' ← updatePayment db tenantId paymentId applyVoid
      pure ((succeededResponse { r with row := applyVoid r.row }, 0), db')

/-- `refundOnce`. -/
def refundOnce (tenantId : TenantId) (paymentId : PaymentId) (requested : Money) (db : Db) :
    Except StoreError (OperationResult × Db) :=
  match findPayment db tenantId paymentId with
  | none => .error (.rpc (notFound "payment was not found"))
  | some r =>
    let refundable := r.row.capturedAmountMinor - r.row.refundedAmountMinor
    if isRefundable r = false ∨ refundable ≤ 0 then
      .error (.rpc (failedPrecondition "payment has no captured funds"))
    else if requested.currency ≠ r.row.currency then
      .error (.rpc (invalidArgument .unspecified
        "amount.currency_code must match the authorization"))
    else if requested.amountMinor ≤ 0 ∨ requested.amountMinor > refundable then
      .error (.rpc (invalidArgument .unspecified "refund amount exceeds captured funds"))
    else do
      let refunded := r.row.refundedAmountMinor + requested.amountMinor
      let db' ← updatePayment db tenantId paymentId (applyRefund refunded)
      pure ((succeededResponse { r with row := applyRefund refunded r.row },
        requested.amountMinor), db')

/-! ## Reconciliation of pending authorizations -/

/-- `PendingPayment`: the payment and the authorize request that created it. -/
structure PendingPayment where
  row : Payment
  requestId : PaymentRequestId

/-- A provider decision for this payment exists. -/
def hasDecision (db : Db) (p : Payment) : Bool :=
  db.payment.decisions.any fun d => decisionMatches d p

/-- `pending_reconciliation_at <= CURRENT_TIMESTAMP`. -/
def reconciliationDue (db : Db) (p : Payment) : Bool :=
  p.pendingReconciliationAt.any fun at_ => decide (at_ ≤ db.now)

/-- The authorize row of the ledger that a payment joins. -/
def authorizeOperation (db : Db) (p : Payment) : Option StoredOperation :=
  db.payment.operations.find? fun o =>
    decide (o.tenantId = p.tenantId ∧ o.paymentId = some p.id ∧ o.operation = .authorize)

/-- `findPendingPayment`. -/
def findPendingPayment (db : Db) (tenantId : TenantId) (id : PaymentId) :
    Option PendingPayment :=
  match db.payment.payments.find? (isRow tenantId id) with
  | none => none
  | some p =>
    match authorizeOperation db p with
    | none => none
    | some o =>
      if p.status = .pending ∧ (reconciliationDue db p ∨
          p.pendingResolution = some .manualReconciliation ∨ hasDecision db p) then
        some ⟨p, o.requestId⟩
      else none

/-- `lookupProviderDecision`. -/
def lookupProviderDecision (db : Db) (p : Payment) : Option ProviderDecision :=
  db.payment.decisions.find? fun d => decisionMatches d p

/-- `WHERE tenant_id = … AND id = … AND status = 'pending'`. -/
def isPendingRow (tenantId : TenantId) (id : PaymentId) (p : Payment) : Bool :=
  decide (p.tenantId = tenantId ∧ p.id = id ∧ p.status = .pending)

/-- What `quarantinePending` does to the row. -/
def quarantine (p : Payment) : Payment :=
  { p with
    pendingResolution := some .manualReconciliation
    failureCode := some .providerOutcomeUnknown
    pendingReconciliationAt := none
    pendingResolutionAt := none
    providerDecisionVerifiedAt := none }

/-- `quarantinePending`. -/
def quarantinePending (db : Db) (pending : PendingPayment) : Except StoreError Db :=
  writePayments db (updateWhere (isPendingRow pending.row.tenantId pending.row.id) quarantine
    db.payment.payments)

/-- The checkout jobs `requeueCheckoutReconciliation` selects. -/
def awaitsAuthorize (tenantId : TenantId) (requestId : RequestId)
    (authorizeRequestId : PaymentRequestId) (r : Reconciliation) : Bool :=
  decide (r.tenantId = tenantId ∧ r.requestId = requestId ∧
    r.authorizeRequestId = authorizeRequestId ∧
    (r.status = .awaitingProvider ∨ r.status = .queued))

/-- The row a requeued checkout job becomes. -/
def requeued (now : Nat) (paymentId : PaymentId) (r : Reconciliation) : Reconciliation :=
  { r with
    paymentId := some (r.paymentId.getD paymentId)
    status := .queued
    attempts := 0
    availableAt := now
    leaseToken := none }

/-- `requeueCheckoutReconciliation`. -/
def requeueCheckoutReconciliation (db : Db) (pending : PendingPayment) :
    Except StoreError Db :=
  match checkoutRequestId pending.requestId with
  | none => .ok db
  | some rid =>
    let selects := awaitsAuthorize pending.row.tenantId rid pending.requestId
    let matching := fun r : Reconciliation =>
      selects r && decide (r.paymentId = none ∨ r.paymentId = some pending.row.id)
    if affected matching db.checkout.reconciliations = 0 ∧
        db.checkout.reconciliations.any selects then
      .error (.illegalState "checkout payment reconciliation references a different payment")
    else
      .ok (setReconciliations db (updateWhere matching (requeued db.now pending.row.id)
        db.checkout.reconciliations))

/-- What a provider decision does to a pending payment. -/
def resolvePayment (now : Nat) (d : ProviderDecision) (p : Payment) : Payment :=
  { p with
    status := match d.outcome with | .authorized => .authorized | .failed => .failed
    failureCode := match d.outcome with
      | .authorized => none
      | .failed => some (.reason .providerUnavailable)
    authorizedAt := match d.outcome with
      | .authorized => some (p.authorizedAt.getD d.verifiedAt)
      | .failed => p.authorizedAt
    providerDecisionVerifiedAt := some d.verifiedAt
    pendingResolution := some (match d.outcome with
      | .authorized => .authorized
      | .failed => .failed)
    pendingReconciliationAttempts := p.pendingReconciliationAttempts + 1
    pendingReconciliationAt := none
    pendingResolutionAt := some now }

/-- The authorize response that replaces the pending one. -/
def resolvedResponse (d : ProviderDecision) (p : Payment) : OperationResponse :=
  let resolved : PaymentRow := ⟨{ p with
    status := match d.outcome with | .authorized => .authorized | .failed => .failed
    failureCode := match d.outcome with
      | .authorized => none
      | .failed => some (.reason .providerUnavailable) }, some d.verifiedAt⟩
  match d.outcome with
  | .authorized => ⟨.succeeded, toRecord resolved, .unspecified⟩
  | .failed => ⟨.failed, toRecord resolved, .providerUnavailable⟩

/-- The ledger row whose stored response `reconcilePending` rewrites. -/
def storesAuthorizeResponse (tenantId : TenantId) (requestId : PaymentRequestId)
    (o : StoredOperation) : Bool :=
  decide (o.tenantId = tenantId ∧ o.requestId = requestId ∧ o.operation = .authorize) &&
    o.result.isOk

/-- The ledger row with its resolved response. -/
def resolveOperation (d : ProviderDecision) (p : Payment) (amountMinor : Int)
    (o : StoredOperation) : StoredOperation :=
  { o with
    result := .ok (resolvedResponse d p)
    operationAmountMinor := some amountMinor }

/-- `reconcilePending`, returning the number of payments it resolved. -/
def reconcilePending (pending : PendingPayment) (r : PaymentRow) (db : Db) :
    Except StoreError (Nat × Db) :=
  if r.row.status ≠ .pending then .ok (0, db)
  else match lookupProviderDecision db pending.row with
    | none => do
      let db' ← quarantinePending db pending
      pure (0, db')
    | some d => do
      let stillPending := isPendingRow pending.row.tenantId pending.row.id
      let db₁ ← writePayments db
        (updateWhere stillPending (resolvePayment db.now d) db.payment.payments)
      if affected stillPending db.payment.payments = 0 then pure (0, db₁)
      else
        let selects := storesAuthorizeResponse pending.row.tenantId pending.requestId
        if affected selects db₁.payment.operations ≠ 1 then
          .error (.illegalState "pending payment has no stored authorize response")
        else do
          let db₂ := setOperations db₁
            (updateWhere selects (resolveOperation d r.row pending.row.amountMinor)
              db₁.payment.operations)
          let db₃ ← requeueCheckoutReconciliation db₂ pending
          pure (1, db₃)

/-- `reconcilePendingPayment`. -/
def reconcilePendingPayment (tenantId : TenantId) (id : PaymentId) (db : Db) :
    Except StoreError (Nat × Db) :=
  match findPendingPayment db tenantId id with
  | none => .ok (0, db)
  | some pending =>
    match findPayment db tenantId id with
    | none => .ok (0, db)
    | some r => reconcilePending pending r db

/-- The WHERE predicate of `reconcilePendingPayments` for one payment, joined
with its authorize operation. -/
def reconciliationCandidate (db : Db) (key : TenantId × PaymentId) : Option PendingPayment :=
  match db.payment.payments.find? (isRow key.1 key.2) with
  | none => none
  | some p =>
    match authorizeOperation db p with
    | none => none
    | some o =>
      if p.status = .pending ∧ (reconciliationDue db p ∨ hasDecision db p) then
        some ⟨p, o.requestId⟩
      else none

/-- The loop of `reconcilePendingPayments`. -/
def reconcileAll : List PendingPayment → Db → Except StoreError (Nat × Db)
  | [], db => .ok (0, db)
  | c :: cs, db =>
    match findPayment db c.row.tenantId c.row.id with
    | some r =>
      if r.row.status = .pending then do
        let (n, db₁) ← reconcilePending c r db
        let (m, db₂) ← reconcileAll cs db₁
        pure (n + m, db₂)
      else reconcileAll cs db
    | none => reconcileAll cs db

/-- `reconcilePendingPayments`. The batch is drawn from `keys`: SKIP LOCKED
lets other transactions hide any of the candidates, and the order is theirs. -/
def reconcilePendingPayments (maxBatch : Nat) (keys : List (TenantId × PaymentId)) (db : Db) :
    Except StoreError (Nat × Db) :=
  if maxBatch = 0 then
    .error (.illegalState "payment reconciliation batch size must be positive")
  else reconcileAll ((keys.filterMap (reconciliationCandidate db)).take (min maxBatch 100)) db

/-! ## The idempotency ledger -/

/-- A request as the store sees it after validation. -/
structure Request where
  tenantId : TenantId
  requestId : PaymentRequestId
  message : PaymentMessage

/-- The ledger's name of a message. -/
def operationOf : PaymentMessage → PaymentOperation
  | .authorize .. => .authorize
  | .capture .. => .capture
  | .void .. => .void
  | .refund .. => .refund

/-- The payment id the ledger records for a message: none for an authorize. -/
def requestPaymentId : PaymentMessage → Option PaymentId
  | .authorize .. => none
  | .capture p _ => some p
  | .void p _ => some p
  | .refund p _ _ => some p

/-- The action that `authorize`, `capture`, `voidPayment` and `refund` pass to
`executeIdempotently`. -/
def action (q : Request) : Db → Except StoreError (OperationResult × Db) :=
  match q.message with
  | .authorize orderId amount methodType token =>
    authorizeOnce q.tenantId q.requestId orderId amount methodType (forMethod token)
  | .capture p amount => captureOnce q.tenantId p amount
  | .void p _ => voidOnce q.tenantId p
  | .refund p amount _ => refundOnce q.tenantId p amount

/-- `StoredOperation.isPendingAuthorize`. -/
def isPendingAuthorize (o : StoredOperation) : Bool :=
  decide (o.operation = .authorize) &&
    match o.result with
    | .ok r => decide (r.operationStatus = .pending)
    | .error _ => false

/-- `reconcileStoredPending`. -/
def reconcileStoredPending (tenantId : TenantId) (o : StoredOperation) (db : Db) :
    Except StoreError Db :=
  match o.paymentId with
  | none => .ok db
  | some id => (reconcilePendingPayment tenantId id db).map (·.2)

/-- `TxOutcome`: the response, or the exception to throw after the commit. -/
abbrev TxOutcome := Except PaymentRpcException OperationResponse

/-- The row `insertStoredSuccess` writes. -/
def storedSuccess (q : Request) (result : OperationResult) : StoredOperation where
  tenantId := q.tenantId
  requestId := q.requestId
  operation := operationOf q.message
  requestFingerprint := q.message
  paymentId := some ((requestPaymentId q.message).getD result.1.payment.paymentId)
  result := .ok result.1
  operationAmountMinor := some result.2

/-- The row `insertStoredFailure` writes. -/
def storedFailure (q : Request) (e : PaymentRpcException) : StoredOperation where
  tenantId := q.tenantId
  requestId := q.requestId
  operation := operationOf q.message
  requestFingerprint := q.message
  paymentId := requestPaymentId q.message
  result := .error e
  operationAmountMinor := none

/-- `executeIdempotently`: replay the recorded outcome, or run the action and
record what it did in the same transaction. -/
def executeIdempotently (q : Request) (db : Db) : Except StoreError (TxOutcome × Db) :=
  match findStoredOperation db q.tenantId q.requestId with
  | some stored =>
    if stored.operation ≠ operationOf q.message ∨ stored.requestFingerprint ≠ q.message then
      .error (.rpc (alreadyExists
        "request_id was already used for a different payment operation"))
    else if isPendingAuthorize stored then do
      let db' ← reconcileStoredPending q.tenantId stored db
      match findStoredOperation db' q.tenantId q.requestId with
      | none => .error (.illegalState "stored payment operation disappeared")
      | some stored' => pure (stored'.result, db')
    else .ok (stored.result, db)
  | none =>
    match action q db with
    | .ok (result, db') => do
      let db'' ← insertOperation db' (storedSuccess q result)
      pure (.ok result.1, db'')
    | .error (.rpc e) => do
      let db' ← insertOperation db (storedFailure q e)
      pure (.error e, db')
    | .error e => .error e

/-- `getPayment`: reconcile in one transaction, then read. -/
def getPayment (tenantId : TenantId) (id : PaymentId) (db : Db) :
    Except StoreError (Except PaymentRpcException PaymentRecord × Db) := do
  let (_, db') ← reconcilePendingPayment tenantId id db
  match findPayment db' tenantId id with
  | none => pure (.error (notFound "payment was not found"), db')
  | some r => pure (.ok (toRecord r), db')

end CommercePlayground.PaymentStore
