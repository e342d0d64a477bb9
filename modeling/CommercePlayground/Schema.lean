/-
CommercePlayground.Schema — the shared PostgreSQL schema of the checkout,
payment and inventory services, as the migrations define it.

Each row type keeps the columns that some modelled statement reads or
writes; columns nobody reads back (telemetry carriers, display names,
observation columns) are left out. Identifiers are opaque keys: UUIDs come
from one fresh counter, and the identifiers the services derive from other
identifiers (`{request_id}:authorize`, the SHA-256 payment id, the
reservation id of an order line) are built by constructors, so that equal
strings are equal values and different inputs never collide.

Times are microseconds since the epoch of one clock: the services and the
database read the same host clock. Times, lease tokens, claim tokens and
task ids (`Uuid::new_v4`) are plain naturals.
-/
import CommercePlayground.Lib.Table

namespace CommercePlayground

/-! ## Identifiers -/

/-- One second. -/
def second : Nat := 1000000

/-- One minute. -/
def minute : Nat := 60 * second

abbrev TenantId := Nat
abbrev CustomerId := Nat
abbrev SessionId := Nat
abbrev CartId := Nat
abbrev OrderId := Nat
abbrev Sku := Nat
abbrev VariantId := Nat
abbrev LocationId := Nat
abbrev Currency := Nat
/-- A promotion code; `0` is the empty string. -/
abbrev PromotionCode := Nat
abbrev Provider := Nat

/-- A checkout request id: an opaque string together with its length, which
the downstream validators bound. -/
structure RequestId where
  key : Nat
  length : Nat
  deriving DecidableEq

/-- The request ids the payment service sees. Checkout derives its own from
the checkout request id; `raw` is any other string. -/
inductive PaymentRequestId where
  | authorize (requestId : RequestId)
  | capture (requestId : RequestId)
  | void (requestId : RequestId)
  | refund (requestId : RequestId) (amountMinor : Int)
  | raw (id : RequestId)
  deriving DecidableEq

/-- Decimal digits of a positive amount, as `format!` prints it. -/
def decimalLength (n : Int) : Nat := (Nat.toDigits 10 n.toNat).length

/-- `request_id.length()`: checkout appends `:authorize`, `:capture`, `:void`
or `:refund:{amount}`. -/
def PaymentRequestId.length : PaymentRequestId → Nat
  | .authorize r => r.length + 10
  | .capture r => r.length + 8
  | .void r => r.length + 5
  | .refund r a => r.length + 8 + decimalLength a
  | .raw r => r.length

/-- `PaymentIdentity.checkoutRequestId`: the checkout request an authorize
request belongs to, when it ends in `:authorize` after a non-blank rest. -/
def checkoutRequestId : PaymentRequestId → Option RequestId
  | .authorize r => if r.length = 0 then none else some r
  | _ => none

/-- `PaymentIdentity.stablePaymentId`: `pay_` and the SHA-256 of the length
prefixed tenant and authorize request id. -/
structure PaymentId where
  tenantId : TenantId
  authorizeRequestId : PaymentRequestId
  deriving DecidableEq

/-- `PaymentIdentity.stableProviderReference`. -/
structure ProviderReference where
  provider : Provider
  paymentId : PaymentId
  deriving DecidableEq

/-- Checkout names the reservation of an order line
`reservation-{order_id}-{variant_id}`; `raw` is any other string. -/
inductive ReservationId where
  | line (orderId : OrderId) (variantId : VariantId)
  | raw (id : Nat)
  deriving DecidableEq

/-! ## Payment tables -/

/-- `payments.status`. -/
inductive PaymentStatus where
  | pending | authorized | captured | partiallyRefunded | failed | refunded | voided
  deriving DecidableEq

inductive PaymentMethodType where
  | unspecified | card | bankAccount | wallet
  deriving DecidableEq

/-- `PaymentFaultPolicy.PendingResolution`, the values of
`payments.pending_resolution`. -/
inductive PendingResolution where
  | authorized | failed | manualReconciliation
  deriving DecidableEq

inductive PaymentFailureReason where
  | unspecified | declined | insufficientFunds | invalidPaymentMethod
  | providerUnavailable | alreadyProcessed | invalidState
  deriving DecidableEq

/-- `payments.failure_code`: `provider_outcome_unknown` or the lower-case name
of a failure reason. -/
inductive FailureCode where
  | providerOutcomeUnknown
  | reason (r : PaymentFailureReason)
  deriving DecidableEq

/-- A row of `payments`. -/
structure Payment where
  id : PaymentId
  tenantId : TenantId
  orderId : OrderId
  provider : Provider
  providerReference : ProviderReference
  status : PaymentStatus
  amountMinor : Int
  currency : Currency
  methodType : PaymentMethodType
  capturedAmountMinor : Int
  refundedAmountMinor : Int
  failureCode : Option FailureCode
  authorizedAt : Option Nat
  capturedAt : Option Nat
  createdAt : Nat
  pendingResolution : Option PendingResolution
  pendingReconciliationAttempts : Nat
  pendingReconciliationAt : Option Nat
  pendingResolutionAt : Option Nat
  providerDecisionVerifiedAt : Option Nat

/-- `payment_provider_authorization_decisions.outcome`. -/
inductive DecisionOutcome where
  | authorized | failed
  deriving DecidableEq

/-- A row of `payment_provider_authorization_decisions`. -/
structure ProviderDecision where
  tenantId : TenantId
  paymentId : PaymentId
  provider : Provider
  providerReference : ProviderReference
  amountMinor : Int
  currency : Currency
  outcome : DecisionOutcome
  verifiedAt : Nat

/-- `payment_operation_requests.operation`. -/
inductive PaymentOperation where
  | authorize | capture | void | refund
  deriving DecidableEq

inductive PaymentOperationStatus where
  | succeeded | declined | pending | failed
  deriving DecidableEq

/-- gRPC status codes. -/
inductive GrpcCode where
  | ok | cancelled | unknown | invalidArgument | deadlineExceeded | notFound
  | alreadyExists | permissionDenied | resourceExhausted | failedPrecondition
  | aborted | outOfRange | unimplemented | internal | unavailable | dataLoss
  | unauthenticated
  deriving DecidableEq

/-- The `PaymentRecord` message (the part of it a caller reads). -/
structure PaymentRecord where
  paymentId : PaymentId
  merchantReference : OrderId
  currency : Currency
  authorizedAmount : Int
  status : PaymentStatus
  methodType : PaymentMethodType
  failureReason : PaymentFailureReason
  capturedAmount : Int
  refundedAmount : Int

/-- The four operation responses have one shape. -/
structure OperationResponse where
  operationStatus : PaymentOperationStatus
  payment : PaymentRecord
  failureReason : PaymentFailureReason

/-- `PaymentRpcException`. -/
structure PaymentRpcException where
  statusCode : GrpcCode
  failureReason : PaymentFailureReason
  message : String
  deriving DecidableEq

structure Money where
  currency : Currency
  amountMinor : Int
  deriving DecidableEq

/-- The payment method tokens, by the arm of `PaymentFaultPolicy.forMethod`
that a token selects. -/
inductive PaymentToken where
  | declined | insufficientFunds | invalidPaymentMethod
  | pending | pendingFail | pendingUnknown
  | unavailable | timeout | internal
  | other (token : Nat)
  deriving DecidableEq

inductive VoidReason where
  | unspecified | customerCancelled | orderCancelled | expired
  deriving DecidableEq

inductive RefundReason where
  | unspecified | customerReturn | orderCancelled | duplicateCharge | other
  deriving DecidableEq

/-- The request messages. Their SHA-256 over the serialised bytes is the
request fingerprint, so the message itself stands for it. -/
inductive PaymentMessage where
  | authorize (merchantReference : OrderId) (amount : Money)
      (methodType : PaymentMethodType) (token : PaymentToken)
  | capture (paymentId : PaymentId) (amount : Option Money)
  | void (paymentId : PaymentId) (reason : VoidReason)
  | refund (paymentId : PaymentId) (amount : Money) (reason : RefundReason)
  deriving DecidableEq

/-- A row of `payment_operation_requests`. Its CHECK makes the response
payload and the gRPC status exclusive: `result` is one or the other. -/
structure StoredOperation where
  tenantId : TenantId
  requestId : PaymentRequestId
  operation : PaymentOperation
  requestFingerprint : PaymentMessage
  paymentId : Option PaymentId
  result : Except PaymentRpcException OperationResponse
  operationAmountMinor : Option Int

/-! ## Checkout tables -/

/-- `orders.status`. -/
inductive OrderStatus where
  | pending | confirmed | paid | processing | shipped | delivered | cancelled | refunded
  deriving DecidableEq

/-- A row of `order_items`. -/
structure OrderLine where
  variantId : VariantId
  sku : Sku
  quantity : Nat
  unitPriceMinor : Int
  deriving DecidableEq

/-- A row of `orders` together with its `order_items`, which are inserted in
the same transaction and never written again. -/
structure Order where
  id : OrderId
  tenantId : TenantId
  checkoutRequestId : RequestId
  customerId : CustomerId
  cartId : CartId
  status : OrderStatus
  currency : Currency
  subtotalMinor : Int
  discountMinor : Int
  taxMinor : Int
  totalMinor : Int
  promotionCode : Option PromotionCode
  lines : List OrderLine

/-- `checkout_payment_reconciliations.status`. -/
inductive ReconciliationStatus where
  | queued | processing | awaitingProvider | completed | failed
  deriving DecidableEq

/-- A row of `checkout_payment_reconciliations`. `checkoutLeaseToken` is the
parent generation, `leaseToken` the worker's own claim. -/
structure Reconciliation where
  tenantId : TenantId
  requestId : RequestId
  orderId : OrderId
  authorizeRequestId : PaymentRequestId
  paymentId : Option PaymentId
  merchantReference : OrderId
  amountMinor : Int
  currency : Currency
  methodType : PaymentMethodType
  status : ReconciliationStatus
  checkoutLeaseToken : Nat
  attempts : Nat
  availableAt : Nat
  leaseToken : Option Nat
  leaseExpiresAt : Option Nat

/-- The claim and lease CHECKs of `checkout_payment_reconciliations`: a row has
a worker's token and its expiry exactly while it is processed. -/
def Reconciliation.leaseChecks (r : Reconciliation) : Bool :=
  (r.leaseToken.isSome == decide (r.status = .processing)) &&
    (r.leaseExpiresAt.isSome == decide (r.status = .processing))

/-- `http::StatusCode`: the three-digit codes. -/
structure StatusCode where
  code : Nat
  isValid : 100 ≤ code ∧ code ≤ 999
  deriving DecidableEq

/-- `StatusCode::from_u16`. -/
def StatusCode.fromU16 (n : Nat) : Option StatusCode :=
  if h : 100 ≤ n ∧ n ≤ 999 then some ⟨n, h⟩ else none

/-- `StatusCode::INTERNAL_SERVER_ERROR`. -/
def StatusCode.internalServerError : StatusCode := ⟨500, by decide⟩

/-- The constants of `StatusCode`, by their number. -/
instance (n : Nat) : OfNat StatusCode n where
  ofNat := (StatusCode.fromU16 n).getD .internalServerError

/-- `status.as_u16() as i16`, the value of a `SMALLINT` column: three digits
fit. -/
def StatusCode.toI16 (s : StatusCode) : Int := s.code

/-- `u16::try_from(value)` and `StatusCode::from_u16` of a stored status. -/
def StatusCode.fromI16 (value : Int) : Option StatusCode :=
  if 0 ≤ value then StatusCode.fromU16 value.toNat else none

@[simp] theorem StatusCode.fromI16_toI16 (s : StatusCode) :
    StatusCode.fromI16 s.toI16 = some s := by
  obtain ⟨n, h⟩ := s
  simp [fromI16, toI16, fromU16, h]

/-- The `code` of an `ApiError`; `other` is any code not listed here. -/
inductive ErrorCode where
  | checkoutLeaseLost | checkoutInProgress | checkoutRequestConflict
  | checkoutIdempotencyCorrupt | checkoutReconciliationRequired
  | checkoutPostConsumeReconciliation | checkoutRequestFailed
  | cartPersistenceFailed | cartScopeConflict | invalidCart | invalidCartItem
  | invalidCurrency | invalidIdentity | invalidSession
  | invalidRequestId | invalidItems | invalidQuantity | duplicateSku
  | productNotFound | catalogProtocolError | catalogQueryFailed | catalogUnavailable
  | pricingFailed | pricingProtocolError | pricingInvalidRequest | pricingTimeout
  | pricingUnavailable | recommendationProtocolError | recommendationUnavailable
  | amountOutOfRange | quantityOutOfRange | databaseUnavailable | databaseTimeout
  | eventEncodeFailed | eventProtocolError | messagingRejected | messagingUnavailable
  | paymentReconciliationMissing | paymentReconciliationConflict
  | paymentReconciliationAttemptConflict | paymentReconciliationFailed
  | paymentReconciliationPending
  | paymentInsufficientFunds | paymentInvalidMethod | paymentProviderUnavailable
  | paymentAlreadyProcessed | paymentInvalidState | paymentDeclined | paymentPending
  | paymentFailed | paymentProtocolError | paymentTimeout | paymentInternal
  | paymentNotFound | paymentInvalidRequest
  | inventoryUnavailable | inventoryReservationFailed | inventoryProtocolError
  | inventoryCommitUnavailable | inventoryCommitFailed | inventoryCommitProtocolError
  | inventoryReleaseUnavailable | inventoryReleaseFailed
  | compensationPersistenceFailed | orderNotFound | orderStateConflict
  | finalizationStateConflict | finalizationReconciliationPending
  | finalizationCommitAmbiguous | promotionRedemptionUnavailable
  | other (code : Nat)
  deriving DecidableEq

/-- `ApiError`: the HTTP status, the code and the message. -/
structure ApiError where
  status : StatusCode
  code : ErrorCode
  message : String

abbrev ApiResult (α : Type) := Except ApiError α

structure CheckoutItemInput where
  sku : Sku
  quantity : Nat
  deriving DecidableEq

/-- `CheckoutInput` after identity resolution. `profile` stands for the
scalar fields that only enter the fingerprint and the pricing request
(segment, tier, region, priority and the scenario controls). -/
structure CheckoutInput where
  tenantId : TenantId
  customerId : CustomerId
  sessionId : SessionId
  cartId : Option CartId
  items : List CheckoutItemInput
  currencyCode : Currency
  promotionCode : Option PromotionCode
  paymentMethodToken : PaymentToken
  paymentMethodType : PaymentMethodType
  requestId : RequestId
  degrade : Bool
  profile : Nat
  deriving DecidableEq

/-- `checkout_attempts.status`. -/
inductive AttemptStatus where
  | started | pending | paid | degraded | failed
  deriving DecidableEq

/-- The fields of a checkout response that are read back. -/
structure CheckoutPayload where
  status : AttemptStatus
  orderId : OrderId
  paymentId : Option PaymentId
  deriving DecidableEq

/-- A row of `checkout_attempts`. The SHA-256 of the canonical input is the
fingerprint, so the input itself stands for it. -/
structure CheckoutAttempt where
  tenantId : TenantId
  requestId : RequestId
  requestFingerprint : CheckoutInput
  status : AttemptStatus
  orderId : Option OrderId
  responsePayload : Option CheckoutPayload
  errorStatus : Option Int
  errorCode : Option ErrorCode
  errorMessage : Option String
  leaseToken : Nat
  leaseExpiresAt : Option Nat
  updatedAt : Nat

/-- The two CHECKs of `checkout_attempts` that tie the response and the error
to the status. -/
def CheckoutAttempt.outcomeChecks (a : CheckoutAttempt) : Bool :=
  (match a.status with
  | .started | .failed => a.responsePayload.isNone
  | .pending | .paid | .degraded => a.responsePayload.isSome) &&
    (match a.status with
    | .failed => a.errorStatus.isSome && a.errorCode.isSome
    | _ => a.errorStatus.isNone && a.errorCode.isNone && a.errorMessage.isNone)

/-- `checkout_attempts_lease_expiry_check`. -/
def CheckoutAttempt.leaseCheck (a : CheckoutAttempt) : Bool :=
  decide (a.status ≠ .started) || a.leaseExpiresAt.isSome

inductive CartStatus where
  | active | abandoned | checkedOut
  deriving DecidableEq

/-- A row of `carts`. -/
structure Cart where
  id : CartId
  tenantId : TenantId
  customerId : Option CustomerId
  sessionId : Option SessionId
  status : CartStatus
  currency : Currency

/-- A row of `promotions`. -/
structure Promotion where
  tenantId : TenantId
  code : PromotionCode
  startsAt : Nat
  endsAt : Option Nat
  maxRedemptions : Option Nat
  redemptionCount : Nat
  active : Bool

/-- `checkout_compensation_tasks.status`. -/
inductive TaskStatus where
  | prepared | queued | processing | completed | failed | superseded
  deriving DecidableEq

/-- `checkout_compensation_tasks.kind` with the columns its CHECK ties to it. -/
inductive TaskKind where
  | inventoryRelease (reservationId : ReservationId) (sku : Sku) (quantity : Nat)
  | payment (paymentId : PaymentId) (requestId : RequestId) (currency : Currency)
  deriving DecidableEq

/-- `payment-compensation:{payment_id}` or `inventory-release:{reservation_id}`. -/
inductive TaskBaseKey where
  | payment (paymentId : PaymentId)
  | inventory (reservationId : ReservationId)
  deriving DecidableEq

/-- `generation_compensation_task_key`: the base key and the generation. -/
structure TaskKey where
  base : TaskBaseKey
  token : Nat
  deriving DecidableEq

/-- A row of `checkout_compensation_tasks`. `checkoutLeaseToken` is the parent
generation, `claimToken` the worker's own claim. -/
structure CompensationTask where
  id : Nat
  tenantId : TenantId
  orderId : OrderId
  taskKey : TaskKey
  kind : TaskKind
  status : TaskStatus
  attempts : Nat
  availableAt : Nat
  claimToken : Option Nat
  claimExpiresAt : Option Nat
  checkoutRequestId : RequestId
  checkoutLeaseToken : Nat
  remoteOperationStartedAt : Option Nat
  remoteOperationCompletedAt : Option Nat
  updatedAt : Nat

/-- `checkout_compensation_tasks_claim_check`. -/
def CompensationTask.claimCheck (t : CompensationTask) : Bool :=
  (t.claimToken.isSome == decide (t.status = .processing)) &&
    (t.claimExpiresAt.isSome == decide (t.status = .processing))

/-- The `order.paid` row of `outbox_events` (event key `{order_id}:paid`). -/
structure OutboxEvent where
  tenantId : TenantId
  orderId : OrderId
  paymentId : PaymentId
  totalMinor : Int
  deriving DecidableEq

/-- The row of `feature_exposures` of a paid order (exposure key
`{order_id}:paid:checkoutFlow`). -/
structure FeatureExposure where
  tenantId : TenantId
  orderId : OrderId
  customerId : CustomerId
  sessionId : SessionId
  deriving DecidableEq

/-- The `order.paid` row of `analytics_events` (event key `{order_id}:paid`). -/
structure AnalyticsEvent where
  tenantId : TenantId
  orderId : OrderId
  customerId : CustomerId
  sessionId : SessionId
  paymentId : PaymentId
  totalMinor : Int
  deriving DecidableEq

/-! ## Inventory tables -/

/-- A row of `product_variants` joined with its product's status. -/
structure Variant where
  id : VariantId
  tenantId : TenantId
  sku : Sku
  active : Bool
  productActive : Bool

/-- A row of `inventory_locations`. -/
structure Location where
  id : LocationId
  tenantId : TenantId
  code : Nat
  isActive : Bool

/-- A row of `inventory`; `available_quantity` is generated. -/
structure Stock where
  id : Nat
  tenantId : TenantId
  variantId : VariantId
  locationId : LocationId
  onHandQuantity : Int
  reservedQuantity : Int

/-- `available_quantity GENERATED ALWAYS AS (on_hand_quantity - reserved_quantity)`. -/
def Stock.availableQuantity (s : Stock) : Int := s.onHandQuantity - s.reservedQuantity

/-- `inventory_reservations.status`. -/
inductive ReservationStatus where
  | reserved | released | consumed
  deriving DecidableEq

/-- A row of `inventory_reservations`. -/
structure Reservation where
  reservationId : ReservationId
  tenantId : TenantId
  sku : Sku
  variantId : VariantId
  locationId : LocationId
  quantity : Int
  status : ReservationStatus
  releasedAt : Option Nat
  consumedAt : Option Nat
  expiresAt : Nat
  ownerRequestId : Option RequestId
  ownerLeaseToken : Option Nat
  deriving DecidableEq

/-! ## The database -/

/-- The payment service's tables and its configured provider. -/
structure PaymentTables where
  provider : Provider
  payments : List Payment
  operations : List StoredOperation
  decisions : List ProviderDecision

/-- The checkout service's tables. -/
structure CheckoutTables where
  attempts : List CheckoutAttempt
  orders : List Order
  carts : List Cart
  promotions : List Promotion
  tasks : List CompensationTask
  reconciliations : List Reconciliation
  outbox : List OutboxEvent
  exposures : List FeatureExposure
  analytics : List AnalyticsEvent

/-- The inventory service's tables and the catalogue rows it joins. -/
structure InventoryTables where
  variants : List Variant
  locations : List Location
  stock : List Stock
  reservations : List Reservation

/-- The shared database, its clock and the source of fresh UUIDs. -/
structure Db where
  now : Nat
  nextUuid : Nat
  checkout : CheckoutTables
  payment : PaymentTables
  inventory : InventoryTables

end CommercePlayground
