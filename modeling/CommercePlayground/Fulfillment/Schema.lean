/-
CommercePlayground.Fulfillment.Schema — the events and tables of the
fulfillment service.

The service reads orders, payments and locations of the shared database and
writes shipments, its claims (`fulfillment_processed_events`) and its outgoing
effects (`fulfillment_effects`). A row keeps the columns that some modelled
statement reads; timestamps and messages that are only written
(`claimed_at`, `published_at`, `last_error` and the like), shipment items and
the payload fields an event only forwards are left out. The keys the service
builds from other identifiers are constructors.
-/
import CommercePlayground.Schema

namespace CommercePlayground.Fulfillment

/-! ## Events -/

/-- `event_type`. -/
inductive EventType where
  | orderCreated | orderConfirmed | orderPaid | orderCancelled
  | paymentAuthorized | paymentCaptured | paymentPaid | paymentFailed
  /-- `fulfillment.shipment.created`. -/
  | shipmentCreated
  /-- `fulfillment.order.cancelled`. -/
  | fulfillmentCancelled
  | other (name : Nat)
  deriving DecidableEq

/-- `payment_status` of an event, a text of its own. -/
inductive EventPaymentStatus where
  | blank
  | paid
  | status (s : PaymentStatus)
  | other (text : Nat)
  deriving DecidableEq

/-- `fulfillment_effects.operation`. -/
inductive Operation where
  | fulfillment | cancellation
  deriving DecidableEq

/-- `shipments.status`. -/
inductive ShipmentStatus where
  | pending | labelCreated | inTransit | delivered | cancelled | returned
  deriving DecidableEq

/-- Event, claim and effect keys. `raw` is the key an event arrives with. -/
inductive EventKey where
  | raw (key : Nat)
  /-- `fulfillment:{tenant}:{order}` and `cancellation:{tenant}:{order}`. -/
  | processing (operation : Operation) (tenantId : TenantId) (orderId : OrderId)
  /-- `fulfillment:…:shipment` and `cancellation:…:event`. -/
  | downstream (operation : Operation) (tenantId : TenantId) (orderId : OrderId)
  /-- `…:notification:{status}`. -/
  | notification (operation : Operation) (tenantId : TenantId) (orderId : OrderId)
      (status : ShipmentStatus)
  deriving DecidableEq

/-- A parsed `CommerceEvent`. The order id `0`, the payment id `0` and the
currency `0` are blank texts. -/
structure CommerceEvent where
  eventKey : EventKey
  tenantId : TenantId
  eventType : EventType
  orderId : OrderId
  currency : Option Currency
  totalMinor : Int
  paymentStatus : EventPaymentStatus
  paymentId : Option Nat
  deriving DecidableEq

/-- `PAYMENT_EVENT_TYPES`. -/
def CommerceEvent.isPaymentEvent (e : CommerceEvent) : Bool :=
  match e.eventType with
  | .paymentAuthorized | .paymentCaptured | .paymentPaid | .paymentFailed => true
  | _ => false

/-- `isCancellation`. -/
def CommerceEvent.isCancellation (e : CommerceEvent) : Bool :=
  decide (e.orderId ≠ 0) &&
  match e.eventType with
  | .orderCancelled | .paymentFailed => true
  | _ => false

/-- `isFulfillmentTrigger`. -/
def CommerceEvent.isFulfillmentTrigger (e : CommerceEvent) : Bool :=
  decide (e.orderId ≠ 0) &&
  match e.eventType with
  | .orderCreated | .orderConfirmed | .orderPaid | .paymentAuthorized | .paymentCaptured
  | .paymentPaid => true
  | _ => false

/-- The operation an event asks for. -/
def CommerceEvent.operation (e : CommerceEvent) : Operation :=
  if e.isCancellation then .cancellation else .fulfillment

/-- `processingKey`. -/
def CommerceEvent.processingKey (e : CommerceEvent) : EventKey :=
  .processing e.operation e.tenantId e.orderId

/-- `notificationEffectKey`. -/
def CommerceEvent.notificationEffectKey (e : CommerceEvent) (status : ShipmentStatus) :
    EventKey :=
  .notification e.operation e.tenantId e.orderId status

/-- `shipmentCreated`. -/
def CommerceEvent.shipmentCreated (e : CommerceEvent) : CommerceEvent :=
  { e with
    eventKey := .downstream .fulfillment e.tenantId e.orderId
    eventType := .shipmentCreated
    paymentId := none }

/-- `orderCancelled`. -/
def CommerceEvent.orderCancelled (e : CommerceEvent) : CommerceEvent :=
  { e with
    eventKey := .downstream .cancellation e.tenantId e.orderId
    eventType := .fulfillmentCancelled
    paymentId := none }

/-! ## Rows -/

/-- A row of `orders`. -/
structure OrderRow where
  id : OrderId
  tenantId : TenantId
  status : OrderStatus
  currency : Currency
  totalMinor : Int
  updatedAt : Nat
  deriving DecidableEq

/-- `PaymentSnapshot`, a row of `payments`. -/
structure PaymentSnapshot where
  id : Nat
  tenantId : TenantId
  orderId : OrderId
  status : PaymentStatus
  amountMinor : Int
  currency : Currency
  createdAt : Nat
  deriving DecidableEq

/-- `shipments.id`: `shipment-{order}-1`, or another. -/
inductive ShipmentId where
  | proposed (orderId : OrderId)
  | other (id : Nat)
  deriving DecidableEq

/-- A row of `shipments`. -/
structure Shipment where
  id : ShipmentId
  tenantId : TenantId
  orderId : OrderId
  shipmentNumber : Nat
  locationId : LocationId
  status : ShipmentStatus
  updatedAt : Nat
  deriving DecidableEq

/-- `fulfillment_processed_events.consumer_name`. -/
inductive Consumer where
  /-- `ORDER_CONSUMER`. -/
  | orders
  /-- `ANALYTICS_CONSUMER`. -/
  | analytics
  deriving DecidableEq

/-- `fulfillment_processed_events.status`. -/
inductive ClaimStatus where
  | processing | failed | completed | deadLettered
  deriving DecidableEq

/-- A row of `fulfillment_processed_events`. -/
structure ProcessedEvent where
  tenantId : TenantId
  consumerName : Consumer
  eventKey : EventKey
  eventType : EventType
  orderId : OrderId
  status : ClaimStatus
  attempts : Nat
  leaseToken : Option Nat
  leaseUntil : Option Nat
  deriving DecidableEq

/-- `fulfillment_effects.effect_kind`. -/
inductive EffectKind where
  | event | notification
  deriving DecidableEq

/-- `fulfillment_effects.status`. -/
inductive EffectStatus where
  | queued | publishing | published | cancelled | failed
  deriving DecidableEq

/-- A row of `fulfillment_effects`. -/
structure EffectRow where
  tenantId : TenantId
  orderId : OrderId
  effectKey : EventKey
  operation : Operation
  effectKind : EffectKind
  payload : CommerceEvent
  notificationStatus : Option ShipmentStatus
  aggregateVersion : Nat
  status : EffectStatus
  attempts : Nat
  claimToken : Option Nat
  claimUntil : Option Nat
  deriving DecidableEq

/-- The tables, the clock, the configured lease and the source of fresh
UUIDs. -/
structure Store where
  now : Nat
  nextToken : Nat
  claimLeaseSeconds : Nat
  orders : List OrderRow
  payments : List PaymentSnapshot
  locations : List Location
  shipments : List Shipment
  claims : List ProcessedEvent
  effects : List EffectRow

/-! ## Failures -/

/-- The exceptions of the service: a `PermanentEventException` is not worth a
retry, any other `RuntimeException` is. -/
inductive Failure where
  | permanent (message : String)
  | retryable (message : String)
  deriving DecidableEq

/-- `error instanceof PermanentEventException`. -/
def Failure.isPermanent : Failure → Bool
  | .permanent _ => true
  | .retryable _ => false

abbrev Outcome (α : Type) := Except Failure (α × Store)

end CommercePlayground.Fulfillment
