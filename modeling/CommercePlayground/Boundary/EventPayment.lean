/-
CommercePlayground.Boundary.EventPayment — the payment checks of the
fulfillment processor, on a parsed event.

An event leaves some components absent. Where the code dereferences one, an
absent component is a null pointer: neither a permanent failure nor one that
asks for a retry. The rows of orders and payments hold every column the checks
read.
-/
import CommercePlayground.Boundary.PaidEvent

namespace CommercePlayground.Boundary

open Lib

/-! ## Outcomes -/

/-- What the processing of an event may throw. -/
inductive EventFailure where
  /-- `PermanentEventException`. -/
  | permanent (message : String)
  /-- `RetryableEventException`. -/
  | retryable (message : String)
  /-- A dereference of an absent component. -/
  | nullPointer
  deriving DecidableEq

abbrev Processed (α : Type) := Except EventFailure α

/-- The exception of a parser, among those of the processor. -/
def ofEvent {α : Type} : EventResult α → Processed α
  | .ok a => .ok a
  | .error e => .error (.permanent e.message)

/-- A component, dereferenced. -/
def dereference : Option Text → Processed Text
  | none => .error .nullPointer
  | some value => .ok value

/-- Throw when the condition holds. -/
def throwIf (condition : Bool) (failure : EventFailure) : Processed Unit :=
  if condition then .error failure else .ok ()

/-! ## Rows -/

/-- `OrderSnapshot`, the columns that `validatePayment` reads. -/
structure OrderSnapshot where
  id : Text
  tenantId : Text
  currency : Text
  totalMinor : Int
  deriving DecidableEq

/-- `PaymentSnapshot`. -/
structure PaymentSnapshot where
  id : Text
  tenantId : Text
  orderId : Text
  status : Text
  amountMinor : Int
  currency : Text
  deriving DecidableEq

/-! ## Kinds of events -/

section

variable {instants : InstantFormat}

/-- `isPaymentEvent`. -/
def CommerceEvent.isPaymentEvent (event : CommerceEvent instants) : Bool :=
  isOneOf paymentEventTypes event.eventType

/-- `isCancellation`. -/
def CommerceEvent.isCancellation (event : CommerceEvent instants) : Bool :=
  !isBlank event.orderId && isOneOf ["order.cancelled", "payment.failed"] event.eventType

/-- `isFulfillmentTrigger`. -/
def CommerceEvent.isFulfillmentTrigger (event : CommerceEvent instants) : Bool :=
  !isBlank event.orderId &&
    isOneOf ["order.created", "order.confirmed", "order.paid", "payment.authorized",
      "payment.captured", "payment.paid"] event.eventType

/-! ## `validatePayment` -/

/-- The payment is the event's and the order's. -/
def checkOwnership (event : CommerceEvent instants) (order : OrderSnapshot)
    (payment : PaymentSnapshot) : Processed Unit := do
  let refusal :=
    EventFailure.permanent "payment does not belong to the event tenant and order"
  throwIf (event.tenantId != payment.tenantId) refusal
  let paymentId ← ofEvent event.paymentId
  throwIf (paymentId.any (· != payment.id)) refusal
  throwIf (event.orderId != payment.orderId || order.id != payment.orderId) refusal

/-- The payment is for the order's total. -/
def checkPaidAmount (order : OrderSnapshot) (payment : PaymentSnapshot) : Processed Unit :=
  throwIf (payment.amountMinor != order.totalMinor || payment.currency != order.currency)
    (.permanent "payment does not match order total or currency")

/-- An order event needs a settled payment. -/
def checkSettled (event : CommerceEvent instants) (order : OrderSnapshot)
    (payment : PaymentSnapshot) : Processed Unit :=
  throwIf (!event.isPaymentEvent && payment.status != "authorized".toList &&
      payment.status != "captured".toList)
    (.retryable ("payment is not settled: " ++ String.ofList payment.status ++ " for " ++
      String.ofList order.id))

/-- The total of the event, where it has one. -/
def checkEventTotal (event : CommerceEvent instants) (order : OrderSnapshot) :
    Processed Unit := do
  throwIf (event.isPaymentEvent && event.totalMinor != order.totalMinor)
    (.permanent "payment event amount does not match durable order total")
  throwIf (!event.isPaymentEvent && decide (0 < event.totalMinor) &&
      event.totalMinor != order.totalMinor)
    (.permanent "event total does not match durable order total")

/-- The currency of the event. An order event may have none, and it is
dereferenced all the same. -/
def checkEventCurrency (event : CommerceEvent instants) (order : OrderSnapshot) :
    Processed Unit := do
  let currency ← dereference event.currency
  if event.isPaymentEvent then
    throwIf (currency != order.currency)
      (.permanent "payment event currency does not match durable order currency")
  else
    throwIf (!isBlank currency && currency != order.currency)
      (.permanent "event currency does not match durable order currency")

/-- The status a payment event stands for. -/
def requiredStatus (event : CommerceEvent instants) : Processed Text :=
  if isOneOf ["payment.authorized"] event.eventType then .ok "authorized".toList
  else if isOneOf ["payment.captured", "payment.paid"] event.eventType then .ok "captured".toList
  else if isOneOf ["payment.failed"] event.eventType then .ok "failed".toList
  else .error (.permanent ("unsupported payment event type: " ++ String.ofList event.eventType))

/-- The status of the event is that of its type; `payment.paid` has two. -/
def eventStatusMatches (event : CommerceEvent instants) (required : Text) : Bool :=
  if isOneOf ["payment.paid"] event.eventType then
    event.paymentStatus == "paid".toList || event.paymentStatus == "captured".toList
  else event.paymentStatus == required

/-- The stored payment has the status the event speaks of. -/
def checkPaymentState (event : CommerceEvent instants) (order : OrderSnapshot)
    (payment : PaymentSnapshot) : Processed Unit :=
  if event.isPaymentEvent then do
    let required ← requiredStatus event
    let paymentId ← ofEvent event.paymentId
    throwIf (required != payment.status)
      (.retryable ("payment state has not committed for " ++
        (paymentId.map String.ofList).getD "null"))
    throwIf (!eventStatusMatches event required)
      (.permanent "payment event status does not match event type")
  else
    throwIf (!isBlank event.paymentStatus && event.paymentStatus != payment.status)
      (.retryable ("event payment state has not committed yet: " ++ String.ofList order.id))

/-- `validatePayment`. -/
def validatePayment (event : CommerceEvent instants) (order : OrderSnapshot)
    (payment : PaymentSnapshot) : Processed Unit := do
  checkOwnership event order payment
  checkPaidAmount order payment
  checkSettled event order payment
  checkEventTotal event order
  checkEventCurrency event order
  checkPaymentState event order payment

/-! ## The processor -/

/-- `loadPaymentForEvent`, over the stored payments, the latest first. -/
def loadPaymentForEvent (event : CommerceEvent instants) (order : OrderSnapshot)
    (payments : List PaymentSnapshot) : Processed (Option PaymentSnapshot) := do
  let latest := payments.find? fun p => p.tenantId == order.tenantId && p.orderId == order.id
  match ← ofEvent event.paymentId with
  | none => pure latest
  | some paymentId =>
    if isBlank paymentId then pure latest
    else pure (payments.find? fun p => p.tenantId == event.tenantId && p.id == paymentId)

/-- The payment checks of `processOrderInTransaction`; the cancellation of an
order skips them. -/
def checkEventPayment (event : CommerceEvent instants) (order : OrderSnapshot)
    (payments : List PaymentSnapshot) : Processed Unit :=
  if !event.isCancellation || event.isPaymentEvent then do
    match ← loadPaymentForEvent event order payments with
    | none =>
      .error (.retryable
        ("payment is not visible in PostgreSQL yet: " ++ String.ofList order.id))
    | some payment => validatePayment event order payment
  else .ok ()

end

end CommercePlayground.Boundary
