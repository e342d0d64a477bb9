/-
CommercePlayground.Boundary.PaidEvent — the paid event, from the order that
`finalize_order` finalizes to the message that fulfillment receives.

The payload is stored in a `jsonb` column, read back by the publisher and sent as
the body of an AMQP message. PostgreSQL and the two JSON libraries are the
parameter `Wire`; the exchange, the routing key, the message id and the headers
are those of `publish_outbox_message`.
-/
import CommercePlayground.Boundary.CommerceEvent
import CommercePlayground.Boundary.Order

namespace CommercePlayground.Boundary

open Lib Pricing

/-! ## The HTTP door -/

/-- `normalize_checkout_input` of the checkout endpoint. `tenant` is what
`resolve_http_tenant_id` made of the headers and of the request. -/
def normalizeCheckoutInput (baggage : List (Text × Text)) (uuid : Text) (tenant : ApiResult Text)
    (input : CheckoutInput) : ApiResult CheckoutInput := do
  let requestId := checkoutRequestId uuid input
  let tenantId ← tenant
  let sessionId ← resolveSessionId baggage input.sessionId
  let sessionId := sessionId.getD ("session-".toList ++ requestId)
  if trimIsEmpty sessionId then badRequest .invalidSession "session_id is invalid"
  else do
    let input := { input with
      tenantId := tenantId, sessionId := some sessionId, requestId := some requestId }
    validateInput input
    pure input

/-! ## The outbox row -/

/-- `PaymentIdentity.stablePaymentId`: the hexadecimal digits of a SHA-256 digest. -/
structure PaymentId where
  digest : Text
  length : digest.length = 64
  chars : digest.all isUuidChar = true

def PaymentId.text (id : PaymentId) : Text := "pay_".toList ++ id.digest

/-- `OutboxRow`, as `claim_outbox_event` reads it, with the stored payload. -/
structure OutboxRow where
  id : Text
  tenantId : Text
  eventKey : Text
  aggregateType : Text
  aggregateId : Text
  eventType : Text
  schemaVersion : Int
  occurredAt : Text
  payload : Json

/-- A line of the payload. -/
def paidItem (line : OrderLine) : Json :=
  .object [("sku", .text line.sku), ("quantity", .int line.quantity),
    ("unit_price_minor", .int line.unitPriceMinor)]

/-- The payload of `finalize_order`. -/
def paidMembers (order : PendingOrder) (paymentId : Text) : Members :=
  [("order_id", .text order.id),
    ("order_number", .text order.orderNumber),
    ("tenant_id", .text order.tenantId),
    ("customer_id", .text order.customerId),
    ("session_id", .text order.sessionId),
    ("currency", .text order.currency),
    ("subtotal_minor", .int order.subtotalMinor),
    ("discount_minor", .int order.discountMinor),
    ("tax_minor", .int order.taxMinor),
    ("shipping_minor", .int 0),
    ("total_minor", .int order.totalMinor),
    ("payment_id", .text paymentId),
    ("payment_status", .text "captured".toList),
    ("items", .array (order.lines.map paidItem))]

/-- The row of `finalize_order`, claimed when the clock said `occurredAt`. -/
def paidRow (order : PendingOrder) (paymentId : Text) (occurredAt : UtcMillis) : OutboxRow where
  id := "outbox-".toList ++ order.id
  tenantId := order.tenantId
  eventKey := order.id ++ ":paid".toList
  aggregateType := "order".toList
  aggregateId := order.id
  eventType := "order.paid".toList
  schemaVersion := 1
  occurredAt := occurredAt.text
  payload := .object (paidMembers order paymentId)

/-! ## The message -/

/-- What lies between the two services. -/
structure Wire (mapper : ObjectMapper) where
  /-- `$5::jsonb`, `payload::text` and `serde_json::from_str`. -/
  stored : Json → Option Json
  /-- `serde_json::to_vec`. -/
  toVec : Json → mapper.Body
  stored_same : ∀ j : Json, j.Plain → ∃ j', stored j = some j' ∧ Json.Same j j' ∧ j'.Plain
  read_toVec : ∀ j : Json, j.Plain →
    ∃ j', mapper.readTree (toVec j) = .value j' ∧ Json.Same j j'

/-- The trace headers, where the context has them. -/
structure Propagation where
  traceparent : Option Text
  tracestate : Option Text
  baggage : Option Text

def Propagation.headers (p : Propagation) : List (String × Text) :=
  (p.traceparent.toList.map fun v => ("traceparent", v)) ++
    (p.tracestate.toList.map fun v => ("tracestate", v)) ++
    p.baggage.toList.map fun v => ("baggage", v)

/-- A message as RabbitMQ delivers it. -/
structure Delivery (mapper : ObjectMapper) where
  exchange : Text
  routingKey : Text
  messageId : Text
  headers : List (String × Text)
  body : mapper.Body

/-- `EXCHANGE` of checkout. -/
def exchange : Text := "commerce.events".toList

/-- The envelope of an outbox row. -/
def envelope (row : OutboxRow) (payload : Json) : Members :=
  [("event_id", .text row.id),
    ("event_key", .text row.eventKey),
    ("schema_version", .int row.schemaVersion),
    ("tenant_id", .text row.tenantId),
    ("event_type", .text row.eventType),
    ("occurred_at", .text row.occurredAt),
    ("aggregate_type", .text row.aggregateType),
    ("aggregate_id", .text row.aggregateId),
    ("payload", payload)]

/-- The message of `publish_outbox_message`. -/
def publishOutboxMessage {mapper : ObjectMapper} (wire : Wire mapper) (propagation : Propagation)
    (row : OutboxRow) : Option (Delivery mapper) := do
  let payload ← wire.stored row.payload
  pure
    { exchange := exchange
      routingKey := row.eventType
      messageId := row.id
      headers := propagation.headers ++
        [("event-key", row.eventKey), ("event-type", row.eventType), ("tenant-id", row.tenantId)]
      body := wire.toVec (.object (envelope row payload)) }

/-! ## The route -/

/-- `RabbitDeliveryRoute`. -/
structure RabbitDeliveryRoute where
  receivedExchange : Text
  receivedRoutingKey : Text
  originalExchange : Text
  originalRoutingKey : Text

/-- `EVENTS_EXCHANGE` of fulfillment. -/
def eventsExchange : Text := "commerce.events".toList

def retryReturnExchange : Text := "commerce.retry.return".toList

/-- `RabbitDeliveryRoute.from`. -/
def routeFrom {mapper : ObjectMapper} (delivery : Delivery mapper) : RabbitDeliveryRoute where
  receivedExchange := javaTrim delivery.exchange
  receivedRoutingKey := javaTrim delivery.routingKey
  originalExchange := headerText delivery.headers "x-commerce-original-exchange"
  originalRoutingKey := headerText delivery.headers "x-commerce-original-routing-key"

/-- `validateRetryRoute`. -/
def validateRetryRoute {instants : InstantFormat} (route : RabbitDeliveryRoute)
    (event : CommerceEvent instants) (retryRoutingKey : Text) : EventResult Unit :=
  if route.receivedExchange = eventsExchange then
    if !isBlank route.originalExchange || !isBlank route.originalRoutingKey then
      permanent "initial commerce event must not carry retry route metadata"
    else if isBlank route.receivedRoutingKey || decide (route.receivedRoutingKey ≠ event.eventType)
    then permanent "RabbitMQ routing key does not match event_type"
    else .ok ()
  else if route.receivedExchange = retryReturnExchange ∧
      route.receivedRoutingKey = retryRoutingKey then
    if route.originalExchange ≠ eventsExchange ∨ route.originalRoutingKey ≠ event.eventType then
      permanent "retry original route does not match event_type"
    else .ok ()
  else
    permanent ("unexpected fulfillment route exchange=" ++ String.ofList route.receivedExchange ++
      " routing_key=" ++ String.ofList route.receivedRoutingKey)

/-- `paymentId`. -/
def CommerceEvent.paymentId {instants : InstantFormat} (event : CommerceEvent instants) :
    EventResult (Option Text) := optionalText event.payload "payment_id"

end CommercePlayground.Boundary
