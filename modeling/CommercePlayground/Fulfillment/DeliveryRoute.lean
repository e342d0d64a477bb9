/-
CommercePlayground.Fulfillment.DeliveryRoute — `RabbitDeliveryRoute`, and the way a
deferred message takes through the broker.

A message whose claim is leased is published to `commerce.retry` under the retry key of its
queue, waits in the retry queue until its time is up, and comes back through
`commerce.retry.return`. It then arrives by the route of the retry; two headers carry the
route it was published with, and the consumer checks these instead.
-/
import CommercePlayground.Lib.Text
import CommercePlayground.Fulfillment.Schema

namespace CommercePlayground.Fulfillment

open Lib

/-! ## Exchanges and queues -/

def eventsExchange : Text := "commerce.events".toList
def deadLetterExchange : Text := "commerce.dlx".toList
def retryExchange : Text := "commerce.retry".toList
def retryReturnExchange : Text := "commerce.retry.return".toList

/-- The configured queue names; a blank one stops the service at its start. -/
structure QueueNames where
  orders : Text
  analytics : Text
  orders_named : isBlank orders = false
  analytics_named : isBlank analytics = false

/-- `requireQueueName` of the queue of a consumer. -/
def QueueNames.queue (names : QueueNames) : Consumer → Text
  | .orders => javaTrim names.orders
  | .analytics => javaTrim names.analytics

/-- `ordersRetryRoutingKey` and `analyticsRetryRoutingKey`. -/
def QueueNames.retryRoutingKey (names : QueueNames) (consumer : Consumer) : Text :=
  names.queue consumer ++ ".retry".toList

/-- `analyticsDeadLetterRoutingKey`, and the same for the orders queue. -/
def QueueNames.deadLetterRoutingKey (names : QueueNames) (consumer : Consumer) : Text :=
  names.queue consumer ++ ".dead".toList

/-- The queues the service declares. -/
inductive BoundQueue where
  | main (consumer : Consumer)
  | retry (consumer : Consumer)
  | dead (consumer : Consumer)
  deriving DecidableEq

/-- A binding of a topic exchange. -/
structure Binding where
  exchange : Text
  pattern : Text
  queue : BoundQueue

/-- The bindings that both consumers have. -/
def QueueNames.retryBindings (names : QueueNames) (consumer : Consumer) : List Binding :=
  [⟨retryReturnExchange, names.retryRoutingKey consumer, .main consumer⟩,
    ⟨deadLetterExchange, names.deadLetterRoutingKey consumer, .dead consumer⟩,
    ⟨retryExchange, names.retryRoutingKey consumer, .retry consumer⟩]

/-- The bindings of `RabbitMessagingConfiguration`. -/
def QueueNames.bindings (names : QueueNames) : List Binding :=
  [⟨eventsExchange, "order.#".toList, .main .orders⟩,
    ⟨eventsExchange, "payment.#".toList, .main .orders⟩] ++ names.retryBindings .orders ++
    [⟨eventsExchange, "#".toList, .main .analytics⟩] ++ names.retryBindings .analytics

/-- Where a queue sends what it gives up: a retry queue when the time of a message is up,
a main queue when a message is rejected. -/
def QueueNames.deadLetterRoute (names : QueueNames) : BoundQueue → Option (Text × Text)
  | .main consumer => some (deadLetterExchange, names.deadLetterRoutingKey consumer)
  | .retry consumer => some (retryReturnExchange, names.retryRoutingKey consumer)
  | .dead _ => none

/-- A pattern of a topic exchange against a routing key, both in words: `*` stands for one
word and `#` for any number of them. -/
def topicMatches : List Text → List Text → Bool
  | [], words => words.isEmpty
  | p :: ps, words =>
    if p = ['#'] then words.tails.any (topicMatches ps)
    else
      match words with
      | [] => false
      | word :: words => (decide (p = ['*']) || decide (p = word)) && topicMatches ps words

/-- The queues a message goes to. -/
def QueueNames.routed (names : QueueNames) (exchange routingKey : Text) : List BoundQueue :=
  (names.bindings.filter fun b => decide (b.exchange = exchange) &&
    topicMatches (b.pattern.splitOn '.') (routingKey.splitOn '.')).map (·.queue)

/-! ## Routes -/

/-- What a route is read from. A header of bytes counts as the text it encodes. -/
structure MessageProperties where
  receivedExchange : Option Text
  receivedRoutingKey : Option Text
  /-- `x-commerce-original-exchange`. -/
  originalExchangeHeader : Option Text
  /-- `x-commerce-original-routing-key`. -/
  originalRoutingKeyHeader : Option Text

structure RabbitDeliveryRoute where
  receivedExchange : Text
  receivedRoutingKey : Text
  originalExchange : Text
  originalRoutingKey : Text
  deriving DecidableEq

/-- `clean`. -/
def clean (value : Option Text) : Text := javaTrim (value.getD [])

/-- `RabbitDeliveryRoute.from`. -/
def RabbitDeliveryRoute.fromProperties (properties : MessageProperties) :
    RabbitDeliveryRoute where
  receivedExchange := clean properties.receivedExchange
  receivedRoutingKey := clean properties.receivedRoutingKey
  originalExchange := clean properties.originalExchangeHeader
  originalRoutingKey := clean properties.originalRoutingKeyHeader

/-- `preserveOriginalRoute`. -/
def preserveOriginalRoute (source target : MessageProperties) :
    Except Failure MessageProperties :=
  let route := RabbitDeliveryRoute.fromProperties source
  let exchange := if isBlank route.originalExchange then route.receivedExchange
    else route.originalExchange
  let routingKey := if isBlank route.originalRoutingKey then route.receivedRoutingKey
    else route.originalRoutingKey
  if isBlank exchange || isBlank routingKey then
    .error (.retryable "cannot defer RabbitMQ message without its original route")
  else
    .ok { target with
      originalExchangeHeader := some exchange
      originalRoutingKeyHeader := some routingKey }

/-- `requireRoute`. -/
def RabbitDeliveryRoute.requireRoute (route : RabbitDeliveryRoute) (eventType : Text) :
    Except Failure Unit :=
  if isBlank route.receivedRoutingKey || decide (route.receivedRoutingKey ≠ eventType) then
    .error (.permanent "RabbitMQ routing key does not match event_type")
  else .ok ()

/-- `validateRetryRoute`. -/
def RabbitDeliveryRoute.validateRetryRoute (route : RabbitDeliveryRoute)
    (eventType retryRoutingKey : Text) : Except Failure Unit :=
  if route.receivedExchange = eventsExchange then
    if !isBlank route.originalExchange || !isBlank route.originalRoutingKey then
      .error (.permanent "initial commerce event must not carry retry route metadata")
    else route.requireRoute eventType
  else if route.receivedExchange = retryReturnExchange ∧
      route.receivedRoutingKey = retryRoutingKey then
    if route.originalExchange ≠ eventsExchange ∨ route.originalRoutingKey ≠ eventType then
      .error (.permanent "retry original route does not match event_type")
    else .ok ()
  else .error (.permanent ("unexpected fulfillment route exchange=" ++
    String.ofList route.receivedExchange ++ " routing_key=" ++
    String.ofList route.receivedRoutingKey))

/-- `validate` of the orders consumer and `validateForAnalytics`. -/
def QueueNames.validate (names : QueueNames) (consumer : Consumer)
    (properties : MessageProperties) (eventType : Text) : Except Failure Unit :=
  (RabbitDeliveryRoute.fromProperties properties).validateRetryRoute eventType
    (names.retryRoutingKey consumer)

/-- A message that comes back from the retry queue. -/
def QueueNames.returned (names : QueueNames) (consumer : Consumer)
    (properties : MessageProperties) : MessageProperties :=
  { properties with
    receivedExchange := some retryReturnExchange
    receivedRoutingKey := some (names.retryRoutingKey consumer) }

/-- A message deferred `n` times in a row. -/
def QueueNames.deferred (names : QueueNames) (consumer : Consumer) :
    Nat → MessageProperties → Except Failure MessageProperties
  | 0, properties => .ok properties
  | n + 1, properties => do
    let copy ← preserveOriginalRoute properties properties
    names.deferred consumer n (names.returned consumer copy)

end CommercePlayground.Fulfillment
