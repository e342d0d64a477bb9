/-
CommercePlayground.Boundary.CommerceEvent — `CommerceEvent` of the fulfillment
service: its JSON envelope, and the broker identity it is checked against.

The other modules of fulfillment take an event as decoded; here it is the text
that counts. The JSON library and the clock format are parameters: `ObjectMapper`
reads back what it wrote, up to numbers that have no JSON text, and
`InstantFormat` parses what it prints.
-/
import CommercePlayground.Lib.Json

namespace CommercePlayground.Boundary

open Lib

/-! ## Libraries -/

/-- What a parser finds in a message body. -/
inductive ReadTree where
  | value (root : Json)
  | several
  | nothing
  | malformed

/-- `ObjectMapper`, with a parser that refuses duplicate names. -/
structure ObjectMapper where
  /-- The bytes of a message. -/
  Body : Type
  writeValueAsString : Json → Body
  readTree : Body → ReadTree
  distinct : ∀ body root, readTree body = .value root → root.Distinct
  read_write : ∀ root : Json, root.Distinct →
    readTree (writeValueAsString root) = .value root.quoted

/-- The days of a month. -/
def daysIn (year month : Nat) : Nat :=
  if month = 2 then
    if year % 4 = 0 ∧ (year % 100 ≠ 0 ∨ year % 400 = 0) then 29 else 28
  else if month = 4 ∨ month = 6 ∨ month = 9 ∨ month = 11 then 30
  else 31

/-- A moment in UTC, to the millisecond. -/
structure UtcMillis where
  year : Nat
  month : Nat
  day : Nat
  hour : Nat
  minute : Nat
  second : Nat
  milli : Nat
  valid : 1 ≤ year ∧ year ≤ 9999 ∧ 1 ≤ month ∧ month ≤ 12 ∧ 1 ≤ day ∧ day ≤ daysIn year month ∧
    hour < 24 ∧ minute < 60 ∧ second < 60 ∧ milli < 1000

/-- A number in at least so many digits. -/
def padded (width n : Nat) : Text :=
  List.replicate (width - (decimal n).length) '0' ++ decimal n

/-- The moment in the notation `YYYY-MM-DDTHH24:MI:SS.MSZ`. -/
def UtcMillis.text (t : UtcMillis) : Text :=
  padded 4 t.year ++ '-' :: padded 2 t.month ++ '-' :: padded 2 t.day ++
    'T' :: padded 2 t.hour ++ ':' :: padded 2 t.minute ++ ':' :: padded 2 t.second ++
    '.' :: padded 3 t.milli ++ ['Z']

/-- A character of an instant is not blank. -/
def isInstantChar (c : Char) : Bool := !isTrimmed c && !isJavaWhitespace c

/-- `Instant.parse` and `Instant.toString`, the notation of ISO 8601. -/
structure InstantFormat where
  Instant : Type
  parse : Text → Option Instant
  print : Instant → Text
  parse_print : ∀ instant, parse (print instant) = some instant
  parse_millis : ∀ t : UtcMillis, ∃ instant, parse t.text = some instant
  print_clean : ∀ instant, (print instant).all isInstantChar = true ∧ print instant ≠ []

/-- `PermanentEventException`. -/
structure PermanentEventException where
  message : String
  deriving DecidableEq

abbrev EventResult (α : Type) := Except PermanentEventException α

def permanent {α : Type} (message : String) : EventResult α := .error ⟨message⟩

/-! ## Events -/

/-- `CommerceEvent`. The payload and the context are JSON objects. -/
structure CommerceEvent (instants : InstantFormat) where
  eventId : Text
  eventKey : Text
  schemaVersion : Int
  tenantId : Text
  eventType : Text
  occurredAt : instants.Instant
  orderId : Text
  customerId : Option Text
  currency : Option Text
  totalMinor : Int
  paymentStatus : Text
  payload : Members
  entityType : Text
  entityId : Text
  context : Members
  sessionId : Option Text

def currentSchemaVersion : Int := 1

def envelopeFields : List String :=
  ["event_id", "event_key", "schema_version", "tenant_id", "event_type", "occurred_at",
    "aggregate_type", "aggregate_id", "entity_type", "entity_id", "session_id", "context",
    "payload"]

def orderAggregateEventTypes : List String :=
  ["order.created", "order.confirmed", "order.paid", "order.cancelled"]

def paymentEventTypes : List String :=
  ["payment.authorized", "payment.captured", "payment.paid", "payment.failed"]

/-- `Set.contains`, of a text. -/
def isOneOf (names : List String) (value : Text) : Bool := (names.map String.toList).contains value

/-! ## Fields -/

/-- `optionalText`. -/
def optionalText (node : Members) (field : String) : EventResult (Option Text) :=
  match Json.get node field with
  | none => .ok none
  | some (.text value) => .ok (some (javaTrim value))
  | some _ => permanent ("commerce event field must be text: " ++ field)

/-- `requiredText`. -/
def requiredText (node : Members) (field : String) : EventResult Text := do
  match ← optionalText node field with
  | none => permanent ("commerce event is missing " ++ field)
  | some value =>
    if isBlank value then permanent ("commerce event is missing " ++ field) else pure value

/-- `requiredInt`. -/
def requiredInt (node : Members) (field : String) : EventResult Int :=
  match Json.get node field with
  | some (.int value) =>
    if -2 ^ 31 ≤ value ∧ value < 2 ^ 31 then .ok value
    else permanent ("commerce event field must be an integer: " ++ field)
  | _ => permanent ("commerce event field must be an integer: " ++ field)

/-- One candidate of `optionalLong` and `requiredLong`. -/
def longField (node : Members) (field : String) : EventResult (Option Int) :=
  match Json.get node field with
  | none => .ok none
  | some (.int value) =>
    if -2 ^ 63 ≤ value ∧ value < 2 ^ 63 then .ok (some value)
    else permanent ("commerce event field must be an integer: " ++ field)
  | some _ => permanent ("commerce event field must be an integer: " ++ field)

/-- `optionalLong`. -/
def optionalLong (node : Members) : List String → EventResult Int
  | [] => .ok 0
  | field :: fields => do
    match ← longField node field with
    | none => optionalLong node fields
    | some value => pure value

/-- The loop of `requiredLong`, with the value and the field found so far. -/
def agreedLong (node : Members) (found : Option (Int × String)) :
    List String → EventResult (Option Int)
  | [] => .ok (found.map Prod.fst)
  | field :: fields => do
    match ← longField node field with
    | none => agreedLong node found fields
    | some value =>
      match found with
      | none => agreedLong node (some (value, field)) fields
      | some (first, firstField) =>
        if first ≠ value then
          permanent ("commerce event amount fields do not agree: " ++ firstField ++ ", " ++ field)
        else agreedLong node found fields

/-- `requiredLong`. -/
def requiredLong (node : Members) (fields : List String) : EventResult Int := do
  match ← agreedLong node none fields with
  | none => permanent ("commerce event is missing one of " ++ ", ".intercalate fields)
  | some value => pure value

/-- `requiredInstant`. -/
def requiredInstant (instants : InstantFormat) (node : Members) (field : String) :
    EventResult instants.Instant := do
  let value ← requiredText node field
  match instants.parse value with
  | none => permanent ("commerce event has invalid " ++ field)
  | some instant => pure instant

/-! ## Decoding -/

/-- The field names of an envelope. -/
def checkEnvelopeFields : Members → EventResult Unit
  | [] => .ok ()
  | (name, _) :: members =>
    if envelopeFields.contains name then checkEnvelopeFields members
    else permanent ("commerce event has unknown envelope field: " ++ name)

/-- The payload of an envelope. -/
def payloadOf (root : Members) : EventResult Members :=
  match Json.get root "payload" with
  | some (.object payload) => .ok payload
  | _ => permanent "commerce event payload must be a JSON object"

/-- The schema version of an envelope. -/
def schemaVersionOf (root : Members) : EventResult Int := do
  let schemaVersion ← requiredInt root "schema_version"
  if schemaVersion ≠ currentSchemaVersion then
    permanent ("unsupported commerce event schema_version: " ++ toString schemaVersion)
  else pure schemaVersion

/-- The entity of an event is its aggregate. -/
def entityOf (aggregateType aggregateId : Text) (entityType entityId : Option Text) :
    EventResult (Text × Text) :=
  match entityType, entityId with
  | none, none => .ok (aggregateType, aggregateId)
  | some entityType, some entityId =>
    if entityType ≠ aggregateType ∨ entityId ≠ aggregateId then
      permanent "commerce event entity identity does not match aggregate identity"
    else .ok (entityType, entityId)
  | _, _ => permanent "commerce event entity_type and entity_id must be supplied together"

/-- The order of an event. -/
def orderIdOf (eventType aggregateType aggregateId : Text) (payload : Members)
    (payloadOrderId : Option Text) : EventResult Text :=
  if isOneOf orderAggregateEventTypes eventType then
    if aggregateType ≠ "order".toList then
      permanent ("order event must use an order aggregate: " ++ String.ofList eventType)
    else
      match payloadOrderId with
      | none => .ok aggregateId
      | some orderId =>
        if isBlank orderId then permanent "commerce event payload.order_id must not be blank"
        else if aggregateId ≠ orderId then
          permanent "commerce event aggregate_id does not match payload.order_id"
        else .ok aggregateId
  else if isOneOf paymentEventTypes eventType then
    if aggregateType ≠ "payment".toList then
      permanent ("payment event must use a payment aggregate: " ++ String.ofList eventType)
    else if isBlank (payloadOrderId.getD []) then
      permanent ("commerce event is missing payload.order_id for " ++ String.ofList eventType)
    else do
      let paymentId ← requiredText payload "payment_id"
      if aggregateId ≠ paymentId then
        permanent "commerce event aggregate_id does not match payload.payment_id"
      else pure (payloadOrderId.getD [])
  else
    let orderId := payloadOrderId.getD []
    if aggregateType = "order".toList ∧ (isBlank orderId ∨ aggregateId ≠ orderId) then
      permanent "commerce event aggregate_id does not match payload.order_id"
    else .ok orderId

/-- The context of an envelope. -/
def contextOf (root : Members) : EventResult Members :=
  match Json.get root "context" with
  | none => .ok []
  | some (.object context) => .ok context
  | some _ => permanent "commerce event context must be a JSON object"

/-- The status of the nested payment, where the payload has none of its own. -/
def nestedStatus (payload : Members) (paymentStatus : Option Text) :
    EventResult (Option Text) :=
  match paymentStatus, Json.get payload "payment" with
  | none, some (.object payment) => optionalText payment "status"
  | _, _ => .ok paymentStatus

/-- The amount of an event. -/
def totalMinorOf (eventType : Text) (payload : Members) : EventResult Int :=
  if isOneOf paymentEventTypes eventType then
    requiredLong payload ["amount_minor", "total_minor"]
  else optionalLong payload ["total_minor", "amount_minor"]

/-- What a payment event must say. -/
def checkPayment (eventType : Text) (currency paymentStatus : Option Text) : EventResult Unit :=
  if isOneOf paymentEventTypes eventType then
    if isBlank (currency.getD []) then
      permanent ("commerce event is missing payload.currency for " ++ String.ofList eventType)
    else if isBlank (paymentStatus.getD []) then
      permanent
        ("commerce event is missing payload.payment_status for " ++ String.ofList eventType)
    else .ok ()
  else .ok ()

/-- `fromRoot`. -/
def fromRoot (instants : InstantFormat) (root : Members) :
    EventResult (CommerceEvent instants) := do
  checkEnvelopeFields root
  let payload ← payloadOf root
  let eventId ← requiredText root "event_id"
  let eventKey ← requiredText root "event_key"
  let schemaVersion ← schemaVersionOf root
  let tenantId ← requiredText root "tenant_id"
  let eventType ← requiredText root "event_type"
  let occurredAt ← requiredInstant instants root "occurred_at"
  let aggregateType ← requiredText root "aggregate_type"
  let aggregateId ← requiredText root "aggregate_id"
  let entityType ← optionalText root "entity_type"
  let entityId ← optionalText root "entity_id"
  let entity ← entityOf aggregateType aggregateId entityType entityId
  let payloadOrderId ← optionalText payload "order_id"
  let orderId ← orderIdOf eventType aggregateType aggregateId payload payloadOrderId
  let context ← contextOf root
  let sessionId ← optionalText root "session_id"
  let customerId ← optionalText payload "customer_id"
  let currency ← optionalText payload "currency"
  let ownStatus ← optionalText payload "payment_status"
  let paymentStatus ← nestedStatus payload ownStatus
  let totalMinor ← totalMinorOf eventType payload
  checkPayment eventType currency paymentStatus
  pure
    { eventId := eventId
      eventKey := eventKey
      schemaVersion := schemaVersion
      tenantId := tenantId
      eventType := eventType
      occurredAt := occurredAt
      orderId := orderId
      customerId := customerId
      currency := currency
      totalMinor := totalMinor
      paymentStatus := paymentStatus.getD []
      payload := payload
      entityType := entity.1
      entityId := entity.2
      context := context
      sessionId := sessionId }

/-! ## The broker identity -/

/-- `headerText`; a header that is not there reads as the empty text. -/
def headerText (headers : List (String × Text)) (name : String) : Text :=
  javaTrim ((headers.lookup name).getD [])

/-- `requireHeader`. -/
def requireHeader (value : Text) (name : String) : EventResult Unit :=
  if isBlank value then permanent ("commerce event header is missing " ++ name) else .ok ()

/-- `assertIdentity`. -/
def assertIdentity (name : String) (bodyValue headerValue : Text) : EventResult Unit :=
  if bodyValue ≠ javaTrim headerValue then
    permanent ("commerce event " ++ name ++ " does not match its RabbitMQ identity")
  else .ok ()

/-- The identity headers, all or none of them. -/
def checkIdentityHeaders {instants : InstantFormat} (event : CommerceEvent instants)
    (headers : List (String × Text)) : EventResult Unit :=
  if ["event-key", "event-type", "tenant-id"].any fun name =>
      (headers.lookup name).isSome then do
    requireHeader (headerText headers "event-key") "event-key"
    requireHeader (headerText headers "event-type") "event-type"
    requireHeader (headerText headers "tenant-id") "tenant-id"
    assertIdentity "event-key" event.eventKey (headerText headers "event-key")
    assertIdentity "event-type" event.eventType (headerText headers "event-type")
    assertIdentity "tenant-id" event.tenantId (headerText headers "tenant-id")
  else .ok ()

/-- The message id as a header. -/
def checkMessageIdHeader {instants : InstantFormat} (event : CommerceEvent instants)
    (headers : List (String × Text)) : EventResult Unit :=
  if (headers.lookup "message-id").isSome then do
    requireHeader (headerText headers "message-id") "message-id"
    assertIdentity "message-id" event.eventId (headerText headers "message-id")
  else .ok ()

/-- The message id as a property. -/
def checkMessageId {instants : InstantFormat} (event : CommerceEvent instants)
    (headers : List (String × Text)) (messageId : Option Text) : EventResult Unit :=
  match messageId with
  | none => .ok ()
  | some messageId => do
    requireHeader (javaTrim messageId) "message-id"
    assertIdentity "message-id" event.eventId (javaTrim messageId)
    if (headers.lookup "message-id").isSome then
      assertIdentity "message-id" (javaTrim messageId) (headerText headers "message-id")
    else pure ()

/-- `validateHeaders`. -/
def validateHeaders {instants : InstantFormat} (event : CommerceEvent instants)
    (headers : List (String × Text)) (messageId : Option Text) : EventResult Unit := do
  checkIdentityHeaders event headers
  checkMessageIdHeader event headers
  checkMessageId event headers messageId

/-- `parse`. -/
def parse (mapper : ObjectMapper) (instants : InstantFormat) (body : mapper.Body)
    (headers : List (String × Text)) (messageId : Option Text) :
    EventResult (CommerceEvent instants) :=
  match mapper.readTree body with
  | .malformed => permanent "commerce event is not valid JSON"
  | .several => permanent "commerce event contains multiple JSON values"
  | .value (.object root) => do
    let event ← fromRoot instants root
    validateHeaders event headers messageId
    pure event
  | _ => permanent "commerce event must be a JSON object"

/-! ## Encoding -/

/-- The session, if it is written. -/
def sessionMember (sessionId : Option Text) : Members :=
  (sessionId.filter fun value => !isBlank value).toList.map fun value =>
    ("session_id", .text value)

/-- The members of `toJson`. -/
def toMembers {instants : InstantFormat} (event : CommerceEvent instants) : Members :=
  [("event_id", .text event.eventId),
    ("event_key", .text event.eventKey),
    ("schema_version", .int event.schemaVersion),
    ("tenant_id", .text event.tenantId),
    ("event_type", .text event.eventType),
    ("occurred_at", .text (instants.print event.occurredAt)),
    ("entity_type", .text event.entityType),
    ("entity_id", .text event.entityId),
    ("aggregate_type", .text event.entityType),
    ("aggregate_id", .text event.entityId)] ++
  sessionMember event.sessionId ++
  (if event.context.isEmpty then [] else [("context", .object event.context)]) ++
  [("payload", .object event.payload)]

/-- `toJson`. -/
def toJson {instants : InstantFormat} (mapper : ObjectMapper) (event : CommerceEvent instants) :
    mapper.Body :=
  mapper.writeValueAsString (.object (toMembers event))

/-! ## Downstream events -/

/-- `text`: the text of a member, or the empty one. The payloads it reads hold texts
and integers only. -/
def textOf (node : Members) (name : String) : Text :=
  match Json.get node name with
  | some (.text value) => javaTrim value
  | some (.int value) => (toString value).toList
  | _ => []

/-- `inferredEntityType`. -/
def inferredEntityType (payload : Members) (orderId : Text) : Text :=
  let entityType := textOf payload "entity_type"
  let entityType := if isBlank entityType then textOf payload "aggregate_type" else entityType
  if isBlank entityType then if isBlank orderId then "event".toList else "order".toList
  else entityType

/-- `inferredEntityId`. -/
def inferredEntityId (payload : Members) (orderId eventKey : Text) : Text :=
  let entityId := textOf payload "entity_id"
  let entityId := if isBlank entityId then textOf payload "aggregate_id" else entityId
  if !isBlank entityId then entityId
  else if isBlank orderId then eventKey
  else orderId

/-- `inferredContext`. -/
def inferredContext (payload : Members) : Members :=
  match Json.get payload "context" with
  | some (.object context) => context
  | _ => []

/-- `inferredSessionId`. -/
def inferredSessionId (payload : Members) : Option Text :=
  let value := textOf payload "session_id"
  if isBlank value then none else some value

/-- A downstream event of an order: the constructor that infers the entity, the
context and the session from the payload. -/
def downstream {instants : InstantFormat} (source : CommerceEvent instants) (key eventType : Text)
    (now : instants.Instant) (payload : Members) : CommerceEvent instants where
  eventId := key
  eventKey := key
  schemaVersion := currentSchemaVersion
  tenantId := source.tenantId
  eventType := eventType
  occurredAt := now
  orderId := source.orderId
  customerId := source.customerId
  currency := source.currency
  totalMinor := source.totalMinor
  paymentStatus := source.paymentStatus
  payload := payload
  entityType := inferredEntityType payload source.orderId
  entityId := inferredEntityId payload source.orderId key
  context := inferredContext payload
  sessionId := inferredSessionId payload

/-- `requireOrderId`. -/
def requireOrderId {instants : InstantFormat} (event : CommerceEvent instants) :
    EventResult Unit :=
  if isBlank event.orderId then permanent "commerce event requires an order id" else .ok ()

/-- The payload of a shipment event, but for the session. -/
def shipmentMembers {instants : InstantFormat} (event : CommerceEvent instants)
    (shipmentId shipmentStatus : Text) : Members :=
  [("order_id", .text event.orderId),
    ("shipment_id", .text shipmentId),
    ("status", .text shipmentStatus),
    ("payment_status", .text event.paymentStatus),
    ("total_minor", .int event.totalMinor)]

/-- `shipmentCreated`. -/
def shipmentCreated {instants : InstantFormat} (event : CommerceEvent instants)
    (now : instants.Instant) (shipmentId shipmentStatus : Text) :
    EventResult (CommerceEvent instants) := do
  requireOrderId event
  let key := "fulfillment:".toList ++ event.tenantId ++ ':' :: event.orderId ++
    ":shipment".toList
  pure (downstream event key "fulfillment.shipment.created".toList now
    (shipmentMembers event shipmentId shipmentStatus ++ sessionMember event.sessionId))

/-- The payload of a cancellation event, but for the session. -/
def cancelledMembers {instants : InstantFormat} (event : CommerceEvent instants) : Members :=
  [("order_id", .text event.orderId),
    ("status", .text "cancelled".toList),
    ("payment_status", .text event.paymentStatus)]

/-- `orderCancelled`. -/
def orderCancelled {instants : InstantFormat} (event : CommerceEvent instants)
    (now : instants.Instant) : EventResult (CommerceEvent instants) := do
  requireOrderId event
  let key := "cancellation:".toList ++ event.tenantId ++ ':' :: event.orderId ++ ":event".toList
  pure (downstream event key "fulfillment.order.cancelled".toList now
    (cancelledMembers event ++ sessionMember event.sessionId))

end CommercePlayground.Boundary
