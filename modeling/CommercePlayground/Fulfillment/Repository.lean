/-
CommercePlayground.Fulfillment.Repository — `processOrderInTransaction` and
the effects of `FulfillmentRepository`.

Each function is one transaction: it returns the store it commits, or fails
and commits nothing. `processOrderInTransaction` does not ask whether the
delivery still holds its claim; the effect statements do, and they repeat the
fence on the order's status and version.
-/
import CommercePlayground.Fulfillment.Claims

namespace CommercePlayground.Fulfillment

open Lib

/-! ## Loading and validating -/

/-- `WHERE tenant_id = … AND id = …`. -/
def isOrder (tenantId : TenantId) (orderId : OrderId) (o : OrderRow) : Bool :=
  decide (o.tenantId = tenantId ∧ o.id = orderId)

/-- `loadOrder`. -/
def loadOrder (s : Store) (tenantId : TenantId) (orderId : OrderId) : Option OrderRow :=
  s.orders.find? (isOrder tenantId orderId)

/-- `ORDER BY created_at DESC LIMIT 1`. -/
def latest : List PaymentSnapshot → Option PaymentSnapshot
  | [] => none
  | p :: ps =>
    match latest ps with
    | none => some p
    | some q => if p.createdAt < q.createdAt then some q else some p

/-- `loadPaymentForEvent`: the payment the event names, or the latest one. -/
def loadPaymentForEvent (s : Store) (event : CommerceEvent) (order : OrderRow) :
    Option PaymentSnapshot :=
  match event.paymentId with
  | some (id + 1) =>
    s.payments.find? fun p => decide (p.tenantId = event.tenantId ∧ p.id = id + 1)
  | _ =>
    latest (s.payments.filter fun p =>
      decide (p.tenantId = order.tenantId ∧ p.orderId = order.id))

/-- The status a payment event stands for. -/
def requiredStatus : EventType → Except Failure PaymentStatus
  | .paymentAuthorized => .ok .authorized
  | .paymentCaptured | .paymentPaid => .ok .captured
  | .paymentFailed => .ok .failed
  | _ => .error (.permanent "unsupported payment event type")

def eventStatusMatches (event : CommerceEvent) (required : PaymentStatus) : Bool :=
  if event.eventType = .paymentPaid then
    decide (event.paymentStatus = .paid ∨ event.paymentStatus = .status .captured)
  else decide (event.paymentStatus = .status required)

/-- The last part of `validatePayment`: the state of the payment. -/
def validatePaymentStatus (event : CommerceEvent) (payment : PaymentSnapshot) :
    Except Failure Unit :=
  if event.isPaymentEvent then
    match requiredStatus event.eventType with
    | .error e => .error e
    | .ok required =>
      if required ≠ payment.status then .error (.retryable "payment state has not committed")
      else if eventStatusMatches event required then .ok ()
      else .error (.permanent "payment event status does not match event type")
  else if event.paymentStatus ≠ .blank ∧ event.paymentStatus ≠ .status payment.status then
    .error (.retryable "event payment state has not committed yet")
  else .ok ()

/-- The currency checks of `validatePayment`. A missing currency is a null
pointer, which is retried. -/
def validateCurrency (event : CommerceEvent) (order : OrderRow) : Except Failure Unit :=
  match event.currency with
  | none => .error (.retryable "currency is null")
  | some currency =>
    if event.isPaymentEvent then
      if currency ≠ order.currency then
        .error (.permanent "payment event currency does not match durable order currency")
      else .ok ()
    else if currency ≠ 0 ∧ currency ≠ order.currency then
      .error (.permanent "event currency does not match durable order currency")
    else .ok ()

/-- `validatePayment`. -/
def validatePayment (event : CommerceEvent) (order : OrderRow) (payment : PaymentSnapshot) :
    Except Failure Unit := do
  if event.tenantId ≠ payment.tenantId ∨ event.paymentId.any (fun id => decide (id ≠ payment.id)) ∨
      event.orderId ≠ payment.orderId ∨ order.id ≠ payment.orderId then
    throw (.permanent "payment does not belong to the event tenant and order")
  if payment.amountMinor ≠ order.totalMinor ∨ payment.currency ≠ order.currency then
    throw (.permanent "payment does not match order total or currency")
  if event.isPaymentEvent = false ∧ payment.status ≠ .authorized ∧ payment.status ≠ .captured then
    throw (.retryable "payment is not settled")
  if event.isPaymentEvent = true ∧ event.totalMinor ≠ order.totalMinor then
    throw (.permanent "payment event amount does not match durable order total")
  if event.isPaymentEvent = false ∧ 0 < event.totalMinor ∧ event.totalMinor ≠ order.totalMinor then
    throw (.permanent "event total does not match durable order total")
  validateCurrency event order
  validatePaymentStatus event payment

/-- The payment of an event, unless the event cancels an order outright. -/
def checkPayment (s : Store) (event : CommerceEvent) (order : OrderRow) : Except Failure Unit :=
  if event.isCancellation && !event.isPaymentEvent then .ok ()
  else
    match loadPaymentForEvent s event order with
    | none => .error (.retryable "payment is not visible in PostgreSQL yet")
    | some payment => validatePayment event order payment

/-! ## Effects -/

def isEffect (tenantId : TenantId) (key : EventKey) (e : EffectRow) : Bool :=
  decide (e.tenantId = tenantId ∧ e.effectKey = key)

/-- The row of a new effect, under the version of its order. -/
def newEffect (event : CommerceEvent) (key : EventKey) (kind : EffectKind)
    (payload : CommerceEvent) (status : Option ShipmentStatus) (order : OrderRow) :
    EffectRow where
  tenantId := event.tenantId
  orderId := event.orderId
  effectKey := key
  operation := event.operation
  effectKind := kind
  payload := payload
  notificationStatus := status
  aggregateVersion := order.updatedAt
  status := .queued
  attempts := 0
  claimToken := none
  claimUntil := none

/-- `queueEffect`: nothing when the order is missing or the key is there. -/
def queueEffect (event : CommerceEvent) (key : EventKey) (kind : EffectKind)
    (payload : CommerceEvent) (status : Option ShipmentStatus) (s : Store) : Store :=
  match loadOrder s event.tenantId event.orderId with
  | none => s
  | some order =>
    { s with
      effects := insertMissing (isEffect event.tenantId key)
        (newEffect event key kind payload status order) s.effects }

/-- `queueEffects`. -/
def queueEffects (event downstream : CommerceEvent) (status : ShipmentStatus) (s : Store) :
    Store :=
  queueEffect event (event.notificationEffectKey status) .notification event (some status)
    (queueEffect event downstream.eventKey .event downstream none s)

/-! ## Processing -/

/-- `TERMINAL_ORDER_STATUSES`, which are also the non-cancellable ones. -/
def isTerminalOrder : OrderStatus → Bool
  | .shipped | .delivered | .cancelled | .refunded => true
  | _ => false

/-- `TERMINAL_SHIPMENT_STATUSES`. -/
def isTerminalShipment : ShipmentStatus → Bool
  | .inTransit | .delivered | .cancelled | .returned => true
  | _ => false

/-- `status IN ('pending', 'confirmed', 'paid', 'processing')`. -/
def isOpenOrder : OrderStatus → Bool
  | .pending | .confirmed | .paid | .processing => true
  | _ => false

/-- The `CASE` of the order update: an order that waits starts processing. -/
def startProcessing (now : Nat) (o : OrderRow) : OrderRow :=
  match o.status with
  | .pending | .confirmed | .paid => { o with status := .processing, updatedAt := now }
  | _ => o

def isShipment (tenantId : TenantId) (orderId : OrderId) (number : Nat) (sh : Shipment) : Bool :=
  decide (sh.tenantId = tenantId ∧ sh.orderId = orderId ∧ sh.shipmentNumber = number)

/-- The first active location of a tenant, by id. -/
def firstLocation (s : Store) (tenantId : TenantId) : Option LocationId :=
  (s.locations.filter fun l => decide (l.tenantId = tenantId) && l.isActive).map Location.id
    |>.min?

/-- `shipment-{order}-1`. -/
def newShipment (s : Store) (order : OrderRow) (location : LocationId) : Shipment where
  id := .proposed order.id
  tenantId := order.tenantId
  orderId := order.id
  shipmentNumber := 1
  locationId := location
  status := .labelCreated
  updatedAt := s.now

/-- `INSERT INTO shipments … ON CONFLICT … DO UPDATE SET updated_at`. An id
that another shipment has fails. -/
def upsertShipment (order : OrderRow) (s : Store) : Except Failure Store :=
  match firstLocation s order.tenantId with
  | none => .error (.retryable "no active inventory location for order")
  | some location =>
    if s.shipments.any (isShipment order.tenantId order.id 1) then
      .ok { s with
        shipments := updateWhere (isShipment order.tenantId order.id 1)
          (fun sh => { sh with updatedAt := s.now }) s.shipments }
    else if s.shipments.any fun sh => decide (sh.id = .proposed order.id) then
      .error (.retryable "shipments_pkey")
    else
      .ok { s with shipments := s.shipments ++ [newShipment s order location] }

/-- `cancelOrder`. -/
def cancelOrder (order : OrderRow) (s : Store) : Store :=
  { s with
    orders := updateWhere
      (fun o => isOrder order.tenantId order.id o && isOpenOrder o.status)
      (fun o => { o with status := .cancelled, updatedAt := s.now }) s.orders
    effects := updateWhere
      (fun e => decide (e.tenantId = order.tenantId ∧ e.orderId = order.id ∧
          e.operation = .fulfillment) &&
        decide (e.status = .queued ∨ e.status = .publishing ∨ e.status = .failed))
      (fun e => { e with status := .cancelled, claimToken := none, claimUntil := none }) s.effects
    shipments := updateWhere
      (fun sh => decide (sh.tenantId = order.tenantId ∧ sh.orderId = order.id) &&
        decide (sh.status = .pending ∨ sh.status = .labelCreated))
      (fun sh => { sh with status := .cancelled, updatedAt := s.now }) s.shipments }

/-- The order update of a fulfillment: open, and its first shipment has not
gone out. -/
def isFulfillable (s : Store) (order : OrderRow) (o : OrderRow) : Bool :=
  isOrder order.tenantId order.id o && isOpenOrder o.status &&
    !s.shipments.any fun sh =>
      isShipment order.tenantId order.id 1 sh && isTerminalShipment sh.status

/-- The part of `processOrderInTransaction` after the order moved on. -/
def fulfillOrder (event : CommerceEvent) (order : OrderRow) (s : Store) : Outcome Unit :=
  match upsertShipment order s with
  | .error e => .error e
  | .ok s =>
    match s.shipments.find? (isShipment order.tenantId order.id 1) with
    | none => .error (.retryable "shipment not found")
    | some shipment =>
      if isTerminalShipment shipment.status then .ok ((), s)
      else .ok ((), queueEffects event event.shipmentCreated shipment.status s)

/-- `processOrderInTransaction`. Every result carries the lease token of the
claim, and none of its other fields is read. -/
def processOrderInTransaction (event : CommerceEvent) (s : Store) : Outcome Unit :=
  match loadOrder s event.tenantId event.orderId with
  | none => .error (.retryable "order is not visible in PostgreSQL yet")
  | some order =>
    if order.tenantId ≠ event.tenantId then
      .error (.permanent "event tenant does not own order")
    else
      match checkPayment s event order with
      | .error e => .error e
      | .ok () =>
        if event.isCancellation then
          if isTerminalOrder order.status then .ok ((), s)
          else .ok ((), queueEffects event event.orderCancelled .cancelled (cancelOrder order s))
        else if isTerminalOrder order.status then .ok ((), s)
        else if affected (isFulfillable s order) s.orders = 1 then
          fulfillOrder event order
            { s with
              orders := updateWhere (isFulfillable s order) (startProcessing s.now) s.orders }
        else .ok ((), s)

/-! ## Dispatching -/

/-- The claim of an operation on an order, under a live lease. -/
def holdsClaim (s : Store) (tenantId : TenantId) (key : EventKey) (leaseToken : Nat) : Bool :=
  s.claims.any fun r => isClaim tenantId .orders key r && isHeld s.now leaseToken r

/-- The status of the order an effect of the operation may go out under. -/
def permits : Operation → OrderStatus → Bool
  | .cancellation, .cancelled => true
  | .cancellation, _ => false
  | .fulfillment, status => isOpenOrder status

/-- The fence of an effect on its order. -/
def isCurrent (s : Store) (e : EffectRow) : Bool :=
  s.orders.any fun o =>
    isOrder e.tenantId e.orderId o && decide (o.updatedAt = e.aggregateVersion) &&
      permits e.operation o.status

/-- The effects a delivery may take. -/
def isClaimable (s : Store) (event : CommerceEvent) (leaseToken : Nat) (e : EffectRow) : Bool :=
  decide (e.tenantId = event.tenantId ∧ e.orderId = event.orderId ∧
      e.operation = event.operation) &&
    (decide (e.status = .queued) ||
      decide (e.status = .publishing) && e.claimUntil.any fun t => decide (t ≤ s.now)) &&
    decide (e.attempts < maxClaimAttempts) && isCurrent s e &&
    holdsClaim s event.tenantId event.processingKey leaseToken

/-- The row of a claimed effect. -/
def claimedEffect (s : Store) (e : EffectRow) : EffectRow :=
  { e with
    status := .publishing
    attempts := e.attempts + 1
    claimToken := some s.nextToken
    claimUntil := some s.lease }

/-- `claimEffects`: the effects it returns are the rows it wrote. -/
def claimEffects (event : CommerceEvent) (leaseToken : Nat) (s : Store) :
    Outcome (List EffectRow) :=
  .ok ((s.effects.filter (isClaimable s event leaseToken)).map (claimedEffect s),
    { s with
      nextToken := s.nextToken + 1
      effects := updateWhere (isClaimable s event leaseToken) (claimedEffect s) s.effects })

/-- The row of a claimed effect, as long as the claim on it and the fences
stand. -/
def isDispatchable (s : Store) (effect : EffectRow) (key : EventKey) (leaseToken : Nat)
    (e : EffectRow) : Bool :=
  decide (e.tenantId = effect.tenantId ∧ e.orderId = effect.orderId ∧
      e.effectKey = effect.effectKey) &&
    decide (e.status = .publishing ∧ e.claimToken.isSome ∧ e.claimToken = effect.claimToken) &&
    (e.claimUntil.any fun t => decide (s.now < t)) && isCurrent s e &&
    holdsClaim s effect.tenantId key leaseToken

/-- `validateEffectClaim`. -/
def validateEffectClaim (effect : EffectRow) (key : EventKey) (leaseToken : Nat) (s : Store) :
    Outcome Unit :=
  if s.effects.any (isDispatchable s effect key leaseToken) then .ok ((), s)
  else .error (.retryable "fulfillment effect was superseded or lost its lease before dispatch")

/-- `publishEffect`. -/
def publishEffect (effect : EffectRow) (key : EventKey) (leaseToken : Nat) (s : Store) :
    Outcome Unit :=
  let sel := isDispatchable s effect key leaseToken
  if affected sel s.effects = 1 then
    .ok ((), { s with
      effects := updateWhere sel
        (fun e => { e with status := .published, claimToken := none, claimUntil := none })
        s.effects })
  else
    .error (.retryable "fulfillment effect lease or aggregate fence was lost before completion")

/-- `releaseEffect`: the effect waits for another claim, or has had too
many. -/
def releaseEffect (effect : EffectRow) (s : Store) : Outcome Unit :=
  .ok ((), { s with
    effects := updateWhere
      (fun e => isEffect effect.tenantId effect.effectKey e &&
        decide (e.status = .publishing ∧ e.claimToken.isSome ∧ e.claimToken = effect.claimToken))
      (fun e =>
        { e with
          status := if maxClaimAttempts ≤ e.attempts then .failed else .queued
          claimToken := none
          claimUntil := none }) s.effects })

end CommercePlayground.Fulfillment
