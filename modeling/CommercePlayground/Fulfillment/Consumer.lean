/-
CommercePlayground.Fulfillment.Consumer — `OrderEventConsumer.onOrder` under
the retry interceptor, and any number of its deliveries at once.

A delivery goes from one transaction to the next; between two of its steps
every other delivery, the checkout service and the clock may move. A
transaction commits, fails, or commits and loses the answer; a dispatch
succeeds or fails in any way, the claimed effects come in any order, and the
lease heartbeat beats whenever it likes.
-/
import CommercePlayground.Lib.Transaction
import CommercePlayground.Lib.Transition
import CommercePlayground.Fulfillment.Repository

namespace CommercePlayground.Fulfillment

open Lib

/-! ## Deliveries -/

/-- Where `onOrder` stands. -/
inductive Phase where
  | start
  /-- `processOrderInTransaction`. -/
  | process (leaseToken : Nat)
  /-- `markFailed` inside `processOrder`. -/
  | failProcess (leaseToken : Nat) (error : Failure)
  /-- The first `renewLease`. -/
  | renew (leaseToken : Nat)
  /-- `claimEffects`. -/
  | claim (leaseToken : Nat)
  /-- The head of the loop: `validateEffectClaim`, or `markCompleted`. -/
  | next (leaseToken : Nat) (effects : List EffectRow)
  | dispatch (leaseToken : Nat) (effect : EffectRow) (rest : List EffectRow)
  | publish (leaseToken : Nat) (effect : EffectRow) (rest : List EffectRow)
  /-- `basicAck` and the end of the heartbeat. -/
  | close (leaseToken : Nat)
  /-- `releaseEffect` of the active effect. -/
  | release (leaseToken : Nat) (effect : EffectRow) (error : Failure)
  /-- `markFailed` of an acquired result. -/
  | fail (leaseToken : Nat) (error : Failure)
  /-- An error that reaches the retry interceptor, or a permanent one without
  a result. -/
  | thrown (error : Failure)
  | acked
  | rejected
  /-- Published to the retry queue and acked, because the lease is active. -/
  | deferred
  | crashed

/-- A delivery of an event. -/
structure Delivery where
  event : CommerceEvent
  retries : Nat
  phase : Phase
  /-- The heartbeat could not renew the lease. -/
  lost : Bool

/-- `BROKER_RETRY_COUNT`. -/
def brokerRetryCount : Nat := maxClaimAttempts - 1

/-- How the world answers a step. -/
structure Choice where
  fault : Fault
  /-- The error of a dispatch or an ack. -/
  error : Option Failure
  /-- Which of the claimed effects comes next. -/
  pick : Nat

/-- The error of a statement whose connection failed. -/
def unavailable : Failure := .retryable "database unavailable"

/-- `heartbeat.verify()` throws this. -/
def heartbeatLost : Failure := .retryable "fulfillment claim heartbeat lost lease"

def Delivery.to (d : Delivery) (phase : Phase) : Delivery := { d with phase := phase }

/-- `processOrder` up to the claim. -/
def startStep (c : Choice) (d : Delivery) (s : Store) : Delivery × Store :=
  if !d.event.isFulfillmentTrigger && !d.event.isCancellation then
    (d.to (.thrown (.permanent "unsupported order event type")), s)
  else
    match execute unavailable c.fault s (acquireClaim .orders d.event.processingKey d.event s) with
    | (.error e, s') => (d.to (.thrown e), s')
    | (.ok (.acquired token), s') => (d.to (.process token), s')
    | (.ok (.active _), s') => (d.to .deferred, s')
    | (.ok .completed, s') => (d.to .acked, s')
    | (.ok .deadLettered, s') => (d.to .rejected, s')

/-- `markCompleted`, once the effects are out. -/
def completeStep (c : Choice) (d : Delivery) (token : Nat) (s : Store) : Delivery × Store :=
  match execute unavailable c.fault s
      (markCompleted d.event.tenantId .orders d.event.processingKey token s) with
  | (.error e, s') => (d.to (.fail token e), s')
  | (.ok _, s') => (d.to (.close token), s')

/-- The head of the loop over the claimed effects. -/
def validateStep (c : Choice) (d : Delivery) (token : Nat) (effect : EffectRow)
    (rest : List EffectRow) (s : Store) : Delivery × Store :=
  if d.lost then (d.to (.release token effect heartbeatLost), s)
  else
    match execute unavailable c.fault s (validateEffectClaim effect d.event.processingKey token s) with
    | (.error e, s') => (d.to (.release token effect e), s')
    | (.ok _, s') => (d.to (.dispatch token effect rest), s')

/-- One step of a delivery. -/
def Delivery.step (c : Choice) (d : Delivery) (s : Store) : Option (Delivery × Store) :=
  let key := d.event.processingKey
  match d.phase with
  | .start => some (startStep c d s)
  | .process token =>
    match execute unavailable c.fault s (processOrderInTransaction d.event s) with
    | (.error e, s') => some (d.to (.failProcess token e), s')
    | (.ok _, s') => some ({ d with phase := .renew token, lost := false }, s')
  | .failProcess token error =>
    match execute unavailable c.fault s
        (markFailed .orders d.event.tenantId key token error.isPermanent s) with
    | (.error e, s') => some (d.to (.thrown e), s')
    | (.ok _, s') => some (d.to (.thrown error), s')
  | .renew token =>
    if d.lost then some (d.to (.fail token heartbeatLost), s)
    else
      match execute unavailable c.fault s (renewLease d.event.tenantId .orders key token s) with
      | (.error e, s') => some (d.to (.fail token e), s')
      | (.ok _, s') => some (d.to (.claim token), s')
  | .claim token =>
    if d.lost then some (d.to (.fail token heartbeatLost), s)
    else
      match execute unavailable c.fault s (claimEffects d.event token s) with
      | (.error e, s') => some (d.to (.fail token e), s')
      | (.ok effects, s') => some (d.to (.next token effects), s')
  | .next token [] => some (completeStep c d token s)
  | .next token (effect :: effects) =>
    match (effect :: effects)[c.pick]? with
    | none => none
    | some picked =>
      some (validateStep c d token picked ((effect :: effects).eraseIdx c.pick) s)
  | .dispatch token effect rest =>
    if d.lost then some (d.to (.release token effect heartbeatLost), s)
    else
      match c.error with
      | some e => some (d.to (.release token effect e), s)
      | none => some (d.to (.publish token effect rest), s)
  | .publish token effect rest =>
    if d.lost then some (d.to (.release token effect heartbeatLost), s)
    else
      match execute unavailable c.fault s (publishEffect effect key token s) with
      | (.error e, s') => some (d.to (.release token effect e), s')
      | (.ok _, s') => some (d.to (.next token rest), s')
  | .close token =>
    match c.error with
    | some e => some (d.to (.thrown e), s)
    | none => if d.lost then some (d.to (.fail token heartbeatLost), s) else some (d.to .acked, s)
  | .release token effect error =>
    -- an error of the release is only suppressed
    some (d.to (.fail token error), (execute unavailable c.fault s (releaseEffect effect s)).2)
  | .fail token error =>
    match execute unavailable c.fault s
        (markFailed .orders d.event.tenantId key token error.isPermanent s) with
    | (.error e, s') => some (d.to (.thrown (if error.isPermanent then e else error)), s')
    | (.ok _, s') => some (d.to (if error.isPermanent then .rejected else .thrown error), s')
  | .thrown error =>
    if error.isPermanent then some (d.to .rejected, s)
    else if d.retries < brokerRetryCount then
      some ({ d with phase := .start, retries := d.retries + 1 }, s)
    else some (d.to .rejected, s)
  | .acked | .rejected | .deferred | .crashed => none

/-- The lease token of a delivery with a heartbeat. -/
def Phase.heartbeat : Phase → Option Nat
  | .renew token | .claim token | .next token _ | .dispatch token _ _ | .publish token _ _
  | .close token | .release token _ _ | .fail token _ => some token
  | _ => none

/-- One beat of the heartbeat of a delivery. -/
def Delivery.beat (fault : Fault) (d : Delivery) (s : Store) : Option (Delivery × Store) :=
  match d.phase.heartbeat with
  | none => none
  | some token =>
    if d.lost then none
    else
      match execute unavailable fault s
          (renewLease d.event.tenantId .orders d.event.processingKey token s) with
      | (.error _, s') => some ({ d with lost := true }, s')
      | (.ok _, s') => some (d, s')

/-! ## The system -/

structure State where
  store : Store
  deliveries : List Delivery

/-- What other services and time do. -/
inductive Environment where
  | elapse (time : Nat)
  | payments (rows : List PaymentSnapshot)
  | locations (rows : List Location)
  /-- `create_pending_order` of checkout. -/
  | placeOrder (order : OrderRow)
  /-- Checkout finalizes or cancels a pending order. -/
  | settleOrder (tenantId : TenantId) (orderId : OrderId) (paid : Bool)

/-- Checkout's UPDATE of an order. -/
def settle (s : Store) (tenantId : TenantId) (orderId : OrderId) (paid : Bool) : Store :=
  { s with
    orders := updateWhere
      (fun o => isOrder tenantId orderId o && decide (o.status = .pending))
      (fun o => { o with status := if paid then .paid else .cancelled, updatedAt := s.now })
      s.orders }

def Environment.step (s : Store) : Environment → Option Store
  | .elapse time => some { s with now := s.now + time }
  | .payments rows => some { s with payments := rows }
  | .locations rows => some { s with locations := rows }
  | .placeOrder order =>
    if order.status = .pending ∧ s.orders.any (isOrder order.tenantId order.id) = false then
      some { s with orders := s.orders ++ [order] }
    else none
  | .settleOrder tenantId orderId paid => some (settle s tenantId orderId paid)

/-- What can happen. -/
inductive Action where
  /-- The broker delivers an event, for the first time or again. -/
  | deliver (event : CommerceEvent)
  | run (delivery : Nat) (choice : Choice)
  | heartbeat (delivery : Nat) (fault : Fault)
  | crash (delivery : Nat)
  | environment (e : Environment)

/-- One step of the system. -/
def step (st : State) : Action → Option State
  | .deliver event => some { st with deliveries := st.deliveries ++ [⟨event, 0, .start, false⟩] }
  | .run i c =>
    match st.deliveries[i]? with
    | none => none
    | some d => (d.step c st.store).map fun r => ⟨r.2, st.deliveries.set i r.1⟩
  | .heartbeat i fault =>
    match st.deliveries[i]? with
    | none => none
    | some d => (d.beat fault st.store).map fun r => ⟨r.2, st.deliveries.set i r.1⟩
  | .crash i =>
    match st.deliveries[i]? with
    | none => none
    | some d => some { st with deliveries := st.deliveries.set i (d.to .crashed) }
  | .environment e => (e.step st.store).map fun s => { st with store := s }

/-- The tables before any event: the keys of orders and shipments hold, and
nothing has been claimed or queued. -/
structure Initial (st : State) : Prop where
  orders : KeyUnique (fun o : OrderRow => (o.tenantId, o.id)) st.store.orders
  shipments : KeyUnique (fun sh : Shipment => (sh.tenantId, sh.orderId, sh.shipmentNumber))
    st.store.shipments
  claims : st.store.claims = []
  effects : st.store.effects = []
  deliveries : st.deliveries = []

end CommercePlayground.Fulfillment
