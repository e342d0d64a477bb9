/-
CommercePlayground.Fulfillment.AnalyticsConsumer — `AnalyticsEventConsumer.onEvent` between
the broker, PostgreSQL and ClickHouse.

A message waits in the queue of the consumer, in its retry queue or in its dead letter
queue, or a delivery has it and has not settled it. The consumer claims the event, writes a
row to PostgreSQL and another to ClickHouse, completes the claim and acks. Any of these may
fail, or land and lose its answer; a channel may close under a delivery, a process may
crash, and any number of deliveries run at once beside the orders consumer and the clock.
-/
import CommercePlayground.Lib.Rows
import CommercePlayground.Fulfillment.Consumer
import CommercePlayground.Fulfillment.DeliveryRoute

namespace CommercePlayground.Fulfillment.AnalyticsEventConsumer

open Lib

/-! ## Messages and tables -/

/-- What the consumer reads of a message that parses. -/
structure Event where
  event : CommerceEvent
  /-- `event_type` as the routing key spells it. -/
  typeName : Text
  /-- `exposureKey` of the feature exposure the event reports, if it reports one. -/
  exposure : Option Text
  deriving DecidableEq

/-- `UNIQUE (tenant_id, event_key)` of the PostgreSQL table. The `event_id` that sorts the
ClickHouse table is a digest of the two. -/
def Event.identity (e : Event) : TenantId × EventKey := (e.event.tenantId, e.event.eventKey)

/-- A message of the broker. One without an event has no identity, no trace context, or a
body that does not parse. -/
structure Message where
  event : Option Event
  properties : MessageProperties

/-! ## Deliveries -/

/-- Where `onEvent` stands. -/
inductive Phase where
  | start
  /-- The second transaction of `claimAnalytics`. -/
  | record (event : Event) (leaseToken : Nat)
  /-- `markFailed` inside `claimAnalytics`. -/
  | failRecord (event : Event) (leaseToken : Nat)
  | renew (event : Event) (leaseToken : Nat)
  /-- `insert` of the event. -/
  | ingest (event : Event) (leaseToken : Nat)
  /-- `ingestFeatureExposure`. -/
  | expose (event : Event) (leaseToken : Nat)
  | complete (event : Event) (leaseToken : Nat)
  | ack (event : Event) (leaseToken : Nat)
  /-- The end of the heartbeat. -/
  | close (event : Event) (leaseToken : Nat)
  /-- `markFailed` of an acquired claim. -/
  | fail (event : Event) (leaseToken : Nat) (error : Failure)
  /-- `basicAck` of an event whose claim is completed. -/
  | ackDuplicate (event : Event)
  /-- `publisher.defer`. -/
  | defer
  /-- `basicAck` of a message that was deferred. -/
  | ackDeferred
  | nack
  | reject
  /-- An error that reaches the retry interceptor. -/
  | thrown
  | finished

/-- A delivery of a message. -/
structure Delivery where
  message : Message
  retries : Nat
  phase : Phase
  /-- The heartbeat could not renew the lease. -/
  lost : Bool
  /-- The broker has settled the delivery, or taken the message back. -/
  settled : Bool

def Delivery.to (d : Delivery) (phase : Phase) : Delivery := { d with phase := phase }

/-- How the world answers a step. -/
structure Choice where
  fault : Fault
  /-- The error of a call that is not a transaction. -/
  error : Failure
  /-- The error of an ack is a `RuntimeException`, not an `IOException`. -/
  unchecked : Bool

/-! ## The pipeline -/

structure Pipeline where
  store : Store
  /-- `analytics_events`. -/
  events : List Event
  /-- `analytics.analytics_events`, in the order of `received_at`. -/
  rows : List Event
  /-- `analytics.feature_exposures`. -/
  exposures : List (TenantId × Text)
  queue : List Message
  retry : List Message
  dead : List Message
  deliveries : List Delivery
  /-- The bodies of every message published so far. -/
  published : List (Option Event)

/-- How a delivery is settled. -/
inductive Settlement where
  | ack | reject | requeue

/-- Where a settled message goes. -/
def Pipeline.settle (p : Pipeline) (message : Message) : Settlement → Pipeline
  | .ack => p
  | .reject => { p with dead := p.dead ++ [message] }
  | .requeue => { p with queue := p.queue ++ [message] }

/-- `basicAck`, `basicReject` and `basicNack`. Over a delivery that is settled the channel
answers with an error. -/
def Delivery.settle (settlement : Settlement) (fault : Fault) (answered failed : Phase)
    (d : Delivery) (p : Pipeline) : Delivery × Pipeline :=
  if d.settled then (d.to failed, p)
  else
    match fault with
    | .none => ({ d with settled := true, phase := answered }, p.settle d.message settlement)
    | .before => (d.to failed, p)
    | .after => ({ d with settled := true, phase := failed }, p.settle d.message settlement)

/-- One transaction of a delivery. -/
def Delivery.transact {α : Type} (fault : Fault) (answered : α → Phase)
    (failed : Failure → Phase) (r : Outcome α) (d : Delivery) (p : Pipeline) :
    Delivery × Pipeline :=
  match execute unavailable fault p.store r with
  | (.ok a, s) => (d.to (answered a), { p with store := s })
  | (.error e, s) => (d.to (failed e), { p with store := s })

/-- What a claim decides. -/
def claimed (e : Event) : ClaimDecision → Phase
  | .acquired token => .record e token
  | .active _ => .defer
  | .completed => .ackDuplicate e
  | .deadLettered => .reject

/-- `onEvent` up to the claim. -/
def start (names : QueueNames) (fault : Fault) (d : Delivery) (p : Pipeline) :
    Delivery × Pipeline :=
  match d.message.event with
  | none => (d.to .reject, p)
  | some e =>
    match names.validate .analytics d.message.properties e.typeName with
    | .error error => (d.to (if error.isPermanent then .reject else .thrown), p)
    | .ok () =>
      d.transact fault (claimed e) (fun _ => .thrown)
        (acquireClaim .analytics (e.event.claimKey .analytics) e.event p.store) p

/-- `INSERT INTO analytics_events … ON CONFLICT (tenant_id, event_key) DO NOTHING`. -/
def insertEvent (e : Event) (p : Pipeline) : Pipeline :=
  { p with events := insertMissing (fun r => decide (r.identity = e.identity)) e p.events }

/-- The row `ingest` sends to ClickHouse. -/
def insertRow (e : Event) (p : Pipeline) : Pipeline := { p with rows := p.rows ++ [e] }

/-- The row `ingestFeatureExposure` sends, if there is one. -/
def insertExposure (e : Event) (p : Pipeline) : Pipeline :=
  { p with exposures := p.exposures ++ (e.exposure.map fun key => (e.event.tenantId, key)).toList }

/-- A write that is no transaction of the store: it lands, or not, and is answered, or
not. -/
def Delivery.write (fault : Fault) (answered failed : Phase) (f : Pipeline → Pipeline)
    (d : Delivery) (p : Pipeline) : Delivery × Pipeline :=
  match fault with
  | .none => (d.to answered, f p)
  | .before => (d.to failed, p)
  | .after => (d.to failed, f p)

/-- `deferUntilClaimLeaseExpires`, up to the ack. -/
def defer (c : Choice) (d : Delivery) (p : Pipeline) : Delivery × Pipeline :=
  match preserveOriginalRoute d.message.properties d.message.properties with
  | .error error => (d.to (if error.isPermanent then .reject else .nack), p)
  | .ok properties =>
    let copy : Message := { d.message with properties := properties }
    match c.fault with
    | .none => (d.to .ackDeferred, { p with retry := p.retry ++ [copy] })
    | .before => (d.to (if c.error.isPermanent then .reject else .nack), p)
    -- the copy is there, its confirm is not
    | .after => (d.to .nack, { p with retry := p.retry ++ [copy] })

/-- One step of a delivery. -/
def Delivery.step (names : QueueNames) (c : Choice) (d : Delivery) (p : Pipeline) :
    Option (Delivery × Pipeline) :=
  match d.phase with
  | .start => some (start names c.fault d p)
  | .record e token =>
    some ({ d with lost := false }.write c.fault (.renew e token) (.failRecord e token)
      (insertEvent e) p)
  | .failRecord e token =>
    -- an error of `markFailed` is only suppressed
    some (d.transact c.fault (fun _ => .thrown) (fun _ => .thrown)
      (markFailed .analytics e.event.tenantId e.event.eventKey token false p.store) p)
  | .renew e token =>
    if d.lost then some (d.to (.fail e token heartbeatLost), p)
    else
      some (d.transact c.fault (fun _ => .ingest e token) (.fail e token)
        (renewLease e.event.tenantId .analytics e.event.eventKey token p.store) p)
  | .ingest e token =>
    if d.lost then some (d.to (.fail e token heartbeatLost), p)
    else some (d.write c.fault (.expose e token) (.fail e token c.error) (insertRow e) p)
  | .expose e token =>
    match e.exposure with
    | none => some (d.to (.complete e token), p)
    | some _ =>
      some (d.write c.fault (.complete e token) (.fail e token c.error) (insertExposure e) p)
  | .complete e token =>
    if d.lost then some (d.to (.fail e token heartbeatLost), p)
    else
      some (d.transact c.fault (fun _ => .ack e token) (.fail e token)
        (markCompleted e.event.tenantId .analytics e.event.eventKey token p.store) p)
  | .ack e token =>
    some (d.settle .ack c.fault (.close e token)
      (if c.unchecked then .fail e token c.error else .thrown) p)
  | .close e token =>
    if d.lost then some (d.to (.fail e token heartbeatLost), p) else some (d.to .finished, p)
  | .fail e token error =>
    some (d.transact c.fault (fun _ => if error.isPermanent then .reject else .thrown)
      (fun _ => .thrown)
      (markFailed .analytics e.event.tenantId e.event.eventKey token error.isPermanent p.store) p)
  | .ackDuplicate _ => some (d.settle .ack c.fault .finished .thrown p)
  | .defer => some (defer c d p)
  | .ackDeferred => some (d.settle .ack c.fault .finished .nack p)
  | .nack => some (d.settle .requeue c.fault .finished .thrown p)
  | .reject => some (d.settle .reject c.fault .finished .thrown p)
  | .thrown =>
    if d.retries < brokerRetryCount then
      some ({ d with phase := .start, retries := d.retries + 1 }, p)
    -- `manualRejectingRecoverer`
    else some (d.settle .reject c.fault .finished .finished p)
  | .finished => none

/-- The event and lease token of a delivery with a heartbeat. -/
def Phase.heartbeat : Phase → Option (Event × Nat)
  | .renew e token | .ingest e token | .expose e token | .complete e token | .ack e token
  | .close e token | .fail e token _ => some (e, token)
  | _ => none

/-- One beat of the heartbeat of a delivery. -/
def Delivery.beat (fault : Fault) (d : Delivery) (p : Pipeline) : Option (Delivery × Pipeline) :=
  match d.phase.heartbeat with
  | none => none
  | some (e, token) =>
    if d.lost then none
    else
      match execute unavailable fault p.store
          (renewLease e.event.tenantId .analytics e.event.eventKey token p.store) with
      | (.error _, s) => some ({ d with lost := true }, { p with store := s })
      | (.ok _, s) => some (d, { p with store := s })

/-- The channel closes: the broker takes back what is not settled. -/
def Delivery.disconnect (d : Delivery) (p : Pipeline) : Delivery × Pipeline :=
  if d.settled then (d, p) else ({ d with settled := true }, p.settle d.message .requeue)

/-! ## Runs -/

/-- Whether a step of the claims is one of a consumer. -/
def touches (consumer : Consumer) : ClaimAction → Bool
  | .acquire c _ _ | .renew _ c _ _ | .complete _ c _ _ | .fail _ c _ _ _ => decide (c = consumer)
  | .environment _ _ => false

/-- What can happen. -/
inductive Action where
  | publish (message : Message)
  /-- The broker delivers a message of the queue. -/
  | deliver (message : Nat)
  | run (delivery : Nat) (choice : Choice)
  | heartbeat (delivery : Nat) (fault : Fault)
  | disconnect (delivery : Nat)
  | crash (delivery : Nat)
  /-- The time of a message in the retry queue is up. -/
  | expire (message : Nat)
  /-- The orders consumer, checkout and the clock. -/
  | claims (action : ClaimAction)

/-- A delivery has moved. -/
def Pipeline.moved (i : Nat) (r : Delivery × Pipeline) : Pipeline :=
  { r.2 with deliveries := r.2.deliveries.set i r.1 }

/-- One step of the pipeline. -/
def step (names : QueueNames) (p : Pipeline) : Action → Option Pipeline
  | .publish m =>
    some { p with queue := p.queue ++ [m], published := p.published ++ [m.event] }
  | .deliver i =>
    match p.queue[i]? with
    | none => none
    | some m =>
      some { p with
        queue := p.queue.eraseIdx i
        deliveries := p.deliveries ++ [⟨m, 0, .start, false, false⟩] }
  | .run i c =>
    match p.deliveries[i]? with
    | none => none
    | some d => (d.step names c p).map (Pipeline.moved i)
  | .heartbeat i fault =>
    match p.deliveries[i]? with
    | none => none
    | some d => (d.beat fault p).map (Pipeline.moved i)
  | .disconnect i =>
    match p.deliveries[i]? with
    | none => none
    | some d => some (Pipeline.moved i (d.disconnect p))
  | .crash i =>
    match p.deliveries[i]? with
    | none => none
    | some d => some (Pipeline.moved i ((d.to .finished).disconnect p))
  | .expire i =>
    match p.retry[i]? with
    | none => none
    | some m =>
      some { p with
        retry := p.retry.eraseIdx i
        queue := p.queue ++
          [{ m with properties := names.returned .analytics m.properties }] }
  | .claims a =>
    if touches .analytics a then none else (claimStep p.store a).map fun s => { p with store := s }

/-- Before the first message. -/
structure Initial (p : Pipeline) : Prop where
  claims : p.store.claims = []
  events : p.events = []
  rows : p.rows = []
  queue : p.queue = []
  retry : p.retry = []
  dead : p.dead = []
  deliveries : p.deliveries = []
  published : p.published = []

/-- `SELECT … FINAL`: `ReplacingMergeTree` keeps the newest row of every `event_id`. -/
def Pipeline.final (p : Pipeline) : List Event := newest Event.identity p.rows

end CommercePlayground.Fulfillment.AnalyticsEventConsumer
