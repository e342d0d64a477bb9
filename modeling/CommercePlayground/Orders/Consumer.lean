/-
CommercePlayground.Orders.Consumer — `process_delivery` and its recovery, over
any number of deliveries at once.

The broker keeps every message until it is settled and may deliver an unsettled
one at any time, again and to several consumers. A transaction commits, fails or
loses its answer; a publish is confirmed, refused, or its outcome stays unknown;
an acknowledgement may be lost either way. Consumers crash between two steps.
-/
import CommercePlayground.Lib.Transaction
import CommercePlayground.Lib.Transition
import CommercePlayground.Orders.Inbox

namespace CommercePlayground.Orders

open Lib

/-! ## Messages -/

/-- `MAX_ATTEMPTS`. -/
def maxAttempts : Nat := 3

/-- `OrderMessage`; the id `0` is a blank text. -/
structure OrderMessage where
  eventId : EventId
  orderId : OrderId
  tenantId : TenantId
  customerId : CustomerId
  poison : Bool
  attempt : Nat
  deriving DecidableEq

/-- The header `x-order-attempt`. -/
inductive AttemptHeader where
  | absent
  | value (attempt : Nat)
  | invalid
  deriving DecidableEq

/-- A message in the queue. -/
structure Message where
  /-- The parsed body, if it parses. -/
  body : Option OrderMessage
  header : AttemptHeader
  messageId : Option EventId
  /-- Whether the propagation headers and the orphan marker are valid. -/
  validContext : Bool
  /-- A retry message whose publication was confirmed. -/
  confirmedRetry : Bool
  /-- Acked, or rejected for good. -/
  settled : Bool
  deriving DecidableEq

/-- `canonical_attempt`. -/
def canonicalAttempt (attempt : Nat) (header : AttemptHeader) : Except String Nat :=
  if attempt = 0 then .error "order attempt must be positive"
  else if maxAttempts < attempt then .error "order attempt exceeds MAX_ATTEMPTS"
  else
    match header with
    | .absent => .ok attempt
    | .invalid => .error "x-order-attempt has an invalid AMQP type or value"
    | .value n =>
      if n = 0 then .error "x-order-attempt has an invalid AMQP type or value"
      else if n ≠ attempt then .error "order body/header attempts disagree"
      else .ok attempt

/-- `validate_message`. -/
def validateMessage (m : OrderMessage) (messageId : Option EventId) : Except String Unit :=
  if m.eventId = 0 then .error "order event_id is empty"
  else if m.orderId = 0 then .error "order order_id is empty"
  else if m.tenantId = 0 then .error "order tenant_id is empty"
  else if m.customerId = 0 then .error "order customer_id is empty"
  else if messageId.any fun id => decide (id ≠ m.eventId) then
    .error "RabbitMQ message_id does not match order event_id"
  else .ok ()

/-- The checks of `process_delivery` before the claim. -/
def parse (m : Message) : Except String OrderMessage :=
  match m.body with
  | none => .error "invalid JSON"
  | some body => do
    let _ ← canonicalAttempt body.attempt m.header
    validateMessage body m.messageId
    pure body

/-- The message `republish` sends: the body and the header name the attempt. -/
def republished (body : OrderMessage) (attempt : Nat) (confirmed : Bool) : Message where
  body := some { body with attempt := attempt }
  header := .value attempt
  messageId := some body.eventId
  validContext := true
  confirmedRetry := confirmed
  settled := false

/-! ## Deliveries -/

/-- Where a delivery stands. -/
inductive Phase where
  | start
  | publishRetry (claim : InboxClaim) (body : OrderMessage)
  | publishDead (claim : InboxClaim)
  | markRetry (claim : InboxClaim)
  | markDead (claim : InboxClaim)
  | complete (claim : InboxClaim)
  /-- `release_claim` of `recover_failed_delivery`. -/
  | release (claim : InboxClaim)
  /-- `recover_malformed_delivery`. -/
  | malformed
  /-- `recover_invalid_context`. -/
  | reject
  | acking
  | acked
  | rejected
  /-- Nacked with requeue. -/
  | requeued
  /-- The consumer reconnects without settling, or crashed. -/
  | abandoned
  deriving DecidableEq

/-- A delivery of the message at a position of the queue. -/
structure Delivery where
  message : Nat
  phase : Phase
  deriving DecidableEq

/-- The outcome of a publish. When it is not confirmed the broker may have the
message all the same. -/
inductive Published where
  | confirmed
  | refused (stored : Bool)
  | unknown (stored : Bool)

/-- How the world answers a step. -/
structure Choice where
  fault : Fault
  publish : Published
  /-- Whether the consumer hears of its ack or nack. -/
  heard : Bool
  /-- Whether the broker gets it. -/
  settles : Bool

structure State where
  inbox : Inbox
  messages : List Message
  deliveries : List Delivery
  /-- The messages whose payload is in the dead-letter queue. -/
  dead : List Nat

/-- The step after a claim. -/
def plan (body : OrderMessage) (c : InboxClaim) : Phase :=
  if maxAttempts < c.attempts then .publishDead c
  else if body.poison then
    if maxAttempts < c.attempts + 1 then .publishDead c else .publishRetry c body
  else .complete c

/-- A step of a delivery: its new phase, the inbox, the messages and the dead
letters. -/
structure Outcome where
  phase : Phase
  inbox : Inbox
  messages : List Message
  dead : List Nat

def State.keep (st : State) (phase : Phase) : Outcome := ⟨phase, st.inbox, st.messages, st.dead⟩

def State.store (st : State) (inbox : Inbox) (phase : Phase) : Outcome :=
  ⟨phase, inbox, st.messages, st.dead⟩

def settle (m : Message) : Message := { m with settled := true }

def unavailable : String := "orders durable inbox database unavailable"

/-- `process_delivery` up to the claim. -/
def startStep (c : Choice) (m : Message) (st : State) : Outcome :=
  if !m.validContext then st.keep .reject
  else
    match parse m with
    | .error _ => st.keep .malformed
    | .ok body =>
      match execute unavailable c.fault st.inbox
          (claim body.tenantId body.eventId body.attempt st.inbox) with
      | (.error _, s) => st.store s .abandoned
      | (.ok (.claimed claim), s) => st.store s (plan body claim)
      | (.ok .alreadyHandled, s) => st.store s .acking
      | (.ok .inFlight, s) => st.store s .abandoned

/-- Where a publish leads. -/
def Published.next (confirmed refused : Phase) : Published → Phase
  | .confirmed => confirmed
  | .refused _ => refused
  | .unknown _ => .abandoned

def Published.stored : Published → Bool
  | .confirmed => true
  | .refused stored | .unknown stored => stored

def Published.isConfirmed : Published → Bool
  | .confirmed => true
  | _ => false

/-- One step of a delivery of the message `m`. -/
def Delivery.step (c : Choice) (d : Delivery) (m : Message) (st : State) : Option Outcome :=
  match d.phase with
  | .start => some (startStep c m st)
  | .publishRetry claim body =>
    some
      { st.keep (c.publish.next (.markRetry claim) (.release claim)) with
        messages := if c.publish.stored then
            st.messages ++ [republished body (claim.attempts + 1) c.publish.isConfirmed]
          else st.messages }
  | .publishDead claim =>
    some
      { st.keep (c.publish.next (.markDead claim) (.release claim)) with
        dead := if c.publish.stored then st.dead ++ [d.message] else st.dead }
  | .markRetry claim =>
    match execute unavailable c.fault st.inbox (markRetryScheduled claim st.inbox) with
    | (.error _, s) => some (st.store s .abandoned)
    | (.ok _, s) => some (st.store s .acking)
  | .markDead claim =>
    match execute unavailable c.fault st.inbox (markDeadLettered claim st.inbox) with
    | (.error _, s) => some (st.store s .abandoned)
    | (.ok _, s) => some (st.store s .acking)
  | .complete claim =>
    match execute unavailable c.fault st.inbox (markCompleted claim st.inbox) with
    | (.error _, s) => some (st.store s (.release claim))
    | (.ok _, s) => some (st.store s .acking)
  | .release claim =>
    match execute unavailable c.fault st.inbox (releaseClaim claim st.inbox) with
    | (.error _, s) => some (st.store s .abandoned)
    | (.ok _, s) => some (st.store s (if c.heard then .requeued else .abandoned))
  | .malformed =>
    some
      { st.keep (c.publish.next .acking .abandoned) with
        dead := if c.publish.stored then st.dead ++ [d.message] else st.dead }
  | .reject =>
    -- the queue dead-letters what is rejected without requeue
    some
      { st.keep (if c.heard then .rejected else .abandoned) with
        messages := if c.settles then st.messages.modify d.message settle else st.messages
        dead := if c.settles then st.dead ++ [d.message] else st.dead }
  | .acking =>
    some
      { st.keep (if c.heard then .acked else .abandoned) with
        messages := if c.settles then st.messages.modify d.message settle else st.messages }
  | .acked | .rejected | .requeued | .abandoned => none

/-! ## The system -/

/-- What can happen. -/
inductive Action where
  /-- A producer publishes a message. -/
  | produce (m : Message)
  /-- The broker delivers an unsettled message. -/
  | deliver (message : Nat)
  | run (delivery : Nat) (choice : Choice)
  | crash (delivery : Nat)
  | elapse (time : Nat)

/-- One step of the system. -/
def step (st : State) : Action → Option State
  | .produce m =>
    some { st with
      messages := st.messages ++ [{ m with settled := false, confirmedRetry := false }] }
  | .deliver j =>
    match st.messages[j]? with
    | none => none
    | some m =>
      if m.settled then none
      else some { st with deliveries := st.deliveries ++ [⟨j, .start⟩] }
  | .run i c =>
    match st.deliveries[i]? with
    | none => none
    | some d =>
      match st.messages[d.message]? with
      | none => none
      | some m =>
        (d.step c m st).map fun o =>
          { inbox := o.inbox
            messages := o.messages
            deliveries := st.deliveries.set i { d with phase := o.phase }
            dead := o.dead }
  | .crash i =>
    match st.deliveries[i]? with
    | none => none
    | some d => some { st with deliveries := st.deliveries.set i { d with phase := .abandoned } }
  | .elapse time => some { st with inbox := { st.inbox with now := st.inbox.now + time } }

/-- Before the first message. -/
structure Initial (st : State) : Prop where
  rows : st.inbox.rows = []
  messages : st.messages = []
  deliveries : st.deliveries = []

end CommercePlayground.Orders
