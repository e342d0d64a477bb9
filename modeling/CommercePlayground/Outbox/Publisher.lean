/-
CommercePlayground.Outbox.Publisher — the outbox of checkout: the rows of
`outbox_events` and the publishers that send them.

`finalize_order` queues the paid event of an order, once. A publisher claims a
row under a fresh token, sends it to RabbitMQ with no transaction open, and
records what came of it if the claim still stands. It may stop in between, and
its claim may expire and be taken over by another one.
-/
import Mathlib.Data.List.MinMax
import CommercePlayground.Lib.Table
import CommercePlayground.Lib.Transaction
import CommercePlayground.Schema

namespace CommercePlayground.Outbox

open Lib

/-! ## The table -/

abbrev OutboxId := Nat

/-- `outbox_events.status`. -/
inductive Status where
  | queued | processing | published | failed
  deriving DecidableEq

/-- The codes of a failed publication, and the one of an exhausted row. -/
inductive FailureCode where
  | storedPropagationInvalid | eventProtocolError | eventEncodeFailed
  | messagingUnavailable | messagingTimeout | messagingRejected | messagingUnroutable
  | messagingConfirmUnavailable | outboxStateConflict | publishRetryExhausted
  deriving DecidableEq

/-- A row of `outbox_events`. -/
structure Row where
  id : OutboxId
  event : OutboxEvent
  status : Status
  attempts : Nat
  availableAt : Nat
  claimToken : Option Nat
  claimExpiresAt : Option Nat
  publishedAt : Option Nat
  failureCode : Option FailureCode
  failureMessage : Option String
  failedAt : Option Nat
  createdAt : Nat
  deriving DecidableEq

/-- The database, with its clock and the next token `Uuid::new_v4` gives. -/
structure Store where
  rows : List Row
  now : Nat
  nextToken : Nat
  deriving DecidableEq

/-- `OUTBOX_MAX_ATTEMPTS`. -/
def outboxMaxAttempts : Nat := 3

/-- `OUTBOX_LEASE_SECONDS`. -/
def outboxLeaseSeconds : Nat := 30

def outboxRetryBaseSeconds : Nat := 2

def outboxErrorLimit : Nat := 1000

/-- The row of `finalize_order`. -/
def newRow (now : Nat) (id : OutboxId) (event : OutboxEvent) : Row where
  id := id
  event := event
  status := .queued
  attempts := 0
  availableAt := now
  claimToken := none
  claimExpiresAt := none
  publishedAt := none
  failureCode := none
  failureMessage := none
  failedAt := none
  createdAt := now

/-- `UNIQUE (tenant_id, event_key)`, the key of a paid event. -/
def isEvent (event : OutboxEvent) (r : Row) : Bool :=
  decide (r.event.tenantId = event.tenantId ∧ r.event.orderId = event.orderId)

/-- The INSERT of `finalize_order`. An id that another event has fails it. -/
def insertEvent (id : OutboxId) (event : OutboxEvent) (s : Store) : Store :=
  if s.rows.any (isEvent event) || s.rows.any fun r => decide (r.id = id) then s
  else { s with rows := s.rows ++ [newRow s.now id event] }

def replayed (now : Nat) (r : Row) : Row :=
  { r with
    status := .queued
    attempts := 0
    availableAt := now
    publishedAt := none
    failureCode := none
    failureMessage := none
    failedAt := none }

/-- `replay_failed_outbox_event`, which an operator calls. -/
def replayFailedOutboxEvent (tenantId : TenantId) (id : OutboxId) (s : Store) : Store :=
  let sel := fun r : Row =>
    decide (r.event.tenantId = tenantId ∧ r.id = id ∧ r.status = .failed)
  { s with rows := updateWhere sel (replayed s.now) s.rows }

/-! ## Claiming -/

/-- `claim_expires_at <= CURRENT_TIMESTAMP`. -/
def claimExpired (now : Nat) (r : Row) : Bool := r.claimExpiresAt.any fun t => decide (t ≤ now)

/-- The rows that the first statement of `claim_outbox_event` gives up. -/
def isExhausted (now : Nat) (r : Row) : Bool :=
  decide (outboxMaxAttempts ≤ r.attempts) &&
    (decide (r.status = .queued) || (decide (r.status = .processing) && claimExpired now r))

def exhausted (now : Nat) (r : Row) : Row :=
  { r with
    status := .failed
    failureCode := some (r.failureCode.getD .publishRetryExhausted)
    failureMessage := some (r.failureMessage.getD "outbox publish retry budget exhausted")
    failedAt := some (r.failedAt.getD now)
    claimToken := none
    claimExpiresAt := none }

/-- The rows of `next_event`. -/
def isClaimable (now : Nat) (r : Row) : Bool :=
  decide (r.attempts < outboxMaxAttempts) &&
    (decide (r.status = .queued ∧ r.availableAt ≤ now) ||
      (decide (r.status = .processing) && claimExpired now r))

def claimed (now token : Nat) (r : Row) : Row :=
  { r with
    status := .processing
    attempts := r.attempts + 1
    availableAt := now + outboxLeaseSeconds * second
    claimToken := some token
    claimExpiresAt := some (now + outboxLeaseSeconds * second) }

/-- `ORDER BY created_at FOR UPDATE SKIP LOCKED LIMIT 1`. -/
def nextEvent (locked : OutboxId → Bool) (now : Nat) (rows : List Row) : Option Row :=
  (rows.filter fun r => isClaimable now r && !locked r.id).argmin Row.createdAt

/-- `OutboxClaim`: the row as it was claimed. -/
structure OutboxClaim where
  event : Row
  claimToken : Nat
  deriving DecidableEq

/-- The first statement of `claim_outbox_event`. -/
def failExhausted (s : Store) : Store :=
  { s with rows := updateWhere (isExhausted s.now) (exhausted s.now) s.rows }

/-- `claim_outbox_event`. `locked` are the rows other transactions hold. -/
def claimOutboxEvent (locked : OutboxId → Bool) (s₀ : Store) : Option OutboxClaim × Store :=
  let s := failExhausted s₀
  match nextEvent locked s.now s.rows with
  | none => (none, s)
  | some r =>
    (some ⟨claimed s.now s.nextToken r, s.nextToken⟩,
      { s with
        rows := updateWhere (fun x => decide (x.id = r.id)) (claimed s.now s.nextToken) s.rows
        nextToken := s.nextToken + 1 })

/-! ## Publishing -/

structure PublishError where
  code : FailureCode
  message : String
  deriving DecidableEq

/-- `Confirmation` of the RabbitMQ client; a message that was returned comes with
its acknowledgement. -/
inductive Confirmation where
  | ack (returned : Bool)
  | nack (returned : Bool)
  | notRequested
  deriving DecidableEq

/-- `require_routed_confirmation`. -/
def requireRoutedConfirmation : Confirmation → Except PublishError Unit
  | .ack false => .ok ()
  | .ack true => .error ⟨.messagingUnroutable,
      "RabbitMQ returned the published event because no route accepted it"⟩
  | .nack _ => .error ⟨.messagingRejected,
      "RabbitMQ negatively acknowledged the published event"⟩
  | .notRequested => .error ⟨.messagingConfirmUnavailable,
      "RabbitMQ publisher confirmation was not requested"⟩

/-- What can happen to a publication; the errors of the libraries have their own
messages. -/
inductive Publication where
  | invalidCarrier (message : String)
  | malformedPayload (message : String)
  | noChannel (message : String)
  | encodeFailed (message : String)
  | publishFailed (message : String)
  | confirmFailed (message : String)
  | timedOut
  | confirmed (confirmation : Confirmation)
  deriving DecidableEq

/-- `publish_outbox_message`, by what happened to the message. -/
def publishOutboxMessage : Publication → Except PublishError Unit
  | .invalidCarrier message => .error ⟨.storedPropagationInvalid, message⟩
  | .malformedPayload message => .error ⟨.eventProtocolError, message⟩
  | .noChannel message => .error ⟨.messagingUnavailable, message⟩
  | .encodeFailed message => .error ⟨.eventEncodeFailed, message⟩
  | .publishFailed message => .error ⟨.messagingUnavailable, message⟩
  | .confirmFailed message => .error ⟨.messagingRejected, message⟩
  | .timedOut => .error ⟨.messagingTimeout, "RabbitMQ publish confirmation timed out"⟩
  | .confirmed confirmation => requireRoutedConfirmation confirmation

/-- `is_transient_outbox_error`. -/
def isTransientOutboxError (code : FailureCode) : Bool :=
  decide (code = .messagingUnavailable ∨ code = .messagingTimeout ∨ code = .messagingRejected)

/-- `outbox_failure_status`. -/
def outboxFailureStatus (attempts : Nat) (code : FailureCode) : Status :=
  if !isTransientOutboxError code || decide (outboxMaxAttempts ≤ attempts) then .failed else .queued

/-- `outbox_retry_delay`. -/
def outboxRetryDelay (attempts : Nat) : Nat := max 1 (min (attempts * outboxRetryBaseSeconds) 30)

/-- `bounded_outbox_error`. -/
def boundedOutboxError (message : String) : String :=
  String.ofList (message.toList.take outboxErrorLimit)

/-- `WHERE id=… AND status='processing' AND claim_token=… AND claim_expires_at >
CURRENT_TIMESTAMP`. -/
def isHeld (now : Nat) (claim : OutboxClaim) (r : Row) : Bool :=
  decide (r.id = claim.event.id ∧ r.status = .processing ∧
    r.claimToken = some claim.claimToken) && r.claimExpiresAt.any fun t => decide (now < t)

def markedPublished (now : Nat) (r : Row) : Row :=
  { r with
    status := .published
    publishedAt := some now
    failureCode := none
    failureMessage := none
    failedAt := none
    claimToken := none
    claimExpiresAt := none }

def markedFailed (now attempts : Nat) (error : PublishError) (r : Row) : Row :=
  let next := outboxFailureStatus attempts error.code
  { r with
    status := next
    availableAt := if next = .queued then now + outboxRetryDelay attempts * second else now
    failureCode := some error.code
    failureMessage := some (boundedOutboxError error.message)
    failedAt := if next = .failed then some now else none
    claimToken := none
    claimExpiresAt := none }

/-- The rest of `publish_one_outbox`, once the message was sent. -/
def recordPublication (claim : OutboxClaim) (result : Except PublishError Unit) (s : Store) :
    Except PublishError Bool × Store :=
  match result with
  | .ok () =>
    let rows := updateWhere (isHeld s.now claim) (markedPublished s.now) s.rows
    if affected (isHeld s.now claim) s.rows = 1 then (.ok true, { s with rows := rows })
    else
      (.error ⟨.outboxStateConflict, "confirmed outbox event could not be marked published"⟩,
        { s with rows := rows })
  | .error error =>
    let rows := updateWhere (isHeld s.now claim)
      (markedFailed s.now claim.event.attempts error) s.rows
    if affected (isHeld s.now claim) s.rows = 1 then (.error error, { s with rows := rows })
    else
      (.error ⟨.outboxStateConflict, "failed outbox event could not be durably classified"⟩,
        { s with rows := rows })

/-! ## The publishers -/

/-- A publisher between its claim and its record; `answer` is what came of the
message, once it knows. -/
structure Publisher where
  claim : OutboxClaim
  answer : Option Publication
  deriving DecidableEq

structure State where
  db : Store
  publishers : List Publisher
  deriving DecidableEq

inductive Action where
  | insert (id : OutboxId) (event : OutboxEvent)
  | claim (locked : OutboxId → Bool) (fault : Fault)
  | answer (publisher : Nat) (publication : Publication)
  | record (publisher : Nat) (fault : Fault)
  /-- A publisher stops where it is. -/
  | stop (publisher : Nat)
  | elapse (time : Nat)
  | replay (tenantId : TenantId) (id : OutboxId)

/-- The store a statement leaves over a connection. -/
def underFault (fault : Fault) (s s' : Store) : Store :=
  match fault with
  | .before => s
  | _ => s'

/-- One step of the outbox. -/
def outboxStep (s : State) : Action → Option State
  | .insert id event => some { s with db := insertEvent id event s.db }
  | .claim locked fault =>
    let (claim, db) := claimOutboxEvent locked s.db
    some
      { db := underFault fault s.db db
        publishers := match fault with
          | .none => s.publishers ++ claim.toList.map fun c => ⟨c, none⟩
          | _ => s.publishers }
  | .answer i publication =>
    match s.publishers[i]? with
    | some ⟨claim, none⟩ =>
      some { s with publishers := s.publishers.set i ⟨claim, some publication⟩ }
    | _ => none
  | .record i fault =>
    match s.publishers[i]? with
    | some ⟨claim, some publication⟩ =>
      some
        { db := underFault fault s.db
            (recordPublication claim (publishOutboxMessage publication) s.db).2
          publishers := s.publishers.eraseIdx i }
    | _ => none
  | .stop i => some { s with publishers := s.publishers.eraseIdx i }
  | .elapse time => some { s with db := { s.db with now := s.db.now + time } }
  | .replay tenantId id => some { s with db := replayFailedOutboxEvent tenantId id s.db }

end CommercePlayground.Outbox
