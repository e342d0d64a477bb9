/-
CommercePlayground.Notifications.Store — the deliveries of the notifications
service and the workers that send them.

A delivery is a row of `notification_deliveries`; every attempt at it has a row of
`notification_delivery_attempts`. A worker takes a delivery under a lease token
and reports one of three ends, each in one transaction over both tables. The
fourth end, `reclaim_exhausted`, is one UPDATE and then one INSERT for each row it
changed, outside any transaction: a worker can stop between them.
-/
import Mathlib.Data.List.MinMax
import Mathlib.Data.Prod.Lex
import CommercePlayground.Lib.Table
import CommercePlayground.Lib.Transaction
import CommercePlayground.Schema

namespace CommercePlayground.Notifications

open Lib

/-! ## Tables -/

abbrev DeliveryId := Nat
abbrev EventKey := Nat

inductive Channel where
  | email | webhook | inApp
  deriving DecidableEq

/-- `notification_deliveries.status`. -/
inductive Status where
  | accepted | queued | processing | delivered | failed | deadLettered
  deriving DecidableEq

/-- `notification_delivery_attempts.outcome`. -/
inductive Outcome where
  | processing | delivered | retry | deadLettered
  deriving DecidableEq

/-- A row of `notification_deliveries`. -/
structure Delivery where
  id : DeliveryId
  tenantId : TenantId
  eventKey : EventKey
  orderId : OrderId
  channel : Channel
  status : Status
  attempts : Nat
  nextAttemptAt : Nat
  leaseUntil : Option Nat
  leaseToken : Option Nat
  lastError : Option String
  deliveredAt : Option Nat
  acknowledgedAt : Option Nat
  deadLetteredAt : Option Nat
  createdAt : Nat
  updatedAt : Nat
  deriving DecidableEq

/-- A row of `notification_delivery_attempts`. -/
structure Attempt where
  deliveryId : DeliveryId
  tenantId : TenantId
  attempt : Nat
  outcome : Outcome
  error : Option String
  startedAt : Nat
  completedAt : Option Nat
  deriving DecidableEq

/-- The database, with its clock and what `Uuid::new_v4` gives next. -/
structure Store where
  deliveries : List Delivery
  attempts : List Attempt
  orders : List (TenantId × OrderId)
  now : Nat
  nextId : DeliveryId
  nextToken : Nat
  deriving DecidableEq

def maxAttempts : Nat := 4

def maxErrorLength : Nat := 512

/-! ## Recording -/

structure NotificationRequest where
  tenantId : Option TenantId
  orderId : OrderId
  channel : Channel
  deriving DecidableEq

structure DeliveryRecord where
  id : DeliveryId
  attempts : Nat
  status : Status
  channel : Channel
  deriving DecidableEq

inductive StoreError where
  | timeout
  | invalid (message : String)
  | conflict
  | database
  deriving DecidableEq

/-- `ON CONFLICT (tenant_id, event_key)`. -/
def isEvent (tenantId : TenantId) (eventKey : EventKey) (d : Delivery) : Bool :=
  decide (d.tenantId = tenantId ∧ d.eventKey = eventKey)

def newDelivery (s : Store) (tenantId : TenantId) (eventKey : EventKey)
    (request : NotificationRequest) : Delivery where
  id := s.nextId
  tenantId := tenantId
  eventKey := eventKey
  orderId := request.orderId
  channel := request.channel
  status := .queued
  attempts := 0
  nextAttemptAt := s.now
  leaseUntil := none
  leaseToken := none
  lastError := none
  deliveredAt := none
  acknowledgedAt := none
  deadLetteredAt := none
  createdAt := s.now
  updatedAt := s.now

def touched (now : Nat) (d : Delivery) : Delivery := { d with updatedAt := now }

/-- The answer of `record_delivery`. -/
def deliveryRecord (request : NotificationRequest) (d : Delivery) :
    Except StoreError DeliveryRecord :=
  if d.orderId ≠ request.orderId ∨ d.channel ≠ request.channel then .error .conflict
  else .ok ⟨d.id, d.attempts, d.status, d.channel⟩

/-- `record_delivery`; `carrier` is what `validate_durable_context` says of the
headers. A conflict is found after the row was touched. -/
def recordDelivery (carrier : Except String Unit) (request : NotificationRequest)
    (eventKey : EventKey) (s : Store) : Except StoreError DeliveryRecord × Store :=
  match carrier, request.tenantId with
  | .error message, _ => (.error (.invalid ("invalid W3C propagation: " ++ message)), s)
  | .ok (), none => (.error (.invalid "tenant identity is required"), s)
  | .ok (), some tenantId =>
    match s.deliveries.find? (isEvent tenantId eventKey) with
    | some d =>
      let rows := updateWhere (isEvent tenantId eventKey) (touched s.now) s.deliveries
      (deliveryRecord request d, { s with deliveries := rows })
    | none =>
      if s.orders.contains (tenantId, request.orderId) then
        (deliveryRecord request (newDelivery s tenantId eventKey request),
          { s with
            deliveries := s.deliveries ++ [newDelivery s tenantId eventKey request]
            nextId := s.nextId + 1 })
      else (.error .database, s)

/-! ## The log of attempts -/

/-- `UNIQUE (delivery_id, attempt)`. -/
def isAttempt (deliveryId : DeliveryId) (attempt : Nat) (l : Attempt) : Bool :=
  decide (l.deliveryId = deliveryId ∧ l.attempt = attempt)

/-- `INSERT … ON CONFLICT (delivery_id, attempt) DO UPDATE`. -/
def upsertAttempt (new : Attempt) (f : Attempt → Attempt) (t : List Attempt) : List Attempt :=
  if t.any (isAttempt new.deliveryId new.attempt) then
    updateWhere (isAttempt new.deliveryId new.attempt) f t
  else t ++ [new]

/-! ## Claiming -/

/-- `lease_until <= CURRENT_TIMESTAMP`. -/
def leaseExpired (now : Nat) (d : Delivery) : Bool := d.leaseUntil.any fun t => decide (t ≤ now)

/-- The rows of `candidate`. -/
def isClaimable (now : Nat) (d : Delivery) : Bool :=
  decide (d.attempts < maxAttempts) &&
    (decide ((d.status = .accepted ∨ d.status = .queued) ∧ d.nextAttemptAt ≤ now) ||
      (decide (d.status = .processing) && leaseExpired now d))

def claimed (now token : Nat) (d : Delivery) : Delivery :=
  { d with
    status := .processing
    attempts := d.attempts + 1
    leaseUntil := some (now + 30 * second)
    leaseToken := some token
    updatedAt := now }

/-- `ORDER BY next_attempt_at, created_at, id`. -/
def Delivery.order (d : Delivery) : Nat ×ₗ (Nat ×ₗ Nat) :=
  toLex (d.nextAttemptAt, toLex (d.createdAt, d.id))

/-- `FOR UPDATE SKIP LOCKED LIMIT 1`. -/
def candidate (locked : DeliveryId → Bool) (s : Store) : Option Delivery :=
  (s.deliveries.filter fun d => isClaimable s.now d && !locked d.id).argmin Delivery.order

/-- `DeliveryJob`. -/
structure DeliveryJob where
  id : DeliveryId
  tenantId : TenantId
  eventKey : EventKey
  orderId : OrderId
  channel : Channel
  attempt : Nat
  leaseToken : Nat
  deriving DecidableEq

def startedAttempt (now : Nat) (job : DeliveryJob) : Attempt where
  deliveryId := job.id
  tenantId := job.tenantId
  attempt := job.attempt
  outcome := .processing
  error := none
  startedAt := now
  completedAt := none

def restarted (now : Nat) (l : Attempt) : Attempt :=
  { l with outcome := .processing, error := none, startedAt := now, completedAt := none }

/-- The job of a delivery that is claimed. -/
def jobOf (token : Nat) (d : Delivery) : DeliveryJob where
  id := d.id
  tenantId := d.tenantId
  eventKey := d.eventKey
  orderId := d.orderId
  channel := d.channel
  attempt := d.attempts + 1
  leaseToken := token

/-- `claim_next`. `locked` are the rows other transactions hold. -/
def claimNext (locked : DeliveryId → Bool) (s : Store) : Option DeliveryJob × Store :=
  match candidate locked s with
  | none => (none, s)
  | some d =>
    let job := jobOf s.nextToken d
    (some job,
      { s with
        deliveries := updateWhere (fun x => decide (x.id = d.id)) (claimed s.now s.nextToken)
          s.deliveries
        attempts := upsertAttempt (startedAttempt s.now job) (restarted s.now) s.attempts
        nextToken := s.nextToken + 1 })

/-! ## Giving up -/

/-- The rows of `reclaim_exhausted`. -/
def isExhausted (now : Nat) (d : Delivery) : Bool :=
  decide (maxAttempts ≤ d.attempts) &&
    (decide (d.status = .accepted ∨ d.status = .queued) ||
      (decide (d.status = .processing) && leaseExpired now d))

def exhausted (now : Nat) (d : Delivery) : Delivery :=
  { d with
    status := .deadLettered
    deadLetteredAt := some (d.deadLetteredAt.getD now)
    lastError := some (d.lastError.getD "delivery retry budget exhausted")
    leaseUntil := none
    leaseToken := none
    updatedAt := now }

/-- A row that `reclaim_exhausted` has changed and not logged yet. -/
structure Unlogged where
  id : DeliveryId
  tenantId : TenantId
  attempt : Nat
  deriving DecidableEq

/-- The UPDATE of `reclaim_exhausted`. -/
def reclaimExhausted (s : Store) : List Unlogged × Store :=
  ((s.deliveries.filter (isExhausted s.now)).map fun d => ⟨d.id, d.tenantId, d.attempts⟩,
    { s with deliveries := updateWhere (isExhausted s.now) (exhausted s.now) s.deliveries })

def exhaustedAttempt (now : Nat) (row : Unlogged) : Attempt where
  deliveryId := row.id
  tenantId := row.tenantId
  attempt := row.attempt
  outcome := .deadLettered
  error := some "delivery retry budget exhausted"
  startedAt := now
  completedAt := some now

def endedAttempt (now : Nat) (outcome : Outcome) (error : Option String) (l : Attempt) : Attempt :=
  { l with outcome := outcome, error := error, completedAt := some now }

/-- The INSERT of `reclaim_exhausted`. -/
def recordExhausted (row : Unlogged) (s : Store) : Store :=
  let ended := endedAttempt s.now .deadLettered (some "delivery retry budget exhausted")
  { s with attempts := upsertAttempt (exhaustedAttempt s.now row) ended s.attempts }

/-! ## Reporting -/

/-- `WHERE id = … AND tenant_id = … AND status = 'processing' AND lease_token = …`. -/
def isLeased (job : DeliveryJob) (d : Delivery) : Bool :=
  decide (d.id = job.id ∧ d.tenantId = job.tenantId ∧ d.status = .processing ∧
    d.leaseToken = some job.leaseToken)

/-- `WHERE delivery_id = … AND tenant_id = … AND attempt = …`. -/
def isJobAttempt (job : DeliveryJob) (l : Attempt) : Bool :=
  decide (l.deliveryId = job.id ∧ l.tenantId = job.tenantId ∧ l.attempt = job.attempt)

/-- The end of an attempt as its worker reports it: the two UPDATEs of one
transaction, which the loss of the lease rolls back. -/
def finishAttempt (job : DeliveryJob) (f : Delivery → Delivery) (outcome : Outcome)
    (error : Option String) (lost : String) (s : Store) : Except String Store :=
  if affected (isLeased job) s.deliveries = 1 then
    .ok { s with
      deliveries := updateWhere (isLeased job) f s.deliveries
      attempts := updateWhere (isJobAttempt job) (endedAttempt s.now outcome error) s.attempts }
  else .error lost

def delivered (now : Nat) (d : Delivery) : Delivery :=
  { d with
    status := .delivered
    deliveredAt := some now
    acknowledgedAt := some now
    leaseUntil := none
    leaseToken := none
    lastError := none
    updatedAt := now }

def deadLettered (now : Nat) (error : String) (d : Delivery) : Delivery :=
  { d with
    status := .deadLettered
    deadLetteredAt := some now
    leaseUntil := none
    leaseToken := none
    lastError := some error
    updatedAt := now }

def requeued (now delay : Nat) (error : String) (d : Delivery) : Delivery :=
  { d with
    status := .queued
    nextAttemptAt := now + delay * second
    leaseUntil := none
    leaseToken := none
    lastError := some error
    updatedAt := now }

/-- `backoff`. -/
def backoff (attempt : Nat) : Nat := min (2 ^ min (attempt - 1) 4) 30

/-- `truncate_error`. -/
def truncateError (error : String) : String := String.ofList (error.toList.take maxErrorLength)

/-- `mark_delivered`. -/
def markDelivered (job : DeliveryJob) (s : Store) : Except String Store :=
  finishAttempt job (delivered s.now) .delivered none
    "notification delivery lease was lost before acknowledgement" s

/-- `mark_failed_or_dead_letter`. -/
def markFailedOrDeadLetter (job : DeliveryJob) (error : String) (s : Store) :
    Except String Store :=
  let storedError := truncateError error
  if maxAttempts ≤ job.attempt then
    finishAttempt job (deadLettered s.now storedError) .deadLettered (some storedError)
      "notification delivery lease was lost before retry state update" s
  else
    finishAttempt job (requeued s.now (backoff job.attempt) storedError) .retry
      (some storedError) "notification delivery lease was lost before retry state update" s

/-- `dead_letter_invalid_propagation`. -/
def deadLetterInvalidPropagation (job : DeliveryJob) (error : String) (s : Store) :
    Except String Store :=
  let storedError := truncateError ("invalid W3C propagation: " ++ error)
  finishAttempt job (deadLettered s.now storedError) .deadLettered (some storedError)
    "notification delivery lease was lost before propagation quarantine" s

/-! ## Workers -/

/-- How `process_job` ends. -/
inductive Report where
  | delivered
  | failed (error : String)
  | invalid (error : String)
  deriving DecidableEq

def report (job : DeliveryJob) (s : Store) : Report → Except String Store
  | .delivered => markDelivered job s
  | .failed error => markFailedOrDeadLetter job error s
  | .invalid error => deadLetterInvalidPropagation job error s

/-- A worker between two statements. -/
inductive Worker where
  | processing (job : DeliveryJob)
  | reclaiming (pending : List Unlogged)
  deriving DecidableEq

structure State where
  db : Store
  workers : List Worker
  deriving DecidableEq

inductive Action where
  | record (carrier : Except String Unit) (request : NotificationRequest) (eventKey : EventKey)
      (fault : Fault)
  | claim (locked : DeliveryId → Bool) (fault : Fault)
  | reclaim (fault : Fault)
  /-- The next INSERT of a worker that reclaims. -/
  | log (worker : Nat) (fault : Fault)
  | report (worker : Nat) (report : Report) (fault : Fault)
  /-- A worker stops where it is. -/
  | stop (worker : Nat)
  /-- Time passes, and orders come. -/
  | environment (elapsed : Nat) (orders : List (TenantId × OrderId))

/-- The store a statement leaves over a connection. -/
def underFault (fault : Fault) (s s' : Store) : Store :=
  match fault with
  | .before => s
  | _ => s'

/-- What a worker goes on with, if it got its answer. -/
def ifAnswered (fault : Fault) (workers : List Worker) : List Worker :=
  match fault with
  | .none => workers
  | _ => []

/-- One step of the deliveries. A worker that meets an error drops what it was
doing. -/
def deliveryStep (s : State) : Action → Option State
  | .record carrier request eventKey fault =>
    some { s with db := underFault fault s.db (recordDelivery carrier request eventKey s.db).2 }
  | .claim locked fault =>
    let (job, db) := claimNext locked s.db
    some
      { db := underFault fault s.db db
        workers := s.workers ++ ifAnswered fault (job.toList.map .processing) }
  | .reclaim fault =>
    let (rows, db) := reclaimExhausted s.db
    some
      { db := underFault fault s.db db
        workers := s.workers ++ ifAnswered fault [.reclaiming rows] }
  | .log i fault =>
    match s.workers[i]? with
    | some (.reclaiming (row :: rows)) =>
      some
        { db := underFault fault s.db (recordExhausted row s.db)
          workers := s.workers.eraseIdx i ++ ifAnswered fault [.reclaiming rows] }
    | _ => none
  | .report i how fault =>
    match s.workers[i]? with
    | some (.processing job) =>
      some
        { db := match report job s.db how with
            | .error _ => s.db
            | .ok db => underFault fault s.db db
          workers := s.workers.eraseIdx i }
    | _ => none
  | .stop i => some { s with workers := s.workers.eraseIdx i }
  | .environment elapsed orders =>
    some { s with db := { s.db with now := s.db.now + elapsed, orders := orders } }

end CommercePlayground.Notifications
