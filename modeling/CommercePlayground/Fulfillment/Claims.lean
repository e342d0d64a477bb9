/-
CommercePlayground.Fulfillment.Claims — `acquireClaim`, `renewLease`,
`markCompleted` and `markFailed` of `FulfillmentRepository`.

A claim is a row of `fulfillment_processed_events`: it is taken under a fresh
lease token, and every later statement of the delivery names the token. Each
function is one transaction.
-/
import CommercePlayground.Fulfillment.Schema

namespace CommercePlayground.Fulfillment

open Lib

/-- `MAX_CLAIM_ATTEMPTS`. -/
def maxClaimAttempts : Nat := 5

/-- `WHERE tenant_id = … AND consumer_name = … AND event_key = …`. -/
def isClaim (tenantId : TenantId) (consumer : Consumer) (key : EventKey) (r : ProcessedEvent) :
    Bool :=
  decide (r.tenantId = tenantId ∧ r.consumerName = consumer ∧ r.eventKey = key)

/-- `lease_until IS NULL OR lease_until <= CURRENT_TIMESTAMP`. -/
def leaseExpired (now : Nat) (r : ProcessedEvent) : Bool :=
  r.leaseUntil.all fun t => decide (t ≤ now)

/-- A claim that failed, or whose holder let its lease expire. -/
def isAbandoned (now : Nat) (r : ProcessedEvent) : Bool :=
  decide (r.status = .failed) || (decide (r.status = .processing) && leaseExpired now r)

/-- A claim its holder still has: `status = 'processing' AND lease_token = …
AND lease_until > CURRENT_TIMESTAMP`. -/
def isHeld (now : Nat) (leaseToken : Nat) (r : ProcessedEvent) : Bool :=
  decide (r.status = .processing ∧ r.leaseToken = some leaseToken) &&
    r.leaseUntil.any fun t => decide (now < t)

/-- `CURRENT_TIMESTAMP + claimLeaseSeconds`. -/
def Store.lease (s : Store) : Nat := s.now + s.claimLeaseSeconds * second

def setClaims (s : Store) (t : List ProcessedEvent) : Store := { s with claims := t }

def updateClaims (s : Store) (sel : ProcessedEvent → Bool)
    (f : ProcessedEvent → ProcessedEvent) : Store :=
  setClaims s (updateWhere sel f s.claims)

/-! ## Acquiring -/

/-- `ClaimDecision`. -/
inductive ClaimDecision where
  | acquired (leaseToken : Nat)
  | active (leaseUntil : Option Nat)
  | completed
  | deadLettered
  deriving DecidableEq

/-- The `exhausted` rows of the statement. -/
def isExhausted (now : Nat) (tenantId : TenantId) (consumer : Consumer) (key : EventKey)
    (r : ProcessedEvent) : Bool :=
  isClaim tenantId consumer key r && decide (maxClaimAttempts ≤ r.attempts) && isAbandoned now r

/-- `SET status = 'dead_lettered'`. -/
def exhausted (r : ProcessedEvent) : ProcessedEvent :=
  { r with status := .deadLettered, leaseToken := none, leaseUntil := none }

/-- The row of a first claim. -/
def newClaim (s : Store) (consumer : Consumer) (key : EventKey) (event : CommerceEvent) :
    ProcessedEvent where
  tenantId := event.tenantId
  consumerName := consumer
  eventKey := key
  eventType := event.eventType
  orderId := event.orderId
  status := .processing
  attempts := 1
  leaseToken := some s.nextToken
  leaseUntil := some s.lease

/-- The WHERE clause of `ON CONFLICT … DO UPDATE`. -/
def isReclaimable (now : Nat) (r : ProcessedEvent) : Bool :=
  isAbandoned now r && decide (r.attempts < maxClaimAttempts)

/-- The row of a later claim. -/
def reclaimed (s : Store) (r : ProcessedEvent) : ProcessedEvent :=
  { r with
    status := .processing
    attempts := r.attempts + 1
    leaseToken := some s.nextToken
    leaseUntil := some s.lease }

/-- The second half of `acquireClaim`: what the row says when it was not
taken. -/
def rereadClaim (tenantId : TenantId) (consumer : Consumer) (key : EventKey) (s : Store) :
    Outcome ClaimDecision :=
  match s.claims.find? (isClaim tenantId consumer key) with
  | none => .error (.retryable "claim disappeared while acquiring event")
  | some r =>
    match r.status with
    | .completed => .ok (.completed, s)
    | .processing => .ok (.active r.leaseUntil, s)
    | .deadLettered => .ok (.deadLettered, s)
    | .failed =>
      if maxClaimAttempts ≤ r.attempts then .ok (.deadLettered, s)
      else .error (.retryable "claim is temporarily unavailable")

/-- The foreign key of a claim to its order. -/
def orderExists (s : Store) (tenantId : TenantId) (orderId : OrderId) : Bool :=
  s.orders.any fun o => decide (o.tenantId = tenantId ∧ o.id = orderId)

/-- `acquireClaim`. -/
def acquireClaim (consumer : Consumer) (key : EventKey) (event : CommerceEvent) (s₀ : Store) :
    Outcome ClaimDecision :=
  let s : Store := { s₀ with nextToken := s₀.nextToken + 1 }
  let conflicts := isClaim event.tenantId consumer key
  let reclaims := fun r => conflicts r && isReclaimable s.now r
  if s.claims.any (isExhausted s.now event.tenantId consumer key) then
    rereadClaim event.tenantId consumer key
      (updateClaims s (isExhausted s.now event.tenantId consumer key) exhausted)
  else if s.claims.any reclaims then
    .ok (.acquired s₀.nextToken, updateClaims s reclaims (reclaimed s₀))
  else if s.claims.any conflicts then rereadClaim event.tenantId consumer key s
  else if orderExists s event.tenantId event.orderId then
    .ok (.acquired s₀.nextToken, setClaims s (s.claims ++ [newClaim s₀ consumer key event]))
  else .error (.retryable "fulfillment_processed_events_order_fk")

/-- The key of the public `acquireClaim`: the orders consumer claims the
operation on the order, the analytics consumer the event. -/
def CommerceEvent.claimKey (e : CommerceEvent) : Consumer → EventKey
  | .orders => e.processingKey
  | .analytics => e.eventKey

/-! ## Holding -/

/-- The UPDATE of a claim that its holder makes, or fails. -/
def updateHeld (tenantId : TenantId) (consumer : Consumer) (key : EventKey)
    (holds : ProcessedEvent → Bool) (f : ProcessedEvent → ProcessedEvent) (message : String)
    (s : Store) : Outcome Unit :=
  let sel := fun r => isClaim tenantId consumer key r && holds r
  if affected sel s.claims = 1 then .ok ((), updateClaims s sel f)
  else .error (.retryable message)

/-- `renewLease`. -/
def renewLease (tenantId : TenantId) (consumer : Consumer) (key : EventKey) (leaseToken : Nat)
    (s : Store) : Outcome Unit :=
  updateHeld tenantId consumer key (isHeld s.now leaseToken)
    (fun r => { r with leaseUntil := some s.lease })
    "fulfillment claim lease is no longer owned" s

/-- `markCompleted`. -/
def markCompleted (tenantId : TenantId) (consumer : Consumer) (key : EventKey)
    (leaseToken : Nat) (s : Store) : Outcome Unit :=
  updateHeld tenantId consumer key (isHeld s.now leaseToken)
    (fun r => { r with status := .completed, leaseToken := none, leaseUntil := none })
    "fulfillment claim lease was lost before completion" s

/-- The row of a failed claim. -/
def failedClaim (permanentFailure : Bool) (r : ProcessedEvent) : ProcessedEvent :=
  { r with
    status := if permanentFailure || decide (maxClaimAttempts ≤ r.attempts) then .deadLettered
      else .failed
    leaseToken := none
    leaseUntil := none }

/-- `markFailed`; a permanent failure does not ask whether the lease expired. -/
def markFailed (consumer : Consumer) (tenantId : TenantId) (key : EventKey) (leaseToken : Nat)
    (permanentFailure : Bool) (s : Store) : Outcome Unit :=
  updateHeld tenantId consumer key
    (fun r => decide (r.status = .processing ∧ r.leaseToken = some leaseToken) &&
      (permanentFailure || r.leaseUntil.any fun t => decide (s.now < t)))
    (failedClaim permanentFailure) "fulfillment claim lease was lost before failure transition" s

/-! ## The claim machine -/

/-- What can happen to the claims: deliveries acquire, renew, complete and
fail under any token they like, in any order, and time passes. -/
inductive ClaimAction where
  | acquire (consumer : Consumer) (key : EventKey) (event : CommerceEvent)
  | renew (tenantId : TenantId) (consumer : Consumer) (key : EventKey) (leaseToken : Nat)
  | complete (tenantId : TenantId) (consumer : Consumer) (key : EventKey) (leaseToken : Nat)
  | fail (tenantId : TenantId) (consumer : Consumer) (key : EventKey) (leaseToken : Nat)
      (permanentFailure : Bool)
  /-- Time passes, and orders come and go. -/
  | environment (elapsed : Nat) (orders : List OrderRow)

/-- The store a transaction leaves. -/
def committed {α : Type} (s : Store) : Outcome α → Store
  | .ok r => r.2
  | .error _ => s

/-- One step of the claims. -/
def claimStep (s : Store) : ClaimAction → Option Store
  | .acquire consumer key event => some (committed s (acquireClaim consumer key event s))
  | .renew t consumer key token => some (committed s (renewLease t consumer key token s))
  | .complete t consumer key token => some (committed s (markCompleted t consumer key token s))
  | .fail t consumer key token permanent =>
    some (committed s (markFailed consumer t key token permanent s))
  | .environment elapsed orders => some { s with now := s.now + elapsed, orders := orders }

end CommercePlayground.Fulfillment
