/-
CommercePlayground.Orders.Inbox — `InboxStore` of the orders service.

The durable inbox keeps one row for each event. A delivery claims the event
under the row's new `attempts`, and every later statement of the delivery names
that number: it is the fencing token. Trace columns and messages that are only
written are left out. Each function is one transaction.
-/
import CommercePlayground.Lib.Table
import CommercePlayground.Schema

namespace CommercePlayground.Orders

open Lib

abbrev EventId := Nat

/-- `orders_consumer_inbox.status`. -/
inductive InboxStatus where
  | processing | retryScheduled | completed | deadLettered
  deriving DecidableEq

/-- A row of `orders_consumer_inbox`. -/
structure InboxRow where
  tenantId : TenantId
  eventId : EventId
  status : InboxStatus
  attempts : Nat
  leaseUntil : Nat
  deriving DecidableEq

structure Inbox where
  now : Nat
  rows : List InboxRow

/-- `InboxClaim`. -/
structure InboxClaim where
  tenantId : TenantId
  eventId : EventId
  attempts : Nat
  deriving DecidableEq

/-- `ClaimOutcome`. -/
inductive ClaimOutcome where
  | claimed (claim : InboxClaim)
  | alreadyHandled
  | inFlight
  deriving DecidableEq

/-- A transaction; its error is the message of the `anyhow::Error`. -/
abbrev InboxResult (α : Type) := Except String (α × Inbox)

/-- The values of a PostgreSQL integer end here. -/
def integerLimit : Nat := 2 ^ 31

/-- `INTERVAL '30 seconds'`. -/
def Inbox.lease (s : Inbox) : Nat := s.now + 30 * second

def isRow (tenantId : TenantId) (eventId : EventId) (r : InboxRow) : Bool :=
  decide (r.tenantId = tenantId ∧ r.eventId = eventId)

/-! ## Claiming -/

/-- The WHERE clause of `ON CONFLICT … DO UPDATE`. -/
def accepts (now incoming : Nat) (r : InboxRow) : Bool :=
  decide (r.status ≠ .completed ∧ r.status ≠ .deadLettered) &&
    (decide (r.status = .retryScheduled ∧ r.attempts < incoming) ||
      decide (r.status = .processing ∧ r.leaseUntil ≤ now) ||
      decide (r.status = .processing ∧ r.attempts < incoming))

/-- The `CASE` of the new `attempts`. -/
def nextAttempts (incoming : Nat) (r : InboxRow) : Nat :=
  if r.attempts < incoming then incoming else r.attempts + 1

/-- The row of a first claim. -/
def newRow (s : Inbox) (tenantId : TenantId) (eventId : EventId) (incoming : Nat) :
    InboxRow where
  tenantId := tenantId
  eventId := eventId
  status := .processing
  attempts := incoming
  leaseUntil := s.lease

/-- The row of a later claim. -/
def claimedRow (s : Inbox) (incoming : Nat) (r : InboxRow) : InboxRow :=
  { r with status := .processing, attempts := nextAttempts incoming r, leaseUntil := s.lease }

/-- What the row says when it was not claimed. -/
def reread (s : Inbox) (r : InboxRow) : InboxResult ClaimOutcome :=
  match r.status with
  | .completed | .deadLettered | .retryScheduled => .ok (.alreadyHandled, s)
  | .processing => .ok (.inFlight, s)

/-- `InboxStore::claim`. -/
def claim (tenantId : TenantId) (eventId : EventId) (incoming : Nat) (s : Inbox) :
    InboxResult ClaimOutcome :=
  if integerLimit ≤ incoming then .error "order attempt does not fit PostgreSQL integer"
  else
    match s.rows.find? (isRow tenantId eventId) with
    | none =>
      if incoming = 0 then .error "orders_consumer_inbox_attempts_check"
      else
        .ok (.claimed ⟨tenantId, eventId, incoming⟩,
          { s with rows := s.rows ++ [newRow s tenantId eventId incoming] })
    | some r =>
      if accepts s.now incoming r then
        if integerLimit ≤ nextAttempts incoming r then .error "integer out of range"
        else
          .ok (.claimed ⟨tenantId, eventId, nextAttempts incoming r⟩,
            { s with rows := updateWhere (isRow tenantId eventId) (claimedRow s incoming) s.rows })
      else reread s r

/-! ## Settling -/

/-- `WHERE tenant_id = … AND event_id = … AND attempts = … AND status =
'processing'`. -/
def isClaimed (c : InboxClaim) (r : InboxRow) : Bool :=
  isRow c.tenantId c.eventId r && decide (r.attempts = c.attempts ∧ r.status = .processing)

/-- The UPDATE that ends a claim, and `require_one_row`. -/
def mark (status : InboxStatus) (operation : String) (c : InboxClaim) (s : Inbox) :
    InboxResult Unit :=
  if integerLimit ≤ c.attempts then .error "durable order attempt overflow"
  else if affected (isClaimed c) s.rows = 1 then
    .ok ((), { s with
      rows := updateWhere (isClaimed c)
        (fun r => { r with status := status, leaseUntil := s.now }) s.rows })
  else .error operation

/-- `mark_completed`. -/
def markCompleted : InboxClaim → Inbox → InboxResult Unit :=
  mark .completed "complete durable order inbox claim"

/-- `mark_retry_scheduled`. -/
def markRetryScheduled : InboxClaim → Inbox → InboxResult Unit :=
  mark .retryScheduled "schedule durable order inbox retry"

/-- `mark_dead_lettered`. -/
def markDeadLettered : InboxClaim → Inbox → InboxResult Unit :=
  mark .deadLettered "mark durable order inbox dead-lettered"

/-- `release_claim`; it does not ask how many rows it affected. -/
def releaseClaim (c : InboxClaim) (s : Inbox) : InboxResult Unit :=
  if integerLimit ≤ c.attempts then .error "durable order attempt overflow"
  else
    .ok ((), { s with
      rows := updateWhere (isClaimed c) (fun r => { r with leaseUntil := s.now }) s.rows })

end CommercePlayground.Orders
