/-
CommercePlayground.Inventory.Store — the inventory service: `reserve`,
`release`, `consume` and `reap_expired_reservations`.

Each operation is one transaction, a function
`Db → Except InventoryError (α × Db)`; an error rolls everything back. The
first statement of the three request handlers locks the authoritative
checkout attempt (`lockCurrentCheckoutFence`), which is how a superseded
checkout generation is kept from moving stock. The CHECK constraints of
`inventory` and `inventory_reservations` are evaluated at every write.

Row locks and the advisory lock per reservation make the transactions atomic
and have no other effect. The connection holds, sleeps and repeated reads of
the fault-injection parameters only delay a request and are left out.
-/
import CommercePlayground.Schema
import Mathlib.Data.List.MinMax
import Mathlib.Data.Prod.Lex

namespace CommercePlayground.Inventory

open Lib

/-! ## Errors -/

/-- The codes of a `ReservationConflict`. -/
inductive ConflictCode where
  | checkoutLeaseLost | reservationConflict | reservationOwnerConflict
  | reservationNotFound | reservationConsumed
  deriving DecidableEq

/-- The other failures of a transaction, one constructor for each message. -/
inductive OperationFailure where
  /-- `fault injection: reservation rejected`. -/
  | faultInjection
  /-- `inventory is no longer available for reservation reuse`. -/
  | unavailableForReuse
  /-- `inventory is no longer available for reservation recovery`. -/
  | unavailableForRecovery
  /-- `inventory reservation ledger is inconsistent`. -/
  | ledgerInconsistent
  /-- `reservation state changed during …` and `… owner changed during …`. -/
  | stateChanged
  /-- `expired reservation … has inconsistent inventory`. -/
  | expiredInconsistent
  /-- `consumed quantity overflow`. -/
  | consumedOverflow
  deriving DecidableEq

/-- The fields a `ValidationError` names. -/
inductive InvalidField where
  | quantity | reservations | checkoutRequestId | checkoutLeaseToken | reservationId
  deriving DecidableEq

/-- How an inventory operation fails. The last two are writes the database
rejects. -/
inductive InventoryError where
  | invalid (field : InvalidField) (reason : String)
  | conflict (code : ConflictCode) (message : String)
  | operation (failure : OperationFailure)
  | check
  | primaryKey
  deriving DecidableEq

/-! ## Requests -/

/-- `MAX_RESERVE_QUANTITY` and `MAX_RELEASE_QUANTITY`. -/
def maxQuantity : Nat := 1000000

/-- `MAX_CONSUME_RESERVATIONS`. -/
def maxConsumeReservations : Nat := 50

/-- `RESERVATION_HOLD`. -/
def reservationHold : Nat := 15 * minute

/-- `ReserveQuery`. -/
structure ReserveQuery where
  tenantId : TenantId
  reservationId : ReservationId
  sku : Sku
  quantity : Nat
  fail : Bool
  checkoutRequestId : Option RequestId
  checkoutLeaseToken : Option Nat

/-- `ReleaseBody`. -/
structure ReleaseBody where
  tenantId : TenantId
  reservationId : ReservationId
  sku : Sku
  quantity : Nat
  locationId : Option LocationId
  checkoutRequestId : Option RequestId
  checkoutLeaseToken : Option Nat

/-- `ConsumeReservation`. -/
structure ConsumeReservation where
  reservationId : ReservationId
  sku : Sku
  quantity : Nat
  locationId : Option LocationId

/-- `ConsumeBody`. `consume` sorts the reservations by id before it locks
them; the list is the sorted one. -/
structure ConsumeBody where
  tenantId : TenantId
  checkoutRequestId : Option RequestId
  checkoutLeaseToken : Option Nat
  reservations : List ConsumeReservation

/-- `validate_identifier` of a request id. The other identifiers are opaque
keys of well-formed strings. -/
def validateRequestId (id : RequestId) : Except InventoryError Unit :=
  if id.length = 0 then .error (.invalid .checkoutRequestId "must not be empty")
  else if id.length > 128 then
    .error (.invalid .checkoutRequestId "exceeds the maximum length")
  else .ok ()

/-- `validate_fence_fields`, returning the fence. -/
def validateFenceFields :
    Option RequestId → Option Nat → Except InventoryError (RequestId × Nat)
  | some requestId, some leaseToken => (validateRequestId requestId).map fun _ =>
      (requestId, leaseToken)
  | none, none =>
    .error (.invalid .checkoutRequestId "authoritative checkout fence is required")
  | some _, none =>
    .error (.invalid .checkoutLeaseToken "is required with checkout_request_id")
  | none, some _ =>
    .error (.invalid .checkoutRequestId "is required with checkout_lease_token")

/-- The quantity checks of `validate_reserve` and `validate_release`. -/
def validateQuantity (quantity : Nat) (tooLarge : String) : Except InventoryError Unit :=
  if quantity = 0 then .error (.invalid .quantity "must be greater than zero")
  else if quantity > maxQuantity then .error (.invalid .quantity tooLarge)
  else .ok ()

/-- `validate_reserve`. -/
def validateReserve (q : ReserveQuery) : Except InventoryError (RequestId × Nat) := do
  validateQuantity q.quantity "exceeds the maximum reserve quantity"
  validateFenceFields q.checkoutRequestId q.checkoutLeaseToken

/-- `validate_release`. -/
def validateRelease (q : ReleaseBody) : Except InventoryError (RequestId × Nat) := do
  validateQuantity q.quantity "exceeds the maximum release quantity"
  validateFenceFields q.checkoutRequestId q.checkoutLeaseToken

/-- The loop of `validate_consume`, with the ids seen so far. -/
def validateReservations (seen : List ReservationId) :
    List ConsumeReservation → Except InventoryError Unit
  | [] => .ok ()
  | r :: rs =>
    if r.quantity = 0 ∨ r.quantity > maxQuantity then
      .error (.invalid .quantity "must be between one and one million")
    else if r.reservationId ∈ seen then
      .error (.invalid .reservationId "must be unique within a consume request")
    else validateReservations (r.reservationId :: seen) rs

/-- `validate_consume`. -/
def validateConsume (q : ConsumeBody) : Except InventoryError (RequestId × Nat) :=
  if q.reservations = [] ∨ q.reservations.length > maxConsumeReservations then
    .error (.invalid .reservations "must contain between one and fifty reservations")
  else do
    let fence ← validateFenceFields q.checkoutRequestId q.checkoutLeaseToken
    validateReservations [] q.reservations
    pure fence

/-! ## The fence -/

/-- A `processing` reconciliation claim that keeps a pending attempt open. -/
def holdsPending (now : Nat) (a : CheckoutAttempt) (r : Reconciliation) : Bool :=
  decide (r.tenantId = a.tenantId ∧ r.requestId = a.requestId ∧
    r.checkoutLeaseToken = a.leaseToken ∧ r.status = .processing) &&
  r.leaseToken.isSome && r.leaseExpiresAt.any fun t => decide (now < t)

/-- The WHERE predicate of `lock_current_checkout_fence`. -/
def isCurrentFence (db : Db) (tenantId : TenantId) (requestId : RequestId)
    (leaseToken : Nat) (a : CheckoutAttempt) : Bool :=
  decide (a.tenantId = tenantId ∧ a.requestId = requestId ∧ a.leaseToken = leaseToken) &&
  match a.status with
  | .started => a.leaseExpiresAt.any fun t => decide (db.now < t)
  | .failed => true
  | .pending => db.checkout.reconciliations.any (holdsPending db.now a)
  | .paid | .degraded => false

/-- `lock_current_checkout_fence`. -/
def lockCurrentCheckoutFence (db : Db) (tenantId : TenantId) (requestId : RequestId)
    (leaseToken : Nat) : Except InventoryError Unit :=
  if db.checkout.attempts.any (isCurrentFence db tenantId requestId leaseToken) then .ok ()
  else .error (.conflict .checkoutLeaseLost
    "authoritative checkout fence is no longer current")

/-! ## Tables -/

/-- The CHECKs of `inventory`. -/
def stockChecks (s : Stock) : Bool :=
  decide (0 ≤ s.onHandQuantity) && decide (0 ≤ s.reservedQuantity) &&
    decide (s.reservedQuantity ≤ s.onHandQuantity)

/-- The CHECKs of `inventory_reservations` (migrations 002 and 011). -/
def reservationChecks (r : Reservation) : Bool :=
  decide (0 < r.quantity) &&
  match r.status with
  | .reserved => r.releasedAt.isNone && r.consumedAt.isNone
  | .released => r.releasedAt.isSome && r.consumedAt.isNone
  | .consumed => r.releasedAt.isNone && r.consumedAt.isSome

def setStock (db : Db) (t : List Stock) : Db :=
  { db with inventory := { db.inventory with stock := t } }

def setReservations (db : Db) (t : List Reservation) : Db :=
  { db with inventory := { db.inventory with reservations := t } }

/-- An UPDATE of `inventory`. -/
def updateStock (db : Db) (sel : Stock → Bool) (f : Stock → Stock) :
    Except InventoryError Db :=
  let t := updateWhere sel f db.inventory.stock
  if t.all stockChecks then .ok (setStock db t) else .error .check

/-- An UPDATE of `inventory_reservations`. -/
def updateReservations (db : Db) (sel : Reservation → Bool) (f : Reservation → Reservation) :
    Except InventoryError Db :=
  let t := updateWhere sel f db.inventory.reservations
  if t.all reservationChecks then .ok (setReservations db t) else .error .check

/-- The primary key of `inventory_reservations`. -/
def reservationKey (r : Reservation) : TenantId × ReservationId :=
  (r.tenantId, r.reservationId)

/-- An INSERT into `inventory_reservations`. -/
def insertReservation (db : Db) (r : Reservation) : Except InventoryError Db :=
  if reservationKey r ∈ db.inventory.reservations.map reservationKey then .error .primaryKey
  else if reservationChecks r = false then .error .check
  else .ok (setReservations db (db.inventory.reservations ++ [r]))

/-- `WHERE tenant_id = … AND reservation_id = …`. -/
def isReservation (tenantId : TenantId) (id : ReservationId) (r : Reservation) : Bool :=
  decide (r.tenantId = tenantId ∧ r.reservationId = id)

/-- The join of a reservation with its stock row; also
`WHERE tenant_id = … AND variant_id = … AND location_id = …`. -/
def isStockOf (r : Reservation) (s : Stock) : Bool :=
  decide (s.tenantId = r.tenantId ∧ s.variantId = r.variantId ∧ s.locationId = r.locationId)

/-- The `SELECT … FOR UPDATE OF r, i` the three handlers start with. -/
def lockReservation (db : Db) (tenantId : TenantId) (id : ReservationId) :
    Option (Reservation × Stock) :=
  (db.inventory.reservations.find? (isReservation tenantId id)).bind fun r =>
    (db.inventory.stock.find? (isStockOf r)).map fun s => (r, s)

/-! ## Row changes -/

/-- Hold `quantity` more of a stock row. -/
def hold (quantity : Int) (s : Stock) : Stock :=
  { s with reservedQuantity := s.reservedQuantity + quantity }

/-- Give `quantity` back. -/
def unhold (quantity : Int) (s : Stock) : Stock :=
  { s with reservedQuantity := s.reservedQuantity - quantity }

/-- Take `quantity` out of stock. -/
def deduct (quantity : Int) (s : Stock) : Stock :=
  { s with
    onHandQuantity := s.onHandQuantity - quantity
    reservedQuantity := s.reservedQuantity - quantity }

/-- A released reservation is held again, by this generation. -/
def reacquired (now : Nat) (leaseToken : Nat) (r : Reservation) : Reservation :=
  { r with
    status := .reserved
    releasedAt := none
    consumedAt := none
    expiresAt := now + reservationHold
    ownerLeaseToken := some leaseToken }

/-- A held reservation is extended for this generation. -/
def renewed (now : Nat) (leaseToken : Nat) (r : Reservation) : Reservation :=
  { r with
    expiresAt := now + reservationHold
    ownerLeaseToken := some leaseToken }

/-- A held reservation passes to this generation. -/
def rebound (leaseToken : Nat) (r : Reservation) : Reservation :=
  { r with ownerLeaseToken := some leaseToken }

def released (now : Nat) (r : Reservation) : Reservation :=
  { r with status := .released, releasedAt := some now, consumedAt := none }

def consumed (now : Nat) (r : Reservation) : Reservation :=
  { r with status := .consumed, releasedAt := none, consumedAt := some now }

/-- The UPDATE of a stock row that must change one row, or fails. -/
def moveStock (db : Db) (r : Reservation) (guard : Stock → Bool) (f : Stock → Stock)
    (failure : OperationFailure) : Except InventoryError Db :=
  let sel := fun s => isStockOf r s && guard s
  if affected sel db.inventory.stock = 1 then updateStock db sel f
  else .error (.operation failure)

/-- The UPDATE of a reservation in one status, owned by one request, that must
change one row, or fails. -/
def moveReservation (db : Db) (tenantId : TenantId) (id : ReservationId)
    (status : ReservationStatus) (requestId : RequestId) (f : Reservation → Reservation) :
    Except InventoryError Db :=
  let sel := fun r => isReservation tenantId id r &&
    decide (r.status = status ∧ r.ownerRequestId = some requestId)
  if affected sel db.inventory.reservations = 1 then updateReservations db sel f
  else .error (.operation .stateChanged)

/-! ## Reserve -/

/-- `ReserveOutcome.status`. -/
inductive ReserveStatus where
  | reserved | alreadyReserved | alreadyConsumed
  deriving DecidableEq

/-- `ReserveOutcome`. -/
structure ReserveOutcome where
  locationId : LocationId
  remaining : Int
  status : ReserveStatus
  deriving DecidableEq

/-- `ORDER BY l.code, i.id`. -/
def stockOrder (db : Db) (s : Stock) : Nat ×ₗ Nat :=
  toLex (((db.inventory.locations.find? fun l =>
    decide (l.tenantId = s.tenantId ∧ l.id = s.locationId)).map (·.code)).getD 0, s.id)

/-- The WHERE clause of the `candidate` query. -/
def isCandidate (db : Db) (q : ReserveQuery) (s : Stock) : Bool :=
  decide (s.tenantId = q.tenantId) &&
  db.inventory.variants.any (fun v => decide (v.tenantId = s.tenantId ∧ v.id = s.variantId ∧
    v.sku = q.sku) && v.active) &&
  db.inventory.locations.any (fun l => decide (l.tenantId = s.tenantId ∧ l.id = s.locationId) &&
    l.isActive) &&
  decide ((q.quantity : Int) ≤ s.availableQuantity)

/-- The stock row a new reservation is taken from. -/
def candidate (db : Db) (q : ReserveQuery) : Option Stock :=
  (db.inventory.stock.filter (isCandidate db q)).argmin (stockOrder db)

/-- The row a new reservation inserts. -/
def newReservation (db : Db) (q : ReserveQuery) (s : Stock) : Reservation where
  reservationId := q.reservationId
  tenantId := q.tenantId
  sku := q.sku
  variantId := s.variantId
  locationId := s.locationId
  quantity := q.quantity
  status := .reserved
  releasedAt := none
  consumedAt := none
  expiresAt := db.now + reservationHold
  ownerRequestId := q.checkoutRequestId
  ownerLeaseToken := q.checkoutLeaseToken

/-- The renewal of `reserve`'s `reserved` arm. -/
def renewHold (q : ReserveQuery) (requestId : RequestId) (leaseToken : Nat) (r : Reservation)
    (db : Db) : Except InventoryError Db :=
  if r.expiresAt ≤ db.now ∨ r.ownerLeaseToken ≠ some leaseToken then
    moveReservation db q.tenantId q.reservationId .reserved requestId (renewed db.now leaseToken)
  else .ok db

/-- `reserve` of a reservation that exists. -/
def reserveAgain (q : ReserveQuery) (requestId : RequestId) (leaseToken : Nat)
    (r : Reservation) (s : Stock) (db : Db) : Except InventoryError (ReserveOutcome × Db) :=
  if r.sku ≠ q.sku ∨ r.quantity ≠ q.quantity then
    .error (.conflict .reservationConflict
      "reservation identity does not match the reserve request")
  else if r.ownerRequestId ≠ some requestId then
    .error (.conflict .reservationOwnerConflict
      "reservation belongs to a different checkout request")
  else match r.status with
    | .released => do
      let db₁ ← moveStock db r (fun s => decide (r.quantity ≤ s.availableQuantity))
        (hold r.quantity) .unavailableForReuse
      let db₂ ← moveReservation db₁ q.tenantId q.reservationId .released requestId
        (reacquired db.now leaseToken)
      pure (⟨r.locationId, (hold r.quantity s).availableQuantity, .reserved⟩, db₂)
    | .consumed => .ok (⟨r.locationId, s.availableQuantity, .alreadyConsumed⟩, db)
    | .reserved => do
      let db₁ ← renewHold q requestId leaseToken r db
      pure (⟨r.locationId, s.availableQuantity, .alreadyReserved⟩, db₁)

/-- `infrastructure::reserve`; `none` means that no stock row has enough. -/
def reserveTx (q : ReserveQuery) (requestId : RequestId) (leaseToken : Nat) (db : Db) :
    Except InventoryError (Option ReserveOutcome × Db) :=
  if q.fail then .error (.operation .faultInjection)
  else do
    lockCurrentCheckoutFence db q.tenantId requestId leaseToken
    match lockReservation db q.tenantId q.reservationId with
    | some (r, s) =>
      let (outcome, db') ← reserveAgain q requestId leaseToken r s db
      pure (some outcome, db')
    | none =>
      match candidate db q with
      | none => pure (none, db)
      | some s =>
        let db₁ ← updateStock db (fun s' => decide (s'.id = s.id)) (hold q.quantity)
        let db₂ ← insertReservation db₁ (newReservation db q s)
        pure (some ⟨s.locationId, (hold q.quantity s).availableQuantity, .reserved⟩, db₂)

/-- `application::reserve`. -/
def reserve (q : ReserveQuery) (db : Db) :
    Except InventoryError (Option ReserveOutcome × Db) := do
  let (requestId, leaseToken) ← validateReserve q
  reserveTx q requestId leaseToken db

/-! ## Release -/

/-- `ReleaseOutcome.status`. -/
inductive ReleaseStatus where
  | released | alreadyReleased
  deriving DecidableEq

/-- `ReleaseOutcome`. -/
structure ReleaseOutcome where
  locationId : LocationId
  released : Int
  reservedRemaining : Int
  available : Int
  status : ReleaseStatus
  deriving DecidableEq

/-- The identity check of `release` and of each reservation of `consume`. -/
def sameIdentity (r : Reservation) (sku : Sku) (quantity : Nat)
    (locationId : Option LocationId) : Bool :=
  decide (r.sku = sku ∧ r.quantity = quantity) &&
    locationId.all fun l => decide (l = r.locationId)

/-- The rebinding of `release`: a hold of an older generation passes to this
one. -/
def rebindHold (q : ReleaseBody) (requestId : RequestId) (leaseToken : Nat) (r : Reservation)
    (db : Db) : Except InventoryError Db :=
  if r.ownerLeaseToken ≠ some leaseToken then
    moveReservation db q.tenantId q.reservationId .reserved requestId (rebound leaseToken)
  else .ok db

/-- `release` of a reservation that exists. -/
def releaseLocked (q : ReleaseBody) (requestId : RequestId) (leaseToken : Nat)
    (r : Reservation) (s : Stock) (db : Db) : Except InventoryError (ReleaseOutcome × Db) :=
  if sameIdentity r q.sku q.quantity q.locationId = false then
    .error (.conflict .reservationConflict
      "reservation identity does not match the release request")
  else if r.ownerRequestId ≠ some requestId then
    .error (.conflict .reservationOwnerConflict
      "checkout fence does not own the reservation")
  else match r.status with
    | .released =>
      .ok (⟨r.locationId, 0, s.reservedQuantity, s.availableQuantity, .alreadyReleased⟩, db)
    | .consumed =>
      .error (.conflict .reservationConsumed "a consumed reservation cannot be released")
    | .reserved => do
      let db₁ ← rebindHold q requestId leaseToken r db
      let db₂ ← moveStock db₁ r (fun s => decide (r.quantity ≤ s.reservedQuantity))
        (unhold r.quantity) .ledgerInconsistent
      let db₃ ← moveReservation db₂ q.tenantId q.reservationId .reserved requestId
        (released db.now)
      let s' := unhold r.quantity s
      pure (⟨r.locationId, r.quantity, s'.reservedQuantity, s'.availableQuantity, .released⟩,
        db₃)

/-- `infrastructure::release`; `none` means that the reservation is unknown. -/
def releaseTx (q : ReleaseBody) (requestId : RequestId) (leaseToken : Nat) (db : Db) :
    Except InventoryError (Option ReleaseOutcome × Db) := do
  lockCurrentCheckoutFence db q.tenantId requestId leaseToken
  match lockReservation db q.tenantId q.reservationId with
  | none => pure (none, db)
  | some (r, s) =>
    let (outcome, db') ← releaseLocked q requestId leaseToken r s db
    pure (some outcome, db')

/-- `application::release`. -/
def release (q : ReleaseBody) (db : Db) :
    Except InventoryError (Option ReleaseOutcome × Db) := do
  let (requestId, leaseToken) ← validateRelease q
  releaseTx q requestId leaseToken db

/-! ## Consume -/

/-- `ConsumeOutcome.status`. -/
inductive ConsumeStatus where
  | consumed | alreadyConsumed
  deriving DecidableEq

/-- `ConsumeOutcome`. -/
structure ConsumeOutcome where
  consumed : Int
  status : ConsumeStatus
  deriving DecidableEq

/-- The recovery arms of `consume`: whatever the reservation's state, it is
held by this generation afterwards, unless the stock is gone. -/
def holdForConsume (tenantId : TenantId) (id : ReservationId) (requestId : RequestId)
    (leaseToken : Nat) (r : Reservation) (db : Db) : Except InventoryError Db :=
  match r.status with
  | .consumed => .ok db
  | .released => do
    let db₁ ← moveStock db r (fun s => decide (r.quantity ≤ s.availableQuantity))
      (hold r.quantity) .unavailableForRecovery
    moveReservation db₁ tenantId id .released requestId (reacquired db.now leaseToken)
  | .reserved =>
    if r.expiresAt ≤ db.now then
      moveReservation db tenantId id .reserved requestId (renewed db.now leaseToken)
    else if r.ownerLeaseToken ≠ some leaseToken then
      moveReservation db tenantId id .reserved requestId (rebound leaseToken)
    else .ok db

/-- One iteration of `consume`'s loop: the quantity it took out of stock. -/
def consumeOne (tenantId : TenantId) (requestId : RequestId) (leaseToken : Nat)
    (c : ConsumeReservation) (db : Db) : Except InventoryError (Int × Db) :=
  match lockReservation db tenantId c.reservationId with
  | none =>
    .error (.conflict .reservationNotFound "reservation does not exist for the tenant")
  | some (r, _) =>
    if sameIdentity r c.sku c.quantity c.locationId = false then
      .error (.conflict .reservationConflict
        "reservation identity does not match the consume request")
    else if r.ownerRequestId ≠ some requestId then
      .error (.conflict .reservationOwnerConflict
        "checkout fence does not own the reservation")
    else if r.status = .consumed then .ok (0, db)
    else do
      let db₁ ← holdForConsume tenantId c.reservationId requestId leaseToken r db
      let db₂ ← moveStock db₁ r (fun s => decide (r.quantity ≤ s.onHandQuantity) &&
        decide (r.quantity ≤ s.reservedQuantity)) (deduct r.quantity) .ledgerInconsistent
      let db₃ ← moveReservation db₂ tenantId c.reservationId .reserved requestId
        (consumed db.now)
      pure (r.quantity, db₃)

/-- The loop of `consume`, with the quantity consumed so far. -/
def consumeAll (tenantId : TenantId) (requestId : RequestId) (leaseToken : Nat) :
    Int → List ConsumeReservation → Db → Except InventoryError (Int × Db)
  | total, [], db => .ok (total, db)
  | total, c :: cs, db => do
    let (n, db₁) ← consumeOne tenantId requestId leaseToken c db
    if total + n > 4294967295 then .error (.operation .consumedOverflow)
    else consumeAll tenantId requestId leaseToken (total + n) cs db₁

/-- `infrastructure::consume`. -/
def consumeTx (q : ConsumeBody) (requestId : RequestId) (leaseToken : Nat) (db : Db) :
    Except InventoryError (ConsumeOutcome × Db) := do
  lockCurrentCheckoutFence db q.tenantId requestId leaseToken
  let (n, db') ← consumeAll q.tenantId requestId leaseToken 0 q.reservations db
  pure (⟨n, if n = 0 then .alreadyConsumed else .consumed⟩, db')

/-- `application::consume`. -/
def consume (q : ConsumeBody) (db : Db) : Except InventoryError (ConsumeOutcome × Db) := do
  let (requestId, leaseToken) ← validateConsume q
  consumeTx q requestId leaseToken db

/-! ## The reaper -/

/-- `REAPER_BATCH_SIZE`. -/
def reaperBatchSize : Nat := 100

/-- A held reservation whose hold has expired. -/
def isExpired (now : Nat) (r : Reservation) : Bool :=
  decide (r.status = .reserved ∧ r.expiresAt ≤ now)

/-- One iteration of the reaper's loop. -/
def reapOne (r : Reservation) (db : Db) : Except InventoryError Db := do
  let db₁ ← moveStock db r (fun s => decide (r.quantity ≤ s.reservedQuantity))
    (unhold r.quantity) .expiredInconsistent
  let sel := fun r' => isReservation r.tenantId r.reservationId r' && isExpired db.now r'
  if affected sel db₁.inventory.reservations = 1 then
    updateReservations db₁ sel (released db.now)
  else .error (.operation .stateChanged)

/-- The loop of the reaper. -/
def reapAll : List Reservation → Db → Except InventoryError (Nat × Db)
  | [], db => .ok (0, db)
  | r :: rs, db => do
    let db₁ ← reapOne r db
    let (n, db₂) ← reapAll rs db₁
    pure (n + 1, db₂)

/-- `reap_expired_reservations`. SKIP LOCKED hides rows other transactions
hold, so the batch is any part `visible` of the expired reservations. -/
def reapExpiredReservations (visible : Reservation → Bool) (db : Db) :
    Except InventoryError (Nat × Db) :=
  reapAll ((db.inventory.reservations.filter fun r => isExpired db.now r && visible r).take
    reaperBatchSize) db

/-! ## The state machine -/

/-- What can happen to the inventory tables. -/
inductive Action where
  | reserve (q : ReserveQuery)
  | release (q : ReleaseBody)
  | consume (q : ConsumeBody)
  | reap (visible : Reservation → Bool)
  /-- Time passes, and the other services write their own tables and the
  catalogue. -/
  | environment (elapsed : Nat) (checkout : CheckoutTables) (payment : PaymentTables)
      (variants : List Variant) (locations : List Location)

/-- The database a transaction leaves. -/
def committed {α : Type} (db : Db) : Except InventoryError (α × Db) → Db
  | .ok r => r.2
  | .error _ => db

/-- The error of a transaction. -/
def failureOf {α : Type} : Except InventoryError α → Option InventoryError
  | .ok _ => none
  | .error e => some e

/-- One step of the inventory service. -/
def step (db : Db) : Action → Option Db
  | .reserve q => some (committed db (reserve q db))
  | .release q => some (committed db (release q db))
  | .consume q => some (committed db (consume q db))
  | .reap visible => some (committed db (reapExpiredReservations visible db))
  | .environment elapsed checkout payment variants locations =>
    some { now := db.now + elapsed, nextUuid := db.nextUuid, checkout := checkout,
           payment := payment,
           inventory := { db.inventory with variants := variants, locations := locations } }

/-- How a step fails, if it does. -/
def failure (db : Db) : Action → Option InventoryError
  | .reserve q => failureOf (reserve q db)
  | .release q => failureOf (release q db)
  | .consume q => failureOf (consume q db)
  | .reap visible => failureOf (reapExpiredReservations visible db)
  | .environment .. => none

end CommercePlayground.Inventory
