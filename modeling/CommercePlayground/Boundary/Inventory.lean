/-
CommercePlayground.Boundary.Inventory — the requests checkout sends to the
inventory service, and the checks they meet there.

Checkout builds a reservation for each line of the order, keeps what inventory
answered, and releases or consumes what it kept. Inventory checks every field of
every request before it looks at its tables.
-/
import CommercePlayground.Boundary.Order

namespace CommercePlayground.Boundary

open Lib Pricing

/-! ## The checks of inventory -/

def maxReserveQuantity : Nat := 1000000

def maxReleaseQuantity : Nat := 1000000

def maxConsumeReservations : Nat := 50

/-- `ValidationError`. -/
structure ValidationError where
  field : String
  reason : String
  deriving DecidableEq

abbrev Validation := Except ValidationError Unit

/-- The bytes of an identifier: ASCII letters and digits and four marks. -/
def isIdentifierByte (b : Nat) : Bool :=
  isAsciiAlphabetic b || decide (0x30 ≤ b ∧ b ≤ 0x39) || decide (b = 0x2d) || decide (b = 0x5f) ||
    decide (b = 0x2e) || decide (b = 0x3a)

/-- `validate_identifier`. -/
def validateIdentifier (value : Text) (field : String) : Validation :=
  if value.isEmpty then .error ⟨field, "must not be empty"⟩
  else if 128 < (utf8 value).length then .error ⟨field, "exceeds the maximum length"⟩
  else if !(utf8 value).all isIdentifierByte then
    .error ⟨field, "contains unsupported characters"⟩
  else .ok ()

/-- The location of a request, if it names one. -/
def validateLocation (locationId : Option Text) : Validation :=
  match locationId with
  | none => .ok ()
  | some locationId => validateIdentifier locationId "location_id"

/-- `validate_fence_fields`. -/
def validateFenceFields (requestId leaseToken : Option Text) : Validation :=
  match requestId, leaseToken with
  | some requestId, some leaseToken => do
    validateIdentifier requestId "checkout_request_id"
    validateIdentifier leaseToken "checkout_lease_token"
  | none, none =>
    .error ⟨"checkout_request_id", "authoritative checkout fence is required"⟩
  | some _, none => .error ⟨"checkout_lease_token", "is required with checkout_request_id"⟩
  | none, some _ => .error ⟨"checkout_request_id", "is required with checkout_lease_token"⟩

/-- `ReserveQuery`, without its fault switches. -/
structure ReserveQuery where
  tenantId : Text
  reservationId : Text
  sku : Text
  quantity : Nat
  checkoutRequestId : Option Text
  checkoutLeaseToken : Option Text
  deriving DecidableEq

/-- `ReleaseBody`. -/
structure ReleaseBody where
  tenantId : Text
  reservationId : Text
  sku : Text
  quantity : Nat
  locationId : Option Text
  checkoutRequestId : Option Text
  checkoutLeaseToken : Option Text
  deriving DecidableEq

/-- `ConsumeReservation`. -/
structure ConsumeReservation where
  reservationId : Text
  sku : Text
  quantity : Nat
  locationId : Option Text
  deriving DecidableEq

/-- `ConsumeBody`. -/
structure ConsumeBody where
  tenantId : Text
  checkoutRequestId : Option Text
  checkoutLeaseToken : Option Text
  reservations : List ConsumeReservation
  deriving DecidableEq

/-- The quantity of one reservation. -/
def validateQuantity (quantity most : Nat) (excess : String) : Validation :=
  if quantity = 0 then .error ⟨"quantity", "must be greater than zero"⟩
  else if most < quantity then .error ⟨"quantity", excess⟩
  else .ok ()

/-- `validate_reserve`. -/
def validateReserve (params : ReserveQuery) : Validation := do
  validateIdentifier params.tenantId "tenant_id"
  validateIdentifier params.reservationId "reservation_id"
  validateIdentifier params.sku "sku"
  validateQuantity params.quantity maxReserveQuantity "exceeds the maximum reserve quantity"
  validateFenceFields params.checkoutRequestId params.checkoutLeaseToken

/-- `validate_release`. -/
def validateRelease (body : ReleaseBody) : Validation := do
  validateIdentifier body.tenantId "tenant_id"
  validateIdentifier body.reservationId "reservation_id"
  validateIdentifier body.sku "sku"
  validateQuantity body.quantity maxReleaseQuantity "exceeds the maximum release quantity"
  validateLocation body.locationId
  validateFenceFields body.checkoutRequestId body.checkoutLeaseToken

/-- The fields of one reservation of a consume request. -/
def validateConsumeReservation (reservation : ConsumeReservation) : Validation := do
  validateIdentifier reservation.reservationId "reservation_id"
  validateIdentifier reservation.sku "sku"
  if reservation.quantity = 0 ∨ maxReleaseQuantity < reservation.quantity then
    .error ⟨"quantity", "must be between one and one million"⟩
  else validateLocation reservation.locationId

/-- The reservation loop of `validate_consume`. -/
def validateConsumeReservations (seen : List Text) : List ConsumeReservation → Validation
  | [] => .ok ()
  | reservation :: reservations => do
    validateConsumeReservation reservation
    if seen.contains reservation.reservationId then
      .error ⟨"reservation_id", "must be unique within a consume request"⟩
    else validateConsumeReservations (reservation.reservationId :: seen) reservations

/-- The count of reservations in a consume request. -/
def validateCount (reservations : List ConsumeReservation) : Validation :=
  if reservations.isEmpty || decide (maxConsumeReservations < reservations.length) then
    .error ⟨"reservations", "must contain between one and fifty reservations"⟩
  else .ok ()

/-- `validate_consume`. -/
def validateConsume (body : ConsumeBody) : Validation := do
  validateIdentifier body.tenantId "tenant_id"
  validateCount body.reservations
  validateFenceFields body.checkoutRequestId body.checkoutLeaseToken
  validateConsumeReservations [] body.reservations

/-! ## The requests of checkout -/

/-- The request id and the lease token of a `CheckoutFence`. -/
structure Fence where
  requestId : Text
  token : Uuid

/-- `InventoryReservation`. -/
structure InventoryReservation where
  reservationId : Text
  sku : Text
  quantity : Nat
  locationId : Option Text
  deriving DecidableEq

/-- The reservation id of a line. -/
def reservationId (order : PendingOrder) (line : OrderLine) : Text :=
  "reservation-".toList ++ order.id ++ '-' :: line.variantId

/-- The request of `reserve_inventory` for a line. -/
def reserveRequest (order : PendingOrder) (fence : Fence) (line : OrderLine) : ReserveQuery where
  tenantId := order.tenantId
  reservationId := reservationId order line
  sku := line.sku
  quantity := line.quantity
  checkoutRequestId := some fence.requestId
  checkoutLeaseToken := some fence.token.text

/-- The reservation of a line that inventory has not confirmed. -/
def unconfirmed (order : PendingOrder) (line : OrderLine) : InventoryReservation where
  reservationId := reservationId order line
  sku := line.sku
  quantity := line.quantity
  locationId := none

/-- The status of a reserve response. -/
inductive ReserveStatus where
  | reserved | alreadyReserved | alreadyConsumed | other
  deriving DecidableEq

/-- `InventoryReserveResponse`. -/
structure InventoryReserveResponse where
  tenantId : Text
  reservationId : Text
  sku : Text
  reserved : Nat
  locationId : Text
  remaining : Int
  status : ReserveStatus
  deriving DecidableEq

/-- `parse_inventory_reservation`; none is a protocol error. -/
def parseInventoryReservation (order : PendingOrder) (line : OrderLine)
    (response : InventoryReserveResponse) : Option InventoryReservation :=
  if response.tenantId ≠ order.tenantId ∨ response.reservationId ≠ reservationId order line ∨
      response.sku ≠ line.sku ∨ response.reserved ≠ line.quantity ∨
      trimIsEmpty response.locationId ∨ response.remaining < 0 ∨ response.status = .other then
    none
  else
    some ⟨response.reservationId, response.sku, response.reserved, some response.locationId⟩

/-- The request of `release_inventory` for a reservation. -/
def releaseRequest (order : PendingOrder) (fence : Fence) (reservation : InventoryReservation) :
    ReleaseBody where
  tenantId := order.tenantId
  reservationId := reservation.reservationId
  sku := reservation.sku
  quantity := reservation.quantity
  locationId := reservation.locationId
  checkoutRequestId := some fence.requestId
  checkoutLeaseToken := some fence.token.text

/-- The request of `consume_inventory`. -/
def consumeRequest (order : PendingOrder) (fence : Fence)
    (reservations : List InventoryReservation) : ConsumeBody where
  tenantId := order.tenantId
  checkoutRequestId := some fence.requestId
  checkoutLeaseToken := some fence.token.text
  reservations := reservations.map fun reservation =>
    ⟨reservation.reservationId, reservation.sku, reservation.quantity, reservation.locationId⟩

/-! ## Acceptance -/

/-- A reservation that inventory confirmed at one of its locations. -/
def Confirmed (order : PendingOrder) (locations : List Text) (line : OrderLine)
    (reservation : InventoryReservation) : Prop :=
  ∃ response : InventoryReserveResponse, response.locationId ∈ locations ∧
    parseInventoryReservation order line response = some reservation

/-- Inventory accepts every request that checkout builds for an order: to reserve
its lines, to release them whether they were confirmed or not, and to consume
them once they all were. -/
structure AcceptableToInventory (order : PendingOrder) (fence : Fence) (locations : List Text) :
    Prop where
  reserve : ∀ line ∈ order.lines, validateReserve (reserveRequest order fence line) = .ok ()
  releaseUnconfirmed : ∀ line ∈ order.lines,
    validateRelease (releaseRequest order fence (unconfirmed order line)) = .ok ()
  release : ∀ line ∈ order.lines, ∀ reservation, Confirmed order locations line reservation →
    validateRelease (releaseRequest order fence reservation) = .ok ()
  consume : ∀ reservations,
    List.Forall₂ (Confirmed order locations) order.lines reservations →
      validateConsume (consumeRequest order fence reservations) = .ok ()

/-- The alphabet of inventory's identifiers. -/
def InAlphabet (value : Text) : Prop := (utf8 value).all isIdentifierByte = true

instance (value : Text) : Decidable (InAlphabet value) :=
  inferInstanceAs (Decidable (_ = true))

/-- The names of an order are in inventory's alphabet, and the variants short enough
for a reservation id. -/
structure InventoryNames (order : PendingOrder) (requestId : Text) (locations : List Text) :
    Prop where
  tenantId : InAlphabet order.tenantId
  requestId : InAlphabet requestId
  skus : ∀ line ∈ order.lines, InAlphabet line.sku
  variants : ∀ line ∈ order.lines,
    InAlphabet line.variantId ∧ (utf8 line.variantId).length ≤ 73
  locations : ∀ location ∈ locations, trimIsEmpty location = false →
    InAlphabet location ∧ (utf8 location).length ≤ 128

end CommercePlayground.Boundary
