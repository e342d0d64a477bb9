/-
CommercePlayground.Boundary.Settlement — the requests that settle an authorized payment
or undo it, and their checks in `PaymentRequestValidator`.

Checkout derives the id of each request from the id of the checkout: capture, void and
refund append a word to it, and the refund its amount as well, so that a repeated
request is recognised.
-/
import CommercePlayground.Boundary.Payment

namespace CommercePlayground.Boundary

open Lib Pricing

/-! ## Request ids -/

/-- `format!("{request_id}:authorize")`. -/
def authorizeRequestId (requestId : Text) : Text := requestId ++ ":authorize".toList

/-- `format!("{request_id}:capture")`. -/
def captureRequestId (requestId : Text) : Text := requestId ++ ":capture".toList

/-- `format!("{request_id}:void")`. -/
def voidRequestId (requestId : Text) : Text := requestId ++ ":void".toList

/-- An `i64` as `format!` prints it. -/
def displayInt : Int → Text
  | .ofNat n => decimal n
  | .negSucc n => '-' :: decimal (n + 1)

/-- `format!("{request_id}:refund:{amount_minor}")`. -/
def refundRequestId (requestId : Text) (amountMinor : Int) : Text :=
  requestId ++ ":refund:".toList ++ displayInt amountMinor

/-! ## Requests -/

/-- `VoidReason`; `unrecognized` is a number that names none. -/
inductive VoidReason where
  | unspecified | customerCancelled | orderCancelled | expired | unrecognized
  deriving DecidableEq

/-- `RefundReason`. -/
inductive RefundReason where
  | unspecified | customerReturn | orderCancelled | duplicateCharge | other | unrecognized
  deriving DecidableEq

structure CaptureRequest where
  requestId : Text
  paymentId : Text
  amount : Option Money
  tenantId : Text

structure VoidRequest where
  requestId : Text
  paymentId : Text
  reason : VoidReason
  tenantId : Text

structure RefundRequest where
  requestId : Text
  paymentId : Text
  amount : Money
  reason : RefundReason
  tenantId : Text

/-- The request of `capture_payment`. -/
def captureRequest (order : PendingOrder) (paymentId requestId : Text) : CaptureRequest where
  requestId := captureRequestId requestId
  paymentId := paymentId
  amount := some ⟨order.currency, order.totalMinor⟩
  tenantId := order.tenantId

/-- The request of `void_payment`. -/
def voidRequest (order : PendingOrder) (paymentId requestId : Text) : VoidRequest where
  requestId := voidRequestId requestId
  paymentId := paymentId
  reason := .orderCancelled
  tenantId := order.tenantId

/-- The request of `refund_payment`. -/
def refundRequest (order : PendingOrder) (paymentId requestId : Text) (amountMinor : Int) :
    RefundRequest where
  requestId := refundRequestId requestId amountMinor
  paymentId := paymentId
  amount := ⟨order.currency, amountMinor⟩
  reason := .orderCancelled
  tenantId := order.tenantId

/-! ## The validator -/

/-- `requireRequestId`. -/
def requireRequestId (requestId : Text) : PaymentCheck := requireText requestId "request_id" 128

/-- `PaymentRequestValidator.capture`. -/
def validateCapture (request : CaptureRequest) : PaymentCheck := do
  requireRequestId request.requestId
  requireText request.tenantId "tenant_id" 128
  requireText request.paymentId "payment_id" 128
  match request.amount with
  | some amount => requireMoney amount "amount"
  | none => pure ()

/-- The reason check of `voidPayment` and `refund`. -/
def requireReason (known : Bool) : PaymentCheck :=
  if known then pure () else .error ⟨.invalidState, "reason is required"⟩

/-- `PaymentRequestValidator.voidPayment`. -/
def validateVoid (request : VoidRequest) : PaymentCheck := do
  requireRequestId request.requestId
  requireText request.tenantId "tenant_id" 128
  requireText request.paymentId "payment_id" 128
  requireReason (request.reason ≠ .unspecified ∧ request.reason ≠ .unrecognized)

/-- `PaymentRequestValidator.refund`. -/
def validateRefund (request : RefundRequest) : PaymentCheck := do
  requireRequestId request.requestId
  requireText request.tenantId "tenant_id" 128
  requireText request.paymentId "payment_id" 128
  requireMoney request.amount "amount"
  requireReason (request.reason ≠ .unspecified ∧ request.reason ≠ .unrecognized)

end CommercePlayground.Boundary
