/-
CommercePlayground.Boundary.Payment — the authorization checkout asks for, and
`PaymentRequestValidator` of the payment service.

The validator is Java: it counts UTF-16 units and has its own notion of a blank
text. A field of the message that is not set reads as its default.
-/
import CommercePlayground.Boundary.Order

namespace CommercePlayground.Boundary

open Lib Pricing

/-! ## The request -/

/-- `PaymentMethodType`; `unrecognized` is a number that names none. -/
inductive PaymentMethodType where
  | unspecified | card | bankAccount | wallet | unrecognized
  deriving DecidableEq

/-- `AuthorizeRequest`. -/
structure AuthorizeRequest where
  requestId : Text
  merchantReference : Text
  amount : Money
  methodType : PaymentMethodType
  methodToken : Text
  tenantId : Text
  deriving DecidableEq

/-- `payment_method_type`. -/
def paymentMethodType (method : Text) : PaymentMethodType :=
  let name := toAsciiLowercase (trim method)
  if name = "bank_account".toList ∨ name = "bank-account".toList then .bankAccount
  else if name = "wallet".toList then .wallet
  else .card

/-- The request of `authorize_payment`. -/
def authorizeRequest (order : PendingOrder) (requestId token method : Text) :
    AuthorizeRequest where
  requestId := requestId ++ ":authorize".toList
  merchantReference := order.id
  amount := ⟨order.currency, order.totalMinor⟩
  methodType := paymentMethodType method
  methodToken := token
  tenantId := order.tenantId

/-! ## The validator -/

/-- The `PaymentFailureReason` of a refusal. -/
inductive PaymentFailureReason where
  | unspecified | invalidPaymentMethod | invalidState
  deriving DecidableEq

/-- `PaymentRpcException.invalidArgument`. -/
structure PaymentRpcException where
  reason : PaymentFailureReason
  message : String
  deriving DecidableEq

abbrev PaymentCheck := Except PaymentRpcException Unit

/-- `Integer.MAX_VALUE`. -/
def maxAmountMinor : Int := 2 ^ 31 - 1

/-- `requireText`. -/
def requireText (value : Text) (field : String) (maxLength : Nat) : PaymentCheck :=
  if isBlank value then .error ⟨.unspecified, field ++ " is required"⟩
  else if maxLength < (utf16 value).length then
    .error ⟨.unspecified, field ++ " exceeds maximum length"⟩
  else .ok ()

/-- The pattern `[A-Z]{3}`. -/
def isCurrency (value : Text) : Bool :=
  decide ((utf16 value).length = 3) &&
    (utf16 value).all fun n => decide (0x41 ≤ n ∧ n ≤ 0x5a)

/-- `requireMoney`. -/
def requireMoney (money : Money) (field : String) : PaymentCheck := do
  requireText money.currencyCode (field ++ ".currency_code") 3
  if !isCurrency money.currencyCode then
    .error ⟨.unspecified, field ++ ".currency_code must be an uppercase ISO 4217 code"⟩
  else if money.amountMinor ≤ 0 ∨ maxAmountMinor < money.amountMinor then
    .error ⟨.unspecified, field ++ ".amount_minor must be positive"⟩
  else pure ()

/-- `requireMethod`. -/
def requireMethod (methodType : PaymentMethodType) (token : Text) : PaymentCheck :=
  if methodType = .unspecified ∨ methodType = .unrecognized then
    .error ⟨.invalidPaymentMethod, "payment_method.type is required"⟩
  else requireText token "payment_method.token" 512

/-- `PaymentRequestValidator.authorize`. -/
def validateAuthorize (request : AuthorizeRequest) : PaymentCheck := do
  requireText request.requestId "request_id" 128
  requireText request.tenantId "tenant_id" 128
  requireText request.merchantReference "merchant_reference" 256
  requireMoney request.amount "amount"
  requireMethod request.methodType request.methodToken

end CommercePlayground.Boundary
