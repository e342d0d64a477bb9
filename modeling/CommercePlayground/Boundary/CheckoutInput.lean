/-
CommercePlayground.Boundary.CheckoutInput — what checkout accepts at the door.

The first lines of `checkout`: the request id, `resolve_checkout_identity`,
`validate_input` and `require_payment_credentials`, on the texts themselves.
The other modules of checkout take identifiers as opaque keys; here their
spelling and their length count, because the services behind check them again.
-/
import CommercePlayground.Pricing.Domain

namespace CommercePlayground.Boundary

open Lib

/-! ## Errors -/

/-- `ApiError.code`. -/
inductive ErrorCode where
  | tenantRequired | identityConflict | invalidIdentity | invalidSession | invalidCart
  | invalidRequestId | invalidPromotion | invalidCurrency | invalidItems | invalidSku
  | invalidQuantity | duplicateSku | paymentMethodRequired | invalidPaymentMethodToken
  | invalidPaymentMethodType | pricingProtocolError | amountOutOfRange | productNotFound
  deriving DecidableEq

/-- `ApiError`: the HTTP status, the code and the message. -/
structure ApiError where
  status : Nat
  code : ErrorCode
  message : String
  deriving DecidableEq

abbrev ApiResult (α : Type) := Except ApiError α

/-- A `BAD_REQUEST`. -/
def badRequest {α : Type} (code : ErrorCode) (message : String) : ApiResult α :=
  .error ⟨400, code, message⟩

/-! ## The request -/

/-- `CheckoutItemInput`. -/
structure CheckoutItemInput where
  sku : Text
  quantity : Nat
  deriving DecidableEq

/-- `CheckoutInput`, without the fields that only describe the scenario. -/
structure CheckoutInput where
  tenantId : Text
  customerId : Text
  sessionId : Option Text
  cartId : Option Text
  items : List CheckoutItemInput
  currencyCode : Text
  promotionCode : Option Text
  paymentMethodToken : Option Text
  paymentMethodType : Option Text
  requestId : Option Text
  deriving DecidableEq

def maxItems : Nat := 50

def maxQuantity : Nat := 100

def maxIdentifierLength : Nat := 128

/-- `bounded_identifier` and `valid_identity_component`. -/
def boundedIdentifier (value : Text) : Bool :=
  !trimIsEmpty value && decide ((utf8 value).length ≤ maxIdentifierLength) &&
    !value.any isControl

/-- The item loop of `validate_input`. -/
def validateItems (skus : List Text) : List CheckoutItemInput → ApiResult Unit
  | [] => .ok ()
  | item :: items =>
    if !boundedIdentifier item.sku then badRequest .invalidSku "each item needs a valid SKU"
    else if item.quantity = 0 ∨ maxQuantity < item.quantity then
      badRequest .invalidQuantity "each item needs a quantity from one to one hundred"
    else if skus.contains item.sku then
      badRequest .duplicateSku "each SKU may appear only once in a checkout"
    else validateItems (item.sku :: skus) items

/-- `validate_input`. -/
def validateInput (input : CheckoutInput) : ApiResult Unit :=
  if !boundedIdentifier input.tenantId || !boundedIdentifier input.customerId then
    badRequest .invalidIdentity "tenant_id and customer_id are required"
  else if input.sessionId.any fun value => !boundedIdentifier value then
    badRequest .invalidSession "session_id is invalid"
  else if input.cartId.any fun value => !boundedIdentifier value then
    badRequest .invalidCart "cart_id is invalid"
  else if input.requestId.any fun value => !boundedIdentifier value then
    badRequest .invalidRequestId "request_id is invalid"
  else if input.promotionCode.any fun value => !boundedIdentifier value then
    badRequest .invalidPromotion "promotion_code is invalid"
  else if !Pricing.isCurrencyCode input.currencyCode then
    badRequest .invalidCurrency "currency_code must be three uppercase letters"
  else if input.items.isEmpty || decide (maxItems < input.items.length) then
    badRequest .invalidItems "checkout needs between one and fifty items"
  else validateItems [] input.items

/-! ## The identity -/

/-- What the propagated baggage holds, if it is not empty. -/
def propagated (baggage : List (Text × Text)) (key : String) : Option Text :=
  (baggage.lookup key.toList).filter fun value => !value.isEmpty

/-- `resolve_tenant_id`. -/
def resolveTenantId (baggage : List (Text × Text)) (requested : Text) : ApiResult Text :=
  let requested := if trimIsEmpty requested then none else some (trim requested)
  let propagated := propagated baggage "tenant.id"
  if requested.isSome && propagated.isSome && decide (requested ≠ propagated) then
    .error ⟨409, .identityConflict,
      "tenant identity conflicts with propagated request identity"⟩
  else
    match requested.or propagated with
    | none =>
      badRequest .tenantRequired "tenant_id is required in the request or tenant.id baggage"
    | some tenantId =>
      if !boundedIdentifier tenantId then badRequest .invalidIdentity "tenant_id is invalid"
      else .ok tenantId

/-- `resolve_session_id`. -/
def resolveSessionId (baggage : List (Text × Text)) (requested : Option Text) :
    ApiResult (Option Text) :=
  let requested := requested.filter fun value => !value.isEmpty
  if requested.any fun value => !boundedIdentifier value then
    badRequest .invalidSession "session_id is invalid"
  else
    let propagated := propagated baggage "session.id"
    if requested.isSome && propagated.isSome && decide (requested ≠ propagated) then
      .error ⟨409, .identityConflict,
        "session identity conflicts with propagated request identity"⟩
    else .ok (requested.or propagated)

/-- `resolve_checkout_identity`. -/
def resolveCheckoutIdentity (baggage : List (Text × Text)) (requestedTenant : Text)
    (requestedSession : Option Text) (fallbackSession : Text) : ApiResult (Text × Text) := do
  let tenantId ← resolveTenantId baggage requestedTenant
  let sessionId ← resolveSessionId baggage requestedSession
  let sessionId := sessionId.getD fallbackSession
  if !boundedIdentifier sessionId then badRequest .invalidSession "session_id is invalid"
  else pure (tenantId, sessionId)

/-- `require_payment_credentials`. -/
def requirePaymentCredentials (input : CheckoutInput) : ApiResult (Text × Text) :=
  match input.paymentMethodToken.filter fun value => !trimIsEmpty value with
  | none => badRequest .paymentMethodRequired "payment_method_token is required"
  | some token =>
    if !boundedIdentifier token then
      badRequest .invalidPaymentMethodToken "payment_method_token is invalid"
    else
      match input.paymentMethodType.filter fun value => !trimIsEmpty value with
      | none => badRequest .paymentMethodRequired "payment_method_type is required"
      | some method =>
        if (["card", "bank_account", "bank-account", "wallet"].map String.toList).contains
            (toAsciiLowercase (trim method)) then .ok (token, method)
        else badRequest .invalidPaymentMethodType "payment_method_type is unsupported"

/-! ## The door -/

/-- The request id of a checkout: the caller's, or a fresh one. -/
def checkoutRequestId (uuid : Text) (input : CheckoutInput) : Text :=
  (input.requestId.filter fun value => !trimIsEmpty value).getD ("checkout-".toList ++ uuid)

/-- The input checkout goes on with, if it accepts the one it got. `uuid` is what
`Uuid::new_v4` gave. -/
def acceptCheckout (baggage : List (Text × Text)) (uuid : Text) (input : CheckoutInput) :
    ApiResult CheckoutInput := do
  let requestId := checkoutRequestId uuid input
  let (tenantId, sessionId) ← resolveCheckoutIdentity baggage input.tenantId input.sessionId
    ("session-".toList ++ requestId)
  let input := { input with
    tenantId := tenantId, sessionId := some sessionId, requestId := some requestId }
  validateInput input
  let _ ← requirePaymentCredentials input
  pure input

end CommercePlayground.Boundary
