/-
CommercePlayground.Storefront.Requests — the quotes the storefront asks for.

`quote` of the store checks its arguments, resolves the identity and the business context and
sends a request together with a context. `admitQuote` is the other side: the pricing service
reads the tenant from the headers and then checks the request once more.
-/
import CommercePlayground.Boundary.Payment
import CommercePlayground.Propagation.Calls
import CommercePlayground.Storefront.Identity

namespace CommercePlayground.Storefront

open Lib Propagation Propagation.Shared Boundary

/-! ## The arguments -/

def maxCartItemQuantity : Int := 100

/-- `CartItemInput`; the quantity is an `i32`. -/
structure CartItemInput where
  sku : Text
  quantity : Int
  deriving DecidableEq

/-- The item loop of `validate_items`. -/
def validateItemList (operation : String) (skus : List Text) :
    List CartItemInput → Except String Unit
  | [] => .ok ()
  | item :: items => do
    validateIdentityComponent item.sku "sku"
    if item.quantity ≤ 0 ∨ maxCartItemQuantity < item.quantity then
      .error (operation ++ " item quantity must be between 1 and 100")
    else if skus.contains item.sku then .error (operation ++ " SKUs must be unique")
    else validateItemList operation (item.sku :: skus) items

/-- `validate_items`. -/
def validateItems (operation : String) (items : List CartItemInput) : Except String Unit :=
  if items.isEmpty || decide (50 < items.length) then
    .error (operation ++ " requires at least one item")
  else validateItemList operation [] items

/-- `validate_currency_code`, which `quote` repeats. -/
def validateCurrencyCode (value : Text) : Except String Unit :=
  if (utf8 value).length ≠ 3 ∨ value ≠ toAsciiUppercase value ∨
      (utf8 value).all isAsciiAlphabetic = false then
    .error "currency_code must be a three-letter uppercase code"
  else .ok ()

/-- An argument that must be there and not blank. -/
def requireText (value : Option Text) (name : String) : Except String Text :=
  match value.filter fun value => !trimIsEmpty value with
  | none => .error (name ++ " is required")
  | some value => .ok value

/-! ## The business context -/

/-- `validated_context_value`. -/
def validatedContextValue (override : Option Text) (context : Context) (key default : Text)
    (name : String) : Except String Text := do
  let value := trim (override.getD (baggageOr context key default))
  validateIdentityComponent value name
  return value

/-- `parse_payment_method_type`. -/
def parsePaymentMethodType (value : Text) : Except String Boundary.PaymentMethodType :=
  let normalized := toAsciiLowercase value
  if normalized = "card".toList then .ok .card
  else if normalized = "bank_account".toList ∨ normalized = "bank-account".toList then
    .ok .bankAccount
  else if normalized = "wallet".toList then .ok .wallet
  else .error ("unsupported payment method type: " ++ String.ofList value)

/-- `payment_method_type_name`. -/
def paymentMethodTypeName : Boundary.PaymentMethodType → Text
  | .bankAccount => "bank_account".toList
  | .wallet => "wallet".toList
  | _ => "card".toList

/-- `BusinessContextInput`. -/
structure BusinessContextInput where
  segment : Option Text
  tier : Option Text
  region : Option Text
  priority : Option Text
  pricingStrategy : Option Text
  promotionCode : Option Text
  paymentMethodType : Option Text
  deriving DecidableEq

/-- `ValidatedBusinessContext`. -/
structure ValidatedBusinessContext where
  segment : Text
  tier : Text
  region : Text
  priority : Text
  pricingStrategy : Text
  promotionCode : Option Text
  paymentMethodType : Boundary.PaymentMethodType
  deriving DecidableEq

/-- `validated_business_context`. -/
def validatedBusinessContext (context : Context) (input : BusinessContextInput) :
    Except String ValidatedBusinessContext := do
  let segment ← validatedContextValue input.segment context customerSegmentKey
    "standard".toList "segment"
  let tier ← validatedContextValue input.tier context userTierKey "standard".toList "tier"
  let region ← validatedContextValue input.region context regionKey "us-east-1".toList "region"
  let priority ← validatedContextValue input.priority context requestPriorityKey
    "normal".toList "priority"
  let promotionCode := argument input.promotionCode
  promotionCode.forM fun value => validateIdentityComponent value "promotion_code"
  let pricingStrategy := (argument input.pricingStrategy).getD
    (if promotionCode.isSome then "promotional".toList else "standard".toList)
  if pricingStrategy ≠ "standard".toList ∧ pricingStrategy ≠ "promotional".toList then
    .error "pricing_strategy is not supported"
  else if promotionCode.isSome ∧ pricingStrategy ≠ "promotional".toList then
    .error "pricing_strategy must be promotional when promotion_code is supplied"
  else if promotionCode.isNone ∧ pricingStrategy = "promotional".toList then
    .error "promotion_code is required for promotional pricing_strategy"
  else do
    let paymentMethodType ←
      parsePaymentMethodType (input.paymentMethodType.getD "card".toList)
    return ⟨segment, tier, region, priority, pricingStrategy, promotionCode, paymentMethodType⟩

/-- `pricing_context`. -/
def ValidatedBusinessContext.pricingContext (business : ValidatedBusinessContext) :
    List (Text × Text) :=
  [("customer_segment".toList, business.segment), ("customer_tier".toList, business.tier),
    ("region".toList, business.region), ("request_priority".toList, business.priority),
    ("pricing_strategy".toList, business.pricingStrategy),
    ("payment_method_type".toList, paymentMethodTypeName business.paymentMethodType)] ++
    (business.promotionCode.map fun value => ("promotion_code".toList, value)).toList

/-- `apply_to_context`. -/
def ValidatedBusinessContext.applyToContext (library : Library)
    (business : ValidatedBusinessContext) (context : Context) : Context :=
  extendBaggage library context [(userTierKey, business.tier),
    (customerSegmentKey, business.segment), (regionKey, business.region),
    (requestPriorityKey, business.priority)]

/-! ## What the storefront calls on with -/

/-- The contexts of its calls, each with the tenant the call is for: the queries of the
catalog, those for a customer, and the two requests with a business context. -/
inductive StoreContext.CallsWith (library : Library) (store : StoreContext) (active : Context) :
    Text → Context → Prop where
  | tenant {requested : Option Text} {t : Text} {context : Context}
    (htenant : store.resolveTenantId requested = .ok t)
    (hcontext : store.outboundContextForTenant library active t = .ok context) :
    CallsWith library store active t context
  | identity {uuid : Uuid} {tenantId customerId sessionId : Option Text} {require : Bool}
    {identity : CommerceIdentity}
    (hidentity : store.resolveIdentity uuid tenantId customerId sessionId require =
      .ok identity) :
    CallsWith library store active identity.tenantId
      (store.outboundContextForIdentity library active identity)
  | business {uuid : Uuid} {tenantId customerId sessionId : Option Text} {require : Bool}
    {identity : CommerceIdentity} {input : BusinessContextInput}
    {business : ValidatedBusinessContext}
    (hidentity : store.resolveIdentity uuid tenantId customerId sessionId require =
      .ok identity)
    (hbusiness : validatedBusinessContext
      (store.outboundContextForIdentity library active identity) input = .ok business) :
    CallsWith library store active identity.tenantId (business.applyToContext library
      (store.outboundContextForIdentity library active identity))

/-! ## A quote -/

/-- `QuoteInput`. -/
structure QuoteInput where
  items : List CartItemInput
  tenantId : Option Text
  customerId : Option Text
  currencyCode : Option Text
  business : BusinessContextInput
  requestId : Option Text
  deriving DecidableEq

/-- `quote`, up to the call: the request and the context it is sent with. -/
def StoreContext.quote (library : Library) (store : StoreContext) (active : Context)
    (uuid : Uuid) (input : QuoteInput) : Except String (Pricing.QuoteRequest × Context) := do
  let identity ← store.resolveIdentity uuid input.tenantId input.customerId none false
  validateItems "quote" input.items
  let items : List Pricing.QuoteItem ← input.items.mapM fun item =>
    if trimIsEmpty item.sku ∨ item.quantity ≤ 0 then
      .error "each quote item needs a SKU and positive quantity"
    else .ok ⟨item.sku, item.quantity.toNat⟩
  let currencyCode ← requireText input.currencyCode "currency_code"
  validateCurrencyCode currencyCode
  let identityContext := store.outboundContextForIdentity library active identity
  let business ← validatedBusinessContext identityContext input.business
  let requestId := (input.requestId.filter fun value => !trimIsEmpty value).getD
    ("storefront-".toList ++ uuid.text)
  return (⟨requestId, identity.tenantId, identity.customerId, items, currencyCode,
    business.pricingContext⟩, business.applyToContext library identityContext)

/-- The start of `quote` in the pricing service: the tenant, and then the request. -/
def admitQuote (headers : TenantHeaders) (request : Pricing.QuoteRequest) :
    Pricing.StatusResult Pricing.QuoteRequest := do
  let tenantId ← (resolveGrpcTenantIdentity headers (some request.tenantId)).mapError
    fun error => .invalidArgument error.message
  let request := { request with tenantId := tenantId }
  Pricing.validateRequest request
  return request

end CommercePlayground.Storefront
