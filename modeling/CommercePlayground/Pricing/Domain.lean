/-
CommercePlayground.Pricing.Domain — `domain.rs` of the pricing service.

Requests, their checks and their cache key, and the quote with its validity. A
`u64` that wraps is taken modulo `2 ^ 64`; an `i64` operation that is checked
fails outside its range.
-/
import CommercePlayground.Lib.Text
import Mathlib.Algebra.Order.Ring.Int

namespace CommercePlayground.Pricing

open Lib

/-! ## Messages -/

/-- `QuoteItem`. -/
structure QuoteItem where
  sku : Text
  quantity : Nat
  deriving DecidableEq

/-- `QuoteRequest`; the context is a map. -/
structure QuoteRequest where
  requestId : Text
  tenantId : Text
  customerId : Text
  items : List QuoteItem
  currencyCode : Text
  context : List (Text × Text)
  deriving DecidableEq

/-- `Money`. -/
structure Money where
  currencyCode : Text
  amountMinor : Int
  deriving DecidableEq

/-- `QuoteLine`. -/
structure QuoteLine where
  sku : Text
  quantity : Nat
  unitPrice : Option Money
  lineTotal : Option Money
  deriving DecidableEq

/-- `QuoteStatus`; `other` is any number that names none. -/
inductive QuoteStatus where
  | unspecified | ready | expired | rejected | other
  deriving DecidableEq

/-- `QuoteResponse`. -/
structure QuoteResponse where
  quoteId : Text
  status : QuoteStatus
  lines : List QuoteLine
  subtotal : Option Money
  discountTotal : Option Money
  taxTotal : Option Money
  grandTotal : Option Money
  validForSeconds : Nat
  pricingVersion : Text
  deriving DecidableEq

/-- `Status`: the code and the message. -/
inductive Status where
  | invalidArgument (message : String)
  | failedPrecondition (message : String)
  | notFound (message : String)
  | outOfRange (message : String)
  | internal (message : String)
  | unavailable
  deriving DecidableEq

abbrev StatusResult (α : Type) := Except Status α

/-! ## Requests -/

def maxItems : Nat := 50

def maxQuantity : Nat := 100

def maxIdentifierLength : Nat := 128

/-- `request.context.get(key)`. -/
def QuoteRequest.get (request : QuoteRequest) (key : String) : Option Text :=
  request.context.lookup key.toList

/-- A three-letter uppercase code. -/
def isCurrencyCode (code : Text) : Bool :=
  !(decide ((utf8 code).length ≠ 3) || decide (code ≠ toAsciiUppercase code) ||
    !(utf8 code).all isAsciiAlphabetic)

/-- The item loop of `validate_request`. -/
def validateItems (skus : List Text) : List QuoteItem → StatusResult Unit
  | [] => .ok ()
  | item :: items =>
    if trimIsEmpty item.sku || decide (maxIdentifierLength < (utf8 item.sku).length) then
      .error (.invalidArgument "each quote item needs a valid SKU")
    else if item.quantity = 0 ∨ maxQuantity < item.quantity then
      .error (.invalidArgument "each quote item needs a quantity from one to one hundred")
    else if skus.contains item.sku then
      .error (.invalidArgument "quote SKUs must be unique")
    else validateItems (item.sku :: skus) items

/-- The context loop of `validate_request`. -/
def validateContext (request : QuoteRequest) : List String → StatusResult Unit
  | [] => .ok ()
  | name :: names =>
    match request.get name with
    | none => validateContext request names
    | some value =>
      if decide (maxIdentifierLength < (utf8 value).length) || value.any isControl then
        .error (.invalidArgument (name ++ " exceeds the maximum length"))
      else validateContext request names

/-- `validate_request`. -/
def validateRequest (request : QuoteRequest) : StatusResult Unit :=
  if trimIsEmpty request.tenantId then .error (.invalidArgument "tenant_id is required")
  else if 128 < (utf8 request.tenantId).length then
    .error (.invalidArgument "tenant_id exceeds maximum length")
  else if trimIsEmpty request.customerId then
    .error (.invalidArgument "customer_id is required")
  else if maxIdentifierLength < (utf8 request.customerId).length then
    .error (.invalidArgument "customer_id exceeds maximum length")
  else if request.items.isEmpty then
    .error (.invalidArgument "at least one quote item is required")
  else if maxItems < request.items.length then
    .error (.invalidArgument "too many quote items")
  else if !isCurrencyCode request.currencyCode then
    .error (.invalidArgument "currency_code must be a three-letter uppercase code")
  else do
    validateItems [] request.items
    validateContext request
      ["promotion_code", "pricing_strategy", "customer_segment", "customer_tier", "region",
        "request_priority"]
    match request.get "pricing_strategy" with
    | none => pure ()
    | some strategy =>
      if strategy = "standard".toList ∨ strategy = "promotional".toList then pure ()
      else .error (.invalidArgument "pricing_strategy is not supported")

/-! ## The cache key -/

/-- The context keys of the fingerprint, in its order. -/
def fingerprintKeys : List String :=
  ["pricing_strategy", "promotion_code", "customer_segment", "customer_tier", "region",
    "request_priority"]

/-- What the fingerprint reads for a context key. -/
def QuoteRequest.contextValue (request : QuoteRequest) (key : String) : Text :=
  (request.get key).getD []

/-- The text that `stable_request_fingerprint` hashes. -/
def fingerprintText (request : QuoteRequest) : Text :=
  request.tenantId ++ '|' :: request.customerId ++ '|' :: request.currencyCode ++
    (fingerprintKeys.flatMap fun key => '|' :: key.toList ++ '=' :: request.contextValue key) ++
    request.items.flatMap fun item => '|' :: item.sku ++ ':' :: decimal item.quantity

/-- One byte of the rolling hash. -/
def hashByte (hash byte : Nat) : Nat := (hash * 31 % 2 ^ 64 + byte) % 2 ^ 64

/-- `stable_request_fingerprint`. -/
def stableRequestFingerprint (request : QuoteRequest) : Text :=
  decimal ((utf8 (fingerprintText request)).foldl hashByte 0)

/-- `request_id`. -/
def requestId (request : QuoteRequest) : Text :=
  if trimIsEmpty request.requestId then "quote-".toList ++ stableRequestFingerprint request
  else request.requestId

/-- `cache_key`. -/
def cacheKey (request : QuoteRequest) : Text :=
  "pricing:quote:".toList ++ request.tenantId ++ ':' :: request.customerId ++
    ':' :: request.currencyCode ++ ':' :: stableRequestFingerprint request

/-! ## Quotes -/

/-- `CachedLine`. -/
structure CachedLine where
  productId : Text
  sku : Text
  quantity : Nat
  unitMinor : Int
  lineMinor : Int
  deriving DecidableEq

/-- `CachedQuote`. -/
structure CachedQuote where
  quoteId : Text
  lines : List CachedLine
  subtotalMinor : Int
  discountMinor : Int
  grandTotalMinor : Int
  currency : Text
  pricingVersion : Text
  priceSource : Text
  expiresAtUnixMs : Int
  deriving DecidableEq

def quoteTtlSeconds : Int := 45

def millisPerSecond : Int := 1000

/-- The range of `i64`. -/
def inI64 (n : Int) : Bool := decide (-2 ^ 63 ≤ n ∧ n < 2 ^ 63)

/-- A checked operation: the exact result, if it is an `i64`. -/
def checked (n : Int) (error : Status) : StatusResult Int :=
  if inI64 n then .ok n else .error error

/-- `unix_millis`; a time is in milliseconds from the epoch. -/
def unixMillis (now : Int) : StatusResult Int :=
  if now < 0 then .error (.internal "system clock predates the Unix epoch")
  else if inI64 now then .ok now
  else .error (.internal "system clock exceeds quote timestamp limits")

/-- `quote_expiry_from`. -/
def quoteExpiryFrom (now : Int) : StatusResult Int := do
  let nowUnixMs ← unixMillis now
  let ttlMs ← checked (quoteTtlSeconds * millisPerSecond)
    (.internal "quote TTL arithmetic overflowed")
  checked (nowUnixMs + ttlMs) (.internal "quote expiry arithmetic overflowed")

/-- `remaining_validity_seconds`. -/
def CachedQuote.remainingValiditySeconds (quote : CachedQuote) (now : Int) :
    StatusResult Int := do
  let nowUnixMs ← unixMillis now
  if quote.expiresAtUnixMs ≤ nowUnixMs then pure 0
  else do
    let remainingMs ← checked (quote.expiresAtUnixMs - nowUnixMs)
      (.internal "quote expiry arithmetic overflowed")
    let padded ← checked (remainingMs + (millisPerSecond - 1))
      (.internal "quote expiry arithmetic overflowed")
    let remainingSeconds := padded / millisPerSecond
    if 0 ≤ remainingSeconds ∧ remainingSeconds < 2 ^ 32 then pure remainingSeconds
    else .error (.internal "quote validity exceeds protocol limits")

/-- `consume_at`. -/
def CachedQuote.consumeAt (quote : CachedQuote) (now : Int) : StatusResult Unit := do
  let remaining ← quote.remainingValiditySeconds now
  if remaining = 0 then .error (.failedPrecondition "quote has expired") else pure ()

/-- An amount in the currency of a quote. -/
def CachedQuote.money (quote : CachedQuote) (amountMinor : Int) : Option Money :=
  some ⟨quote.currency, amountMinor⟩

/-- A line of the response. -/
def CachedQuote.protoLine (quote : CachedQuote) (line : CachedLine) : QuoteLine where
  sku := line.sku
  quantity := line.quantity
  unitPrice := quote.money line.unitMinor
  lineTotal := quote.money line.lineMinor

/-- `to_proto_at`. -/
def toProtoAt (quote : CachedQuote) (now : Int) : StatusResult QuoteResponse := do
  quote.consumeAt now
  let validForSeconds ← quote.remainingValiditySeconds now
  pure
    { quoteId := quote.quoteId
      status := .ready
      lines := quote.lines.map quote.protoLine
      subtotal := quote.money quote.subtotalMinor
      discountTotal := quote.money quote.discountMinor
      taxTotal := quote.money 0
      grandTotal := quote.money quote.grandTotalMinor
      validForSeconds := validForSeconds.toNat
      pricingVersion := quote.pricingVersion }

end CommercePlayground.Pricing
