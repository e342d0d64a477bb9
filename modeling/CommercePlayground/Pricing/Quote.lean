/-
CommercePlayground.Pricing.Quote — `calculate_quote` of the pricing database.

One transaction reads the prices of the items and the promotion, and computes
the quote. The prices are the rows its query selects, by SKU. A finite `f64` is
a rational number and every operation on it is the exact one followed by
`nearest`, which gives the nearest `f64`, if there is a finite one.
-/
import Mathlib.Data.Rat.Floor
import CommercePlayground.Pricing.Domain

namespace CommercePlayground.Pricing

open Lib

/-! ## The database -/

/-- `SelectedPrice`; `amount_minor` is an `i32`. -/
structure SelectedPrice where
  productId : Text
  unitMinor : Int
  currency : Text
  priceSource : Text

/-- `promotions.discount_type`. -/
inductive DiscountType where
  | percentage | fixed | other
  deriving DecidableEq

/-- A row of `promotions`, with its rows of `promotion_products`. -/
structure Promotion where
  tenantId : Text
  code : Text
  discountType : DiscountType
  /-- None is a value that is not finite. -/
  discountValue : Option ℚ
  minimumSubtotalMinor : Int
  currency : Option Text
  startsAt : Int
  endsAt : Option Int
  maxRedemptions : Option Nat
  redemptionCount : Nat
  active : Bool
  products : List Text

/-- What the transaction reads. -/
structure Database where
  now : Int
  /-- Whether the queries succeed. -/
  available : Bool
  /-- `MAX(sequence)` of the tenant's price changes. -/
  sequence : Text → Nat
  /-- The prices the query selects for a tenant, a customer and a currency. -/
  prices : Text → Text → Text → List (Text × SelectedPrice)
  promotions : List Promotion

/-- The number format of the promotion arithmetic. -/
structure Format where
  /-- The nearest `f64`, none beyond the largest. -/
  nearest : ℚ → Option ℚ
  /-- Rounding does not pass zero. -/
  nonneg : ∀ x y, 0 ≤ x → nearest x = some y → 0 ≤ y

/-! ## Lines -/

/-- The line loop of `calculate_quote`. -/
def priceLines (selected : List (Text × SelectedPrice)) (currencyCode : Text) :
    List QuoteItem → StatusResult (List CachedLine)
  | [] => .ok []
  | item :: items =>
    match selected.lookup item.sku with
    | none => .error (.notFound ("unknown priced SKU: " ++ String.ofList item.sku))
    | some price =>
      if price.unitMinor < 0 then
        .error (.internal "pricing source returned a negative price")
      else if price.currency ≠ currencyCode then
        .error (.invalidArgument "currency is not supported for the SKU")
      else do
        let lineMinor ← checked (price.unitMinor * item.quantity)
          (.outOfRange "quote line amount overflowed")
        let lines ← priceLines selected currencyCode items
        pure (⟨price.productId, item.sku, item.quantity, price.unitMinor, lineMinor⟩ :: lines)

/-- A checked sum of line amounts. -/
def sumLines (error : Status) : Int → List CachedLine → StatusResult Int
  | subtotal, [] => .ok subtotal
  | subtotal, line :: lines => do
    let subtotal ← checked (subtotal + line.lineMinor) error
    sumLines error subtotal lines

/-! ## Promotions -/

/-- `f64::round`, half away from zero. -/
def roundHalf (x : ℚ) : Int :=
  if 0 ≤ x then (x + 1 / 2).floor else -(-x + 1 / 2).floor

/-- `as i64`, of a finite number. -/
def asI64 (n : Int) : Int := max (-2 ^ 63) (min n (2 ^ 63 - 1))

/-- The WHERE clause of the promotion query. -/
def Promotion.applies (p : Promotion) (request : QuoteRequest) (code : Text) (now : Int)
    (subtotalMinor : Int) : Bool :=
  decide (p.tenantId = request.tenantId ∧ p.code = code) && p.active && decide (p.startsAt ≤ now) &&
    p.endsAt.all (fun ends => decide (now < ends)) &&
    p.maxRedemptions.all (fun most => decide (p.redemptionCount < most)) &&
    p.currency.all (fun currency => decide (currency = request.currencyCode)) &&
    decide (p.minimumSubtotalMinor ≤ subtotalMinor)

/-- `raw_discount`, before its range check; none is not finite. -/
def rawDiscount (f : Format) (kind : DiscountType) (value : ℚ) (eligibleSubtotal : Int) :
    StatusResult (Option ℚ) :=
  match kind with
  | .percentage =>
    if 100 < value then .error (.internal "promotion percentage is invalid")
    else .ok (do
      let eligible ← f.nearest eligibleSubtotal
      let product ← f.nearest (eligible * value)
      f.nearest (product / 100))
  | .fixed => .ok (some value)
  | .other => .error (.internal "promotion type is invalid")

/-- `promotion_discount`. -/
def promotionDiscount (f : Format) (db : Database) (request : QuoteRequest) (code : Text)
    (lines : List CachedLine) (subtotalMinor : Int) : StatusResult Int :=
  match db.promotions.find? fun p => p.applies request code db.now subtotalMinor with
  | none => .ok 0
  | some promotion =>
    if promotion.products.isEmpty then .ok 0
    else do
      let eligibleSubtotal ← sumLines (.outOfRange "promotion subtotal overflowed") 0
        (lines.filter fun line => promotion.products.contains line.productId)
      if eligibleSubtotal = 0 then pure 0
      else
        match promotion.discountValue with
        | none => .error (.internal "promotion value is invalid")
        | some value =>
          if value ≤ 0 then .error (.internal "promotion value is invalid")
          else do
            match ← rawDiscount f promotion.discountType value eligibleSubtotal with
            | none => .error (.outOfRange "promotion discount overflowed")
            | some raw =>
              -- `i64::MAX as f64` is `2 ^ 63`
              if 2 ^ 63 < raw then .error (.outOfRange "promotion discount overflowed")
              else pure (min (asI64 (roundHalf raw)) eligibleSubtotal)

/-! ## The quote -/

/-- `pricing_version_in`. -/
def pricingVersionIn (db : Database) (tenantId : Text) : Text :=
  "price-change-".toList ++ decimal (db.sequence tenantId)

/-- `discount_minor` of `calculate_quote`. -/
def quoteDiscount (f : Format) (db : Database) (request : QuoteRequest)
    (lines : List CachedLine) (subtotalMinor : Int) : StatusResult Int :=
  let promotionCode := request.contextValue "promotion_code"
  let strategy := (request.get "pricing_strategy").getD "standard".toList
  if strategy = "promotional".toList ∧ !promotionCode.isEmpty then
    promotionDiscount f db request promotionCode lines subtotalMinor
  else .ok 0

/-- `PostgresRepository::calculate_quote`. -/
def calculateQuote (f : Format) (db : Database) (request : QuoteRequest) :
    StatusResult CachedQuote :=
  if !db.available then .error .unavailable
  else do
    let selected := db.prices request.tenantId request.customerId request.currencyCode
    let lines ← priceLines selected request.currencyCode request.items
    let subtotalMinor ← sumLines (.outOfRange "quote subtotal overflowed") 0 lines
    let discountMinor ← quoteDiscount f db request lines subtotalMinor
    let grandTotalMinor ← checked (subtotalMinor - discountMinor)
      (.internal "quote total arithmetic underflowed")
    let expiresAtUnixMs ← quoteExpiryFrom db.now
    match request.items.head?.bind fun item => selected.lookup item.sku with
    | none => .error (.internal "pricing batch query returned no price source")
    | some price =>
      pure
        { quoteId := requestId request
          lines := lines
          subtotalMinor := subtotalMinor
          discountMinor := discountMinor
          grandTotalMinor := grandTotalMinor
          currency := request.currencyCode
          pricingVersion := pricingVersionIn db request.tenantId
          priceSource := price.priceSource
          expiresAtUnixMs := expiresAtUnixMs }

end CommercePlayground.Pricing
