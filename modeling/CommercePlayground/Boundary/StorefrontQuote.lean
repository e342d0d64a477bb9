/-
CommercePlayground.Boundary.StorefrontQuote — what the storefront makes of a quote.

`Quote::try_from_proto`, `QuoteLine::try_from_proto` and `required_money`. The amounts
of a response are `i64`, its quantities and its validity `u32` (`WireQuote`).

`PricedQuote` is the other side: a response in which nothing is missing, and what makes
one consistent.
-/
import CommercePlayground.Pricing.Domain

namespace CommercePlayground.Boundary

open Lib
open Pricing (Money QuoteResponse QuoteStatus isCurrencyCode inI64)

namespace Storefront

/-! ## The code -/

/-- `QuoteLine` of the storefront. -/
structure QuoteLine where
  sku : Text
  quantity : Nat
  unitPrice : Option Money
  lineTotal : Option Money
  deriving DecidableEq

/-- `Quote` of the storefront. -/
structure Quote where
  quoteId : Text
  status : String
  lines : List QuoteLine
  subtotal : Option Money
  discountTotal : Option Money
  taxTotal : Option Money
  grandTotal : Option Money
  validForSeconds : Nat
  pricingVersion : Text
  deriving DecidableEq

/-- The checked operations of `i64`. -/
def checkedI64 (n : Int) : Option Int := if inI64 n then some n else none

/-- `ok_or_else`. -/
def orError {α : Type} (message : String) : Option α → Except String α
  | some a => .ok a
  | none => .error message

/-- `i32::try_from`. -/
def tryI32 (n : Nat) (message : String) : Except String Nat :=
  if n < 2 ^ 31 then .ok n else .error message

/-- `required_money`. -/
def requiredMoney (value : Option Money) (name : String) : Except String Money := do
  let money ← orError ("quote " ++ name ++ " is missing") value
  if !isCurrencyCode money.currencyCode || decide (money.amountMinor < 0) then
    .error ("quote " ++ name ++ " is invalid")
  else return money

/-- `QuoteLine::try_from_proto`. -/
def lineTryFromProto (value : Pricing.QuoteLine) : Except String QuoteLine :=
  if trimIsEmpty value.sku || decide (value.quantity = 0) then
    .error "quote line identity or quantity is invalid"
  else do
    let unitPrice ← requiredMoney value.unitPrice "line unit_price"
    let lineTotal ← requiredMoney value.lineTotal "line line_total"
    if unitPrice.currencyCode ≠ lineTotal.currencyCode ∨
        checkedI64 (unitPrice.amountMinor * value.quantity) ≠ some lineTotal.amountMinor then
      .error "quote line amount does not match quantity"
    else do
      let quantity ← tryI32 value.quantity "quote quantity exceeds GraphQL Int"
      return ⟨value.sku, quantity, some unitPrice, some lineTotal⟩

/-- `try_fold` over the line totals. -/
def lineSubtotal : Int → List QuoteLine → Except String Int
  | total, [] => .ok total
  | total, line :: lines => do
    let lineTotal ← orError "quote line total is missing" line.lineTotal
    let total ← orError "quote subtotal overflowed" (checkedI64 (total + lineTotal.amountMinor))
    lineSubtotal total lines

/-- `Quote::try_from_proto`, from the totals on. -/
def balance (lines : List QuoteLine) (subtotal discountTotal taxTotal grandTotal : Money) :
    Except String Unit :=
  if [discountTotal, taxTotal, grandTotal].any
      fun money => decide (money.currencyCode ≠ subtotal.currencyCode) then
    .error "quote currencies do not match"
  else do
    let lineSubtotal ← lineSubtotal 0 lines
    if lineSubtotal ≠ subtotal.amountMinor ∨
        subtotal.amountMinor < discountTotal.amountMinor then
      .error "quote totals do not match quote lines"
    else do
      let expectedTotal ← orError "quote total arithmetic overflowed"
        ((checkedI64 (subtotal.amountMinor - discountTotal.amountMinor)).bind
          fun total => checkedI64 (total + taxTotal.amountMinor))
      if expectedTotal ≠ grandTotal.amountMinor then .error "quote totals do not balance"
      else return ()

/-- `Quote::try_from_proto`. -/
def tryFromProto (value : QuoteResponse) : Except String Quote :=
  if value.status = .other then .error "quote status is invalid"
  else if value.status ≠ .ready then .error "quote is not ready"
  else if trimIsEmpty value.quoteId || trimIsEmpty value.pricingVersion then
    .error "quote identity is incomplete"
  else if value.validForSeconds = 0 then .error "quote expiration is missing"
  else if value.lines.isEmpty || decide (50 < value.lines.length) then
    .error "quote line count is invalid"
  else do
    let lines ← value.lines.mapM lineTryFromProto
    let subtotal ← requiredMoney value.subtotal "subtotal"
    let discountTotal ← requiredMoney value.discountTotal "discount_total"
    let taxTotal ← requiredMoney value.taxTotal "tax_total"
    let grandTotal ← requiredMoney value.grandTotal "grand_total"
    balance lines subtotal discountTotal taxTotal grandTotal
    let validForSeconds ← tryI32 value.validForSeconds "quote validity exceeds GraphQL Int"
    return ⟨value.quoteId, "QUOTE_STATUS_READY", lines, some subtotal, some discountTotal,
      some taxTotal, some grandTotal, validForSeconds, value.pricingVersion⟩

/-! ## Quotes -/

/-- A line with both its amounts. -/
structure PricedLine where
  sku : Text
  quantity : Nat
  unitPrice : Money
  lineTotal : Money

/-- A ready quote with all its amounts. -/
structure PricedQuote where
  quoteId : Text
  lines : List PricedLine
  subtotal : Money
  discountTotal : Money
  taxTotal : Money
  grandTotal : Money
  validForSeconds : Nat
  pricingVersion : Text

def PricedLine.toProto (line : PricedLine) : Pricing.QuoteLine where
  sku := line.sku
  quantity := line.quantity
  unitPrice := some line.unitPrice
  lineTotal := some line.lineTotal

def PricedQuote.toProto (quote : PricedQuote) : QuoteResponse where
  quoteId := quote.quoteId
  status := .ready
  lines := quote.lines.map PricedLine.toProto
  subtotal := some quote.subtotal
  discountTotal := some quote.discountTotal
  taxTotal := some quote.taxTotal
  grandTotal := some quote.grandTotal
  validForSeconds := quote.validForSeconds
  pricingVersion := quote.pricingVersion

def PricedLine.toLine (line : PricedLine) : QuoteLine where
  sku := line.sku
  quantity := line.quantity
  unitPrice := some line.unitPrice
  lineTotal := some line.lineTotal

/-- The same quote, as the storefront keeps it. -/
def PricedQuote.toQuote (quote : PricedQuote) : Quote where
  quoteId := quote.quoteId
  status := "QUOTE_STATUS_READY"
  lines := quote.lines.map PricedLine.toLine
  subtotal := some quote.subtotal
  discountTotal := some quote.discountTotal
  taxTotal := some quote.taxTotal
  grandTotal := some quote.grandTotal
  validForSeconds := quote.validForSeconds
  pricingVersion := quote.pricingVersion

def PricedQuote.totals (quote : PricedQuote) : List Money :=
  [quote.subtotal, quote.discountTotal, quote.taxTotal, quote.grandTotal]

/-- Every amount of a quote. -/
def PricedQuote.moneys (quote : PricedQuote) : List Money :=
  quote.totals ++ quote.lines.flatMap fun line => [line.unitPrice, line.lineTotal]

/-- Non-blank identifiers and SKUs, 1 to 50 lines, and numbers that GraphQL can hold. -/
structure PricedQuote.Usable (quote : PricedQuote) : Prop where
  identified : trimIsEmpty quote.quoteId = false ∧ trimIsEmpty quote.pricingVersion = false
  validity : 0 < quote.validForSeconds ∧ quote.validForSeconds < 2 ^ 31
  lines : 1 ≤ quote.lines.length ∧ quote.lines.length ≤ 50
  skus : ∀ line ∈ quote.lines, trimIsEmpty line.sku = false
  quantities : ∀ line ∈ quote.lines, 0 < line.quantity ∧ line.quantity < 2 ^ 31

/-- The arithmetic of a quote. -/
structure PricedQuote.Balanced (quote : PricedQuote) : Prop where
  nonneg : ∀ money ∈ quote.moneys, 0 ≤ money.amountMinor
  lineTotal : ∀ line ∈ quote.lines,
    line.lineTotal.amountMinor = line.unitPrice.amountMinor * line.quantity
  subtotal : quote.subtotal.amountMinor =
    (quote.lines.map fun line => line.lineTotal.amountMinor).sum
  discount : quote.discountTotal.amountMinor ≤ quote.subtotal.amountMinor
  grandTotal : quote.grandTotal.amountMinor = quote.subtotal.amountMinor -
    quote.discountTotal.amountMinor + quote.taxTotal.amountMinor

/-- Three upper-case letters. -/
def IsCurrency (code : Text) : Prop :=
  code.length = 3 ∧ ∀ c ∈ code, 0x41 ≤ c.toNat ∧ c.toNat ≤ 0x5a

/-- All amounts are in one currency. -/
def PricedQuote.OneCurrency (quote : PricedQuote) : Prop :=
  ∃ currency, IsCurrency currency ∧ ∀ money ∈ quote.moneys, money.currencyCode = currency

/-- The totals are in one currency, and each line by itself is in one. -/
structure PricedQuote.PartCurrencies (quote : PricedQuote) : Prop where
  codes : ∀ money ∈ quote.moneys, IsCurrency money.currencyCode
  totals : ∀ money ∈ quote.totals, money.currencyCode = quote.subtotal.currencyCode
  lines : ∀ line ∈ quote.lines, line.unitPrice.currencyCode = line.lineTotal.currencyCode

/-- A response as it comes over the wire. -/
structure WireQuote where
  response : QuoteResponse
  totals : ∀ money, some money ∈ [response.subtotal, response.discountTotal, response.taxTotal,
    response.grandTotal] → inI64 money.amountMinor = true
  lines : ∀ line ∈ response.lines, line.quantity < 2 ^ 32 ∧ ∀ money,
    some money ∈ [line.unitPrice, line.lineTotal] → inI64 money.amountMinor = true
  validity : response.validForSeconds < 2 ^ 32

end Storefront

end CommercePlayground.Boundary
