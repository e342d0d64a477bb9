/-
CommercePlayground.Checkout.Input — what checkout checks before it writes:
`validate_input` and `validate_quote_response`.

Identifiers are opaque well-formed keys, so the checks of `validate_input`
that are about their spelling only appear for the request id, whose length
the downstream services bound as well. Amounts are checked against the i32
range before any product or sum of them is formed from at most fifty lines
of at most one hundred units, so the i64 arithmetic of the quote checks
cannot overflow and is integer arithmetic here.
-/
import CommercePlayground.Schema

namespace CommercePlayground.Checkout

/-! ## Requests -/

/-- `MAX_ITEMS`. -/
def maxItems : Nat := 50

/-- `MAX_QUANTITY`. -/
def maxQuantity : Nat := 100

/-- `MAX_IDENTIFIER_LENGTH`. -/
def maxIdentifierLength : Nat := 128

/-- The item loop of `validate_input`, with the SKUs seen so far. -/
def validateItems (seen : List Sku) : List CheckoutItemInput → ApiResult Unit
  | [] => .ok ()
  | item :: items =>
    if item.quantity = 0 ∨ item.quantity > maxQuantity then
      .error ⟨400, .invalidQuantity, "each item needs a quantity from one to one hundred"⟩
    else if item.sku ∈ seen then
      .error ⟨400, .duplicateSku, "each SKU may appear only once in a checkout"⟩
    else validateItems (item.sku :: seen) items

/-- `validate_input`. -/
def validateInput (input : CheckoutInput) : ApiResult Unit :=
  if input.requestId.length = 0 ∨ input.requestId.length > maxIdentifierLength then
    .error ⟨400, .invalidRequestId, "request_id is invalid"⟩
  else if input.items = [] ∨ input.items.length > maxItems then
    .error ⟨400, .invalidItems, "checkout needs between one and fifty items"⟩
  else validateItems [] input.items

/-! ## Quotes -/

/-- `QuoteLine`. -/
structure QuoteLine where
  sku : Sku
  quantity : Nat
  unitPrice : Option Money
  lineTotal : Option Money
  deriving DecidableEq

/-- `QuoteResponse`. `ready` says that its status is `READY`, `identified`
that its quote id and pricing version are not blank. -/
structure QuoteResponse where
  ready : Bool
  identified : Bool
  validForSeconds : Nat
  lines : List QuoteLine
  subtotal : Option Money
  discountTotal : Option Money
  taxTotal : Option Money
  grandTotal : Option Money
  deriving DecidableEq

/-- The error of every malformed quote. -/
def pricingProtocolError (message : String) : ApiError :=
  ⟨502, .pricingProtocolError, message⟩

/-- `quote_money`. -/
def quoteMoney (money : Option Money) (currency : Currency) (field : String) : ApiResult Int :=
  match money with
  | none => .error (pricingProtocolError ("quote has no " ++ field))
  | some m =>
    if m.currency ≠ currency then
      .error (pricingProtocolError ("quote " ++ field ++ " currency mismatch"))
    else if m.amountMinor < 0 then
      .error (pricingProtocolError ("quote " ++ field ++ " is negative"))
    else .ok m.amountMinor

/-- `i32_amount`. -/
def i32Amount (amount : Int) : ApiResult Int :=
  if -2147483648 ≤ amount ∧ amount ≤ 2147483647 then .ok amount
  else .error ⟨422, .amountOutOfRange, "amount exceeds PostgreSQL integer range"⟩

/-- The quantity an item list expects for a SKU. -/
def expectedQuantity (items : List CheckoutItemInput) (sku : Sku) : Option Nat :=
  (items.find? fun i => decide (i.sku = sku)).map (·.quantity)

/-- One iteration of the line loop: the line's total. -/
def validateQuoteLine (input : CheckoutInput) (seen : List Sku) (line : QuoteLine) :
    ApiResult Int :=
  match expectedQuantity input.items line.sku with
  | none => .error (pricingProtocolError "pricing returned an unexpected quote line")
  | some expected =>
    if line.sku ∈ seen ∨ line.quantity ≠ expected then
      .error (pricingProtocolError
        "pricing returned duplicate or mismatched quote quantities")
    else do
      let unit ← quoteMoney line.unitPrice input.currencyCode "line unit price"
      let lineTotal ← quoteMoney line.lineTotal input.currencyCode "line total"
      let _ ← i32Amount unit
      let _ ← i32Amount lineTotal
      if unit * line.quantity ≠ lineTotal then
        .error (pricingProtocolError
          "quote line amount does not match unit price and quantity")
      else .ok lineTotal

/-- The line loop of `validate_quote_response`: the subtotal of the lines and
the SKUs they name. -/
def validateQuoteLines (input : CheckoutInput) :
    Int → List Sku → List QuoteLine → ApiResult (Int × List Sku)
  | subtotal, seen, [] => .ok (subtotal, seen)
  | subtotal, seen, line :: lines => do
    let lineTotal ← validateQuoteLine input seen line
    validateQuoteLines input (subtotal + lineTotal) (line.sku :: seen) lines

/-- The totals of a quote. -/
structure QuoteTotals where
  subtotal : Int
  discount : Int
  tax : Int
  total : Int

/-- The totals part of `validate_quote_response`, which `create_pending_order`
reads again. -/
def quoteTotals (input : CheckoutInput) (quote : QuoteResponse) : ApiResult QuoteTotals := do
  let subtotal ← quoteMoney quote.subtotal input.currencyCode "subtotal"
  let discount ← quoteMoney quote.discountTotal input.currencyCode "discount"
  let tax ← quoteMoney quote.taxTotal input.currencyCode "tax"
  let total ← quoteMoney quote.grandTotal input.currencyCode "grand_total"
  if total ≠ subtotal - discount + tax then
    .error (pricingProtocolError "quote totals do not balance")
  else .ok ⟨subtotal, discount, tax, total⟩

/-- The range checks at the end of `validate_quote_response`. -/
def i32Totals (t : QuoteTotals) : ApiResult Unit := do
  let _ ← i32Amount t.subtotal
  let _ ← i32Amount t.discount
  let _ ← i32Amount t.tax
  let _ ← i32Amount t.total
  pure ()

/-- The checks of the totals against the lines. -/
def validateTotals (input : CheckoutInput) (quote : QuoteResponse) (fromLines : Int) :
    ApiResult Unit := do
  let subtotal ← quoteMoney quote.subtotal input.currencyCode "subtotal"
  let discount ← quoteMoney quote.discountTotal input.currencyCode "discount"
  let _ ← quoteMoney quote.taxTotal input.currencyCode "tax"
  let _ ← quoteMoney quote.grandTotal input.currencyCode "grand_total"
  if subtotal ≠ fromLines ∨ discount > subtotal then
    .error (pricingProtocolError "quote totals do not match its lines")
  else do
    let totals ← quoteTotals input quote
    i32Totals totals

/-- `validate_quote_response`. -/
def validateQuoteResponse (input : CheckoutInput) (quote : QuoteResponse) : ApiResult Unit :=
  if quote.ready = false then
    .error (pricingProtocolError "pricing returned a quote that is not ready")
  else if quote.identified = false then
    .error (pricingProtocolError "pricing returned an unidentified quote")
  else if quote.validForSeconds = 0 then
    .error (pricingProtocolError "pricing returned a quote without an expiration")
  else if quote.lines.length ≠ input.items.length then
    .error (pricingProtocolError "pricing returned an incomplete quote")
  else do
    let (fromLines, seen) ← validateQuoteLines input 0 [] quote.lines
    if seen.length ≠ input.items.length then
      .error (pricingProtocolError "pricing omitted a requested quote line")
    else validateTotals input quote fromLines

end CommercePlayground.Checkout
