/-
CommercePlayground.Boundary.QuoteResponse — `validate_quote_response`, on the
response itself.

`i64` arithmetic is checked, as in the source, and SKUs are texts.
-/
import CommercePlayground.Boundary.CheckoutInput

namespace CommercePlayground.Boundary

open Lib Pricing

def protocolError {α : Type} (message : String) : ApiResult α :=
  .error ⟨502, .pricingProtocolError, message⟩

/-- A checked `i64` operation. -/
def checkedAmount (n : Int) (message : String) : ApiResult Int :=
  if inI64 n then .ok n else protocolError message

/-- `quote_money`. -/
def quoteMoney (money : Option Money) (currency : Text) (field : String) : ApiResult Int :=
  match money with
  | none => protocolError ("quote has no " ++ field)
  | some money =>
    if money.currencyCode ≠ currency then
      protocolError ("quote " ++ field ++ " currency mismatch")
    else if money.amountMinor < 0 then protocolError ("quote " ++ field ++ " is negative")
    else .ok money.amountMinor

/-- `i32_amount`. -/
def i32Amount (amount : Int) : ApiResult Unit :=
  if -2 ^ 31 ≤ amount ∧ amount < 2 ^ 31 then .ok ()
  else .error ⟨422, .amountOutOfRange, "amount exceeds PostgreSQL integer range"⟩

/-- `expected.get(sku)`: the map keeps the last quantity of a SKU. -/
def expectedQuantity (items : List CheckoutItemInput) (sku : Text) : Option Nat :=
  (items.reverse.find? fun item => decide (item.sku = sku)).map CheckoutItemInput.quantity

/-- One line: its total. -/
def validateQuoteLine (input : CheckoutInput) (seen : List Text) (line : QuoteLine) :
    ApiResult Int :=
  match expectedQuantity input.items line.sku with
  | none => protocolError "pricing returned an unexpected quote line"
  | some expected =>
    if seen.contains line.sku || decide (line.quantity ≠ expected) then
      protocolError "pricing returned duplicate or mismatched quote quantities"
    else do
      let unit ← quoteMoney line.unitPrice input.currencyCode "line unit price"
      let lineTotal ← quoteMoney line.lineTotal input.currencyCode "line total"
      i32Amount unit
      i32Amount lineTotal
      let expectedTotal ← checkedAmount (unit * line.quantity)
        "quote line arithmetic overflowed"
      if expectedTotal ≠ lineTotal then
        protocolError "quote line amount does not match unit price and quantity"
      else pure lineTotal

/-- The line loop: the subtotal and the SKUs seen. -/
def validateQuoteLines (input : CheckoutInput) :
    Int → List Text → List QuoteLine → ApiResult (Int × List Text)
  | subtotal, seen, [] => .ok (subtotal, seen)
  | subtotal, seen, line :: lines => do
    let lineTotal ← validateQuoteLine input seen line
    let subtotal ← checkedAmount (subtotal + lineTotal) "quote subtotal arithmetic overflowed"
    validateQuoteLines input subtotal (line.sku :: seen) lines

/-- The totals of a quote against its lines. -/
def validateTotals (input : CheckoutInput) (quote : QuoteResponse) (subtotalFromLines : Int) :
    ApiResult Unit := do
  let subtotal ← quoteMoney quote.subtotal input.currencyCode "subtotal"
  let discount ← quoteMoney quote.discountTotal input.currencyCode "discount"
  let tax ← quoteMoney quote.taxTotal input.currencyCode "tax"
  let total ← quoteMoney quote.grandTotal input.currencyCode "grand_total"
  if subtotal ≠ subtotalFromLines ∨ subtotal < discount then
    protocolError "quote totals do not match its lines"
  else do
    let amount ← checkedAmount (subtotal - discount) "quote total arithmetic overflowed"
    let expectedTotal ← checkedAmount (amount + tax) "quote total arithmetic overflowed"
    if total ≠ expectedTotal then protocolError "quote totals do not balance"
    else do
      i32Amount subtotal
      i32Amount discount
      i32Amount tax
      i32Amount total

/-- `validate_quote_response`. -/
def validateQuoteResponse (input : CheckoutInput) (quote : QuoteResponse) : ApiResult Unit :=
  if quote.status ≠ .ready then protocolError "pricing returned a quote that is not ready"
  else if trimIsEmpty quote.quoteId || trimIsEmpty quote.pricingVersion then
    protocolError "pricing returned an unidentified quote"
  else if quote.validForSeconds = 0 then
    protocolError "pricing returned a quote without an expiration"
  else if quote.lines.length ≠ input.items.length then
    protocolError "pricing returned an incomplete quote"
  else do
    let (subtotalFromLines, seen) ← validateQuoteLines input 0 [] quote.lines
    if seen.length ≠ (input.items.map CheckoutItemInput.sku).eraseDups.length then
      protocolError "pricing omitted a requested quote line"
    else validateTotals input quote subtotalFromLines

end CommercePlayground.Boundary
