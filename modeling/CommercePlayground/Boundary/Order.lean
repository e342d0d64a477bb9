/-
CommercePlayground.Boundary.Order — the order that checkout makes of an accepted
request, in the texts and amounts the other services see.

This is the part of `create_pending_order` that decides them. Its cart, its
promotion and its lease are modelled with the store and can only refuse the
order.
-/
import CommercePlayground.Boundary.QuoteResponse
import CommercePlayground.Lib.Table

namespace CommercePlayground.Boundary

open Lib Pricing

/-! ## Identifiers -/

/-- A lowercase hexadecimal digit or a hyphen. -/
def isUuidChar (c : Char) : Bool :=
  decide (0x30 ≤ c.toNat ∧ c.toNat ≤ 0x39) || decide (0x61 ≤ c.toNat ∧ c.toNat ≤ 0x66) ||
    decide (c = '-')

/-- `Uuid::new_v4().to_string()`. -/
structure Uuid where
  text : Text
  length : text.length = 36
  chars : text.all isUuidChar = true

/-- The id of an order. -/
def orderId (uuid : Uuid) : Text := "order-".toList ++ uuid.text

/-- The number of an order. -/
def orderNumber (tenantId : Text) (uuid : Uuid) : Text :=
  removeAll "tenant-".toList tenantId ++ '-' :: uuid.text

/-! ## The catalogue -/

/-- An active row of `product_variants`, with its active product. -/
structure VariantRow where
  id : Text
  sku : Text
  name : Text
  productId : Text
  productName : Text
  deriving DecidableEq

/-- The active variants of a tenant. `id` is the primary key, and the SKUs of a
tenant are unique. -/
structure Catalogue where
  rows : List VariantRow
  skus : (rows.map VariantRow.sku).Nodup
  ids : (rows.map VariantRow.id).Nodup

/-! ## Orders -/

/-- `OrderLine`. -/
structure OrderLine where
  productId : Text
  variantId : Text
  sku : Text
  productName : Text
  quantity : Nat
  unitPriceMinor : Int
  deriving DecidableEq

/-- `PendingOrder`, without its cart. -/
structure PendingOrder where
  id : Text
  orderNumber : Text
  tenantId : Text
  customerId : Text
  sessionId : Text
  currency : Text
  lines : List OrderLine
  subtotalMinor : Int
  discountMinor : Int
  taxMinor : Int
  totalMinor : Int
  promotionCode : Option Text
  deriving DecidableEq

/-- One line of an order. -/
def orderLine (catalogue : Catalogue) (quote : QuoteResponse) (item : CheckoutItemInput) :
    ApiResult OrderLine :=
  match catalogue.rows.find? fun row => decide (row.sku = item.sku) with
  | none => .error ⟨404, .productNotFound, "unknown SKU: " ++ String.ofList item.sku⟩
  | some row =>
    match quote.lines.find? fun line => decide (line.sku = item.sku) with
    | none => protocolError ("missing quote line: " ++ String.ofList item.sku)
    | some quoteLine =>
      match quoteLine.unitPrice with
      | none => protocolError "quote line has no unit price"
      | some money => do
        i32Amount money.amountMinor
        pure
          { productId := row.productId
            variantId := row.id
            sku := item.sku
            productName := row.productName ++ " / ".toList ++ row.name
            quantity := item.quantity
            unitPriceMinor := money.amountMinor }

/-- The item loop of `create_pending_order`. -/
def orderLines (catalogue : Catalogue) (quote : QuoteResponse) :
    List CheckoutItemInput → ApiResult (List OrderLine)
  | [] => .ok []
  | item :: items => do
    let line ← orderLine catalogue quote item
    let lines ← orderLines catalogue quote items
    pure (line :: lines)

/-- The amounts of a quote, once they balance: subtotal, discount, tax and total. -/
def quoteAmounts (input : CheckoutInput) (quote : QuoteResponse) :
    ApiResult (Int × Int × Int × Int) := do
  let subtotal ← quoteMoney quote.subtotal input.currencyCode "subtotal"
  let discount ← quoteMoney quote.discountTotal input.currencyCode "discount"
  let total ← quoteMoney quote.grandTotal input.currencyCode "grand_total"
  let tax ← quoteMoney quote.taxTotal input.currencyCode "tax"
  let amount ← checkedAmount (subtotal - discount) "quote totals do not balance"
  let expectedTotal ← checkedAmount (amount + tax) "quote totals do not balance"
  if total ≠ expectedTotal then protocolError "quote totals do not balance"
  else pure (subtotal, discount, tax, total)

/-- `create_pending_order`, for an order that is not there yet. -/
def createPendingOrder (catalogue : Catalogue) (uuid : Uuid) (input : CheckoutInput)
    (quote : QuoteResponse) : ApiResult PendingOrder := do
  validateInput input
  validateQuoteResponse input quote
  match input.sessionId with
  | none => badRequest .invalidSession "checkout session identity is required"
  | some sessionId => do
    let (subtotal, discount, tax, total) ← quoteAmounts input quote
    let lines ← orderLines catalogue quote input.items
    i32Amount subtotal
    i32Amount discount
    i32Amount tax
    i32Amount total
    pure
      { id := orderId uuid
        orderNumber := orderNumber input.tenantId uuid
        tenantId := input.tenantId
        customerId := input.customerId
        sessionId := sessionId
        currency := input.currencyCode
        lines := lines
        subtotalMinor := subtotal
        discountMinor := discount
        taxMinor := tax
        totalMinor := total
        promotionCode := input.promotionCode }

/-! ## What an accepted request looks like -/

/-- What checkout goes on with. -/
structure AcceptSpec (baggage : List (Text × Text)) (uuid : Text)
    (input accepted : CheckoutInput) : Prop where
  tenantId : resolveTenantId baggage input.tenantId = .ok accepted.tenantId
  requestId : accepted.requestId = some (checkoutRequestId uuid input)
  currencyCode : accepted.currencyCode = input.currencyCode
  items : accepted.items = input.items
  valid : validateInput accepted = .ok ()
  payable : ∃ token method, requirePaymentCredentials accepted = .ok (token, method)

theorem acceptCheckout_spec {baggage : List (Text × Text)} {uuid : Text}
    {input accepted : CheckoutInput} (h : acceptCheckout baggage uuid input = .ok accepted) :
    AcceptSpec baggage uuid input accepted := by
  obtain ⟨⟨tenantId, sessionId⟩, hidentity, h⟩ := bind_ok h
  obtain ⟨u, hvalid, h⟩ := bind_ok h
  obtain ⟨⟨token, method⟩, hpayable, h⟩ := bind_ok h
  cases h
  have htenant : resolveTenantId baggage input.tenantId = .ok tenantId := by
    obtain ⟨tenantId', htenant, hidentity⟩ := bind_ok hidentity
    obtain ⟨sessionId', -, hidentity⟩ := bind_ok hidentity
    simp only at hidentity
    split at hidentity
    · cases hidentity
    · cases hidentity
      exact htenant
  exact ⟨htenant, rfl, rfl, rfl, hvalid, token, method, hpayable⟩

/-! ## What an order looks like -/

/-- The range of `i32`. -/
def InI32 (amount : Int) : Prop := -2 ^ 31 ≤ amount ∧ amount < 2 ^ 31

theorem i32Amount_range {amount : Int} (h : i32Amount amount = .ok ()) : InI32 amount := by
  unfold i32Amount at h
  split at h
  · rename_i hrange
    exact hrange
  · cases h

/-- A line is made of its item and of a row of the catalogue. -/
structure LineOf (catalogue : Catalogue) (item : CheckoutItemInput) (line : OrderLine) :
    Prop where
  sku : line.sku = item.sku
  quantity : line.quantity = item.quantity
  unitPrice : InI32 line.unitPriceMinor
  variant : ∃ row ∈ catalogue.rows, row.sku = item.sku ∧ row.id = line.variantId

theorem orderLine_ok {catalogue : Catalogue} {quote : QuoteResponse} {item : CheckoutItemInput}
    {line : OrderLine} (h : orderLine catalogue quote item = .ok line) :
    LineOf catalogue item line := by
  unfold orderLine at h
  split at h
  · cases h
  · rename_i row hrow
    split at h
    · cases h
    · split at h
      · cases h
      · obtain ⟨u, hprice, h⟩ := bind_ok h
        cases h
        obtain ⟨hmem, hsku⟩ := find?_some_spec hrow
        exact ⟨rfl, rfl, i32Amount_range hprice, row, hmem, of_decide_eq_true hsku, rfl⟩

theorem orderLines_ok {catalogue : Catalogue} {quote : QuoteResponse}
    {items : List CheckoutItemInput} {lines : List OrderLine}
    (h : orderLines catalogue quote items = .ok lines) :
    List.Forall₂ (LineOf catalogue) items lines := by
  induction items generalizing lines with
  | nil =>
    cases h
    exact .nil
  | cons item items ih =>
    obtain ⟨line, hline, h⟩ := bind_ok h
    obtain ⟨rest, hrest, h⟩ := bind_ok h
    cases h
    exact .cons (orderLine_ok hline) (ih hrest)

/-- What an order takes over from its input and its quote. -/
structure OrderSpec (catalogue : Catalogue) (uuid : Uuid) (input : CheckoutInput)
    (quote : QuoteResponse) (order : PendingOrder) : Prop where
  valid : validateInput input = .ok ()
  id : order.id = orderId uuid
  number : order.orderNumber = orderNumber input.tenantId uuid
  tenantId : order.tenantId = input.tenantId
  customerId : order.customerId = input.customerId
  sessionId : some order.sessionId = input.sessionId
  currency : order.currency = input.currencyCode
  lines : List.Forall₂ (LineOf catalogue) input.items order.lines
  total : quoteMoney quote.grandTotal input.currencyCode "grand_total" = .ok order.totalMinor
  amounts : InI32 order.subtotalMinor ∧ InI32 order.discountMinor ∧ InI32 order.taxMinor ∧
    InI32 order.totalMinor

theorem createPendingOrder_spec {catalogue : Catalogue} {uuid : Uuid} {input : CheckoutInput}
    {quote : QuoteResponse} {order : PendingOrder}
    (h : createPendingOrder catalogue uuid input quote = .ok order) :
    OrderSpec catalogue uuid input quote order := by
  obtain ⟨u, hvalid, h⟩ := bind_ok h
  obtain ⟨u, -, h⟩ := bind_ok h
  split at h
  · cases h
  · rename_i sessionId hsession
    obtain ⟨⟨subtotal, discount, tax, total⟩, hamounts, h⟩ := bind_ok h
    obtain ⟨lines, hlines, h⟩ := bind_ok h
    obtain ⟨u, hsubtotal, h⟩ := bind_ok h
    obtain ⟨u, hdiscount, h⟩ := bind_ok h
    obtain ⟨u, htax, h⟩ := bind_ok h
    obtain ⟨u, hrange, h⟩ := bind_ok h
    cases h
    have htotal : quoteMoney quote.grandTotal input.currencyCode "grand_total" = .ok total := by
      obtain ⟨subtotal', -, hamounts⟩ := bind_ok hamounts
      obtain ⟨discount', -, hamounts⟩ := bind_ok hamounts
      obtain ⟨total', htotal, hamounts⟩ := bind_ok hamounts
      obtain ⟨tax', -, hamounts⟩ := bind_ok hamounts
      obtain ⟨amount, -, hamounts⟩ := bind_ok hamounts
      obtain ⟨expected, -, hamounts⟩ := bind_ok hamounts
      split at hamounts
      · cases hamounts
      · cases hamounts
        exact htotal
    exact ⟨hvalid, rfl, rfl, rfl, rfl, hsession.symm, rfl, orderLines_ok hlines, htotal,
      i32Amount_range hsubtotal, i32Amount_range hdiscount, i32Amount_range htax,
      i32Amount_range hrange⟩

end CommercePlayground.Boundary
