/-
CommercePlayground.Boundary.QuoteTheorems — checkout accepts the quotes of
pricing.

The line loop of checkout is followed along the lines of the quote: what is left
of the lines is what is left of the items, and the amounts so far stay in range
because the amounts to come are not negative.
-/
import CommercePlayground.Boundary.QuoteResponse
import CommercePlayground.Pricing.CacheTheorems
import CommercePlayground.Pricing.QuoteTheorems

namespace CommercePlayground.Boundary

open Lib Pricing

/-! ## Items -/

theorem pricing_items_nodup {skus : List Text} {items : List QuoteItem}
    (h : Pricing.validateItems skus items = .ok ()) :
    (items.map QuoteItem.sku).Nodup ∧ ∀ item ∈ items, item.sku ∉ skus := by
  induction items generalizing skus with
  | nil => exact ⟨List.nodup_nil, fun _ hi => absurd hi List.not_mem_nil⟩
  | cons item items ih =>
    unfold Pricing.validateItems at h
    split at h
    · cases h
    · split at h
      · cases h
      · split at h
        · cases h
        · rename_i hnew
          obtain ⟨hnodup, hfresh⟩ := ih h
          refine ⟨?_, fun i hi => ?_⟩
          · rw [List.map_cons, List.nodup_cons]
            refine ⟨fun hmem => ?_, hnodup⟩
            obtain ⟨i, hi, heq⟩ := List.mem_map.mp hmem
            exact hfresh i hi (heq ▸ List.mem_cons_self)
          · rcases List.mem_cons.mp hi with rfl | hi
            · simpa using hnew
            · exact fun hmem => hfresh i hi (List.mem_cons_of_mem _ hmem)

theorem skus_of_valid {request : QuoteRequest} (h : validateRequest request = .ok ()) :
    (request.items.map QuoteItem.sku).Nodup := by
  unfold validateRequest at h
  repeat
    split at h
    · cases h
  obtain ⟨u, hitems, -⟩ := bind_ok h
  exact (pricing_items_nodup hitems).1

/-- The same items, as checkout and as pricing have them. -/
def SameItems (items : List CheckoutItemInput) (quoted : List QuoteItem) : Prop :=
  items.map (fun i => (i.sku, i.quantity)) = quoted.map fun i => (i.sku, i.quantity)

theorem SameItems.skus {items : List CheckoutItemInput} {quoted : List QuoteItem}
    (h : SameItems items quoted) :
    items.map CheckoutItemInput.sku = quoted.map QuoteItem.sku := by
  have := congrArg (List.map Prod.fst) h
  simpa [List.map_map, Function.comp_def] using this

theorem SameItems.length {items : List CheckoutItemInput} {quoted : List QuoteItem}
    (h : SameItems items quoted) : items.length = quoted.length := by
  have := congrArg List.length h
  simpa using this

/-- Checkout expects what pricing was asked. -/
theorem expectedQuantity_of_mem {items : List CheckoutItemInput} {quoted : List QuoteItem}
    (hsame : SameItems items quoted) (hnodup : (quoted.map QuoteItem.sku).Nodup)
    {item : QuoteItem} (hi : item ∈ quoted) :
    expectedQuantity items item.sku = some item.quantity := by
  have hpair : (item.sku, item.quantity) ∈ items.map fun i => (i.sku, i.quantity) := by
    rw [hsame]
    exact List.mem_map_of_mem hi
  obtain ⟨i, himem, heq⟩ := List.mem_map.mp hpair
  obtain ⟨hsku, hquantity⟩ := Prod.mk.inj heq
  rw [← hsame.skus] at hnodup
  cases hfind : items.reverse.find? fun i => decide (i.sku = item.sku) with
  | none =>
    have := List.find?_eq_none.mp hfind i (List.mem_reverse.mpr himem)
    exact absurd (decide_eq_true hsku) this
  | some j =>
    obtain ⟨hjmem, hj⟩ := find?_some_spec hfind
    have hij : j = i := by
      have hsame : j.sku = i.sku := (of_decide_eq_true hj).trans hsku.symm
      exact List.inj_on_of_nodup_map hnodup (List.mem_reverse.mp hjmem) himem hsame
    rw [expectedQuantity, hfind, Option.map_some, hij, hquantity]

/-! ## Lines -/

theorem quoteMoney_ok {quote : CachedQuote} {currency : Text} {amount : Int} {field : String}
    (hc : quote.currency = currency) (h : 0 ≤ amount) :
    quoteMoney (quote.money amount) currency field = .ok amount := by
  show (if quote.currency ≠ currency then _ else if amount < 0 then _ else _) = _
  rw [if_neg (not_not.mpr hc), if_neg (by omega)]

theorem i32Amount_ok {amount : Int} (h : 0 ≤ amount) (h' : amount < 2 ^ 31) :
    i32Amount amount = .ok () := if_pos (by omega)

theorem checkedAmount_ok {n : Int} {message : String} (h : 0 ≤ n) (h' : n < 2 ^ 31) :
    checkedAmount n message = .ok n := by
  unfold checkedAmount inI64
  rw [if_pos]
  rw [decide_eq_true_eq]
  omega

/-- One line of a quote is accepted. -/
theorem validateQuoteLine_ok {input : CheckoutInput} {selected : List (Text × SelectedPrice)}
    {quote : CachedQuote} {seen : List Text} {item : QuoteItem} {line : CachedLine}
    (hc : quote.currency = input.currencyCode) (hp : Priced selected item line)
    (he : expectedQuantity input.items item.sku = some item.quantity) (hseen : item.sku ∉ seen)
    (hunit : line.unitMinor < 2 ^ 31) (hline : line.lineMinor < 2 ^ 31) :
    validateQuoteLine input seen (quote.protoLine line) = .ok line.lineMinor := by
  have hnew : line.sku ∉ seen := hp.sku ▸ hseen
  unfold validateQuoteLine CachedQuote.protoLine
  simp only [hp.sku, he]
  rw [if_neg]
  · rw [quoteMoney_ok hc hp.nonneg, quoteMoney_ok hc hp.line_nonneg]
    show (i32Amount line.unitMinor >>= _) = _
    rw [i32Amount_ok hp.nonneg hunit]
    show (i32Amount line.lineMinor >>= _) = _
    rw [i32Amount_ok hp.line_nonneg hline]
    show (checkedAmount _ _ >>= _) = _
    rw [← hp.total, checkedAmount_ok hp.line_nonneg hline]
    show (if line.lineMinor ≠ line.lineMinor then _ else _) = _
    rw [if_neg (not_not.mpr rfl)]
    rfl
  · simp [← hp.sku, hnew, hp.quantity]

/-- The line loop, from any point of the quote on. -/
theorem validateQuoteLines_ok {input : CheckoutInput} {selected : List (Text × SelectedPrice)}
    {quote : CachedQuote} {items : List QuoteItem} {lines : List CachedLine} {seen : List Text}
    {start : Int} (hc : quote.currency = input.currencyCode)
    (hp : List.Forall₂ (Priced selected) items lines)
    (he : ∀ item ∈ items, expectedQuantity input.items item.sku = some item.quantity)
    (hnodup : (items.map QuoteItem.sku).Nodup) (hseen : ∀ item ∈ items, item.sku ∉ seen)
    (hunits : ∀ line ∈ lines, line.unitMinor < 2 ^ 31)
    (hlines : ∀ line ∈ lines, line.lineMinor < 2 ^ 31) (h₀ : 0 ≤ start)
    (hsum : start + lineSum lines < 2 ^ 31) :
    ∃ seen', validateQuoteLines input start seen (lines.map quote.protoLine) =
        .ok (start + lineSum lines, seen') ∧ seen'.length = seen.length + items.length := by
  induction hp generalizing seen start with
  | nil => exact ⟨seen, by simp [validateQuoteLines, lineSum], rfl⟩
  | @cons item line items lines hpriced hrest ih =>
    have hnonneg := lines_nonneg hrest
    have htail := lineSum_nonneg hnonneg
    have hcons : lineSum (line :: lines) = line.lineMinor + lineSum lines := by
      simp [lineSum]
    have hline₀ := hpriced.line_nonneg
    rw [hcons] at hsum
    have hfirst := validateQuoteLine_ok hc hpriced (he item List.mem_cons_self)
      (hseen item List.mem_cons_self) (hunits line List.mem_cons_self)
      (hlines line List.mem_cons_self)
    rw [List.map_cons, List.nodup_cons] at hnodup
    have hseen' : ∀ i ∈ items, i.sku ∉ item.sku :: seen := by
      intro i hi hmem
      rcases List.mem_cons.mp hmem with heq | hmem
      · exact hnodup.1 (heq ▸ List.mem_map_of_mem hi)
      · exact hseen i (List.mem_cons_of_mem _ hi) hmem
    have h₀' : 0 ≤ start + line.lineMinor := by omega
    obtain ⟨seen', hloop, hlen⟩ := ih (fun i hi => he i (List.mem_cons_of_mem _ hi))
      hnodup.2 hseen' (fun l hl => hunits l (List.mem_cons_of_mem _ hl))
      (fun l hl => hlines l (List.mem_cons_of_mem _ hl)) h₀' (by omega)
    refine ⟨seen', ?_, by rw [hlen, List.length_cons, List.length_cons]; omega⟩
    rw [List.map_cons, validateQuoteLines, hfirst]
    show (checkedAmount _ _ >>= _) = _
    rw [checkedAmount_ok (by omega) (by omega)]
    show validateQuoteLines input _ ((quote.protoLine line).sku :: seen) _ = _
    have hsku : (quote.protoLine line).sku = item.sku := hpriced.sku
    rw [hsku, hloop, hcons, Int.add_assoc]

/-! ## The response -/

theorem eraseDups_of_nodup {skus : List Text} (h : skus.Nodup) : skus.eraseDups = skus := by
  induction skus with
  | nil => rfl
  | cons sku skus ih =>
    obtain ⟨hnew, hrest⟩ := List.nodup_cons.mp h
    have hkeep : skus.filter (fun other => !other == sku) = skus := by
      refine List.filter_eq_self.mpr fun other hmem => ?_
      simp only [Bool.not_eq_eq_eq_not, Bool.not_true, beq_eq_false_iff_ne]
      exact fun heq => hnew (heq ▸ hmem)
    rw [List.eraseDups_cons, hkeep, ih hrest]

theorem pricingVersion_not_blank (db : Database) (tenantId : Text) :
    trimIsEmpty (pricingVersionIn db tenantId) = false := rfl

theorem Priced.unit_lt {selected : List (Text × SelectedPrice)} {item : QuoteItem}
    {line : CachedLine} (hp : Priced selected item line)
    (hprices : ∀ p ∈ selected, p.2.unitMinor < 2 ^ 31) : line.unitMinor < 2 ^ 31 := by
  obtain ⟨price, hlookup, hunit⟩ := hp.price
  obtain ⟨before, after, hselected, -⟩ := List.lookup_eq_some_iff.mp hlookup
  have hmem : (item.sku, price) ∈ selected := by simp [hselected]
  rw [← hunit]
  exact hprices _ hmem

theorem units_lt {selected : List (Text × SelectedPrice)} {items : List QuoteItem}
    {lines : List CachedLine} (hp : List.Forall₂ (Priced selected) items lines)
    (hprices : ∀ p ∈ selected, p.2.unitMinor < 2 ^ 31) :
    ∀ line ∈ lines, line.unitMinor < 2 ^ 31 := by
  intro line hl
  obtain ⟨item, -, hpriced⟩ := exists_priced hp line hl
  exact Priced.unit_lt hpriced hprices

/-- The totals of a quote are accepted. -/
theorem validateTotals_ok {db : Database} {request : QuoteRequest} {quote : CachedQuote}
    {input : CheckoutInput} {response : QuoteResponse} (h : QuoteSpec db request quote)
    (hc : quote.currency = input.currencyCode) (hsmall : quote.subtotalMinor < 2 ^ 31)
    (hsub : response.subtotal = quote.money quote.subtotalMinor)
    (hdis : response.discountTotal = quote.money quote.discountMinor)
    (htax : response.taxTotal = quote.money 0)
    (htotal : response.grandTotal = quote.money quote.grandTotalMinor) :
    validateTotals input response quote.subtotalMinor = .ok () := by
  obtain ⟨hdis₀, hdisle⟩ := h.discount
  have hgrand := h.total
  have hsub₀ : 0 ≤ quote.subtotalMinor := by omega
  unfold validateTotals
  rw [hsub, hdis, htax, htotal, quoteMoney_ok hc hsub₀, quoteMoney_ok hc hdis₀,
    quoteMoney_ok hc le_rfl, quoteMoney_ok hc (by omega)]
  show (if _ then _ else _) = _
  rw [if_neg (by omega)]
  show (checkedAmount _ _ >>= _) = _
  rw [checkedAmount_ok (by omega) (by omega)]
  show (checkedAmount _ _ >>= _) = _
  rw [checkedAmount_ok (by omega) (by omega)]
  show (if _ then _ else _) = _
  rw [if_neg (by omega)]
  show (i32Amount _ >>= _) = _
  rw [i32Amount_ok hsub₀ hsmall]
  show (i32Amount _ >>= _) = _
  rw [i32Amount_ok hdis₀ (by omega)]
  show (i32Amount 0 >>= fun _ => i32Amount quote.grandTotalMinor) = _
  rw [i32Amount_ok le_rfl (by omega)]
  exact i32Amount_ok (by omega) (by omega)

/-- Checkout accepts every response of pricing whose amounts it can store. -/
theorem validateQuoteResponse_ok {db : Database} {request : QuoteRequest} {quote : CachedQuote}
    {input : CheckoutInput} {response : QuoteResponse} {now : Int}
    (h : QuoteSpec db request quote) (hnodup : (request.items.map QuoteItem.sku).Nodup)
    (hprices : ∀ p ∈ db.prices request.tenantId request.customerId request.currencyCode,
      p.2.unitMinor < 2 ^ 31)
    (hsame : SameItems input.items request.items)
    (hc : input.currencyCode = request.currencyCode)
    (hlines : ∀ line ∈ quote.lines, line.lineMinor < 2 ^ 31)
    (hsmall : quote.subtotalMinor < 2 ^ 31) (hproto : toProtoAt quote now = .ok response) :
    validateQuoteResponse input response = .ok () := by
  obtain ⟨seconds, hseconds, rfl⟩ := toProtoAt_ok hproto
  have hcurrency : quote.currency = input.currencyCode := h.currency.trans hc.symm
  have hlength : quote.lines.length = input.items.length :=
    h.lines.length_eq.symm.trans hsame.length.symm
  have hsum : 0 + lineSum quote.lines < 2 ^ 31 := by
    rw [← h.subtotal]
    omega
  obtain ⟨seen, hloop, hseen⟩ := validateQuoteLines_ok hcurrency h.lines
    (fun item hi => expectedQuantity_of_mem hsame hnodup hi) hnodup
    (fun _ _ => List.not_mem_nil) (units_lt h.lines hprices) hlines le_rfl hsum
  have hskus : (input.items.map CheckoutItemInput.sku).eraseDups.length =
      request.items.length := by
    rw [hsame.skus, eraseDups_of_nodup hnodup, List.length_map]
  unfold validateQuoteResponse
  simp only [ne_eq, not_true_eq_false, if_false]
  rw [h.quoteId, requestId_not_blank, h.version, pricingVersion_not_blank, Bool.or_self,
    if_neg Bool.false_ne_true, if_neg hseconds, List.length_map,
    if_neg (not_not.mpr hlength), hloop]
  show (if ¬ seen.length = _ then _ else _) = _
  rw [hseen, hskus, List.length_nil, Nat.zero_add, if_neg (not_not.mpr rfl), Int.zero_add,
    ← h.subtotal]
  exact validateTotals_ok h hcurrency hsmall rfl rfl rfl rfl

/-- Every quote that pricing makes of a request it accepts, at non-negative 32-bit
prices and under any promotion and number format, has a discount between zero and
the subtotal and a total that is exactly their difference; while it is unexpired it
is encoded, and what is encoded is accepted by checkout for the same items and
currency, if the lines and the subtotal fit in 32 bits. -/
theorem pricing_quotes_accepted (f : Format) (db : Database) (request : QuoteRequest)
    (quote : CachedQuote) (input : CheckoutInput) (hvalid : validateRequest request = .ok ())
    (hprices : ∀ p ∈ db.prices request.tenantId request.customerId request.currencyCode,
      0 ≤ p.2.unitMinor ∧ p.2.unitMinor < 2 ^ 31)
    (hquote : calculateQuote f db request = .ok quote)
    (hsame : SameItems input.items request.items)
    (hc : input.currencyCode = request.currencyCode) :
    (0 ≤ quote.discountMinor ∧ quote.discountMinor ≤ quote.subtotalMinor ∧
      quote.grandTotalMinor = quote.subtotalMinor - quote.discountMinor + 0) ∧
    (∀ now, db.now ≤ now → now < quote.expiresAtUnixMs →
      ∃ response, toProtoAt quote now = .ok response) ∧
    ((∀ line ∈ quote.lines, line.lineMinor < 2 ^ 31) → quote.subtotalMinor < 2 ^ 31 →
      ∀ now response, toProtoAt quote now = .ok response →
        validateQuoteResponse input response = .ok ()) := by
  have hspec := calculateQuote_spec hquote
  refine ⟨⟨hspec.discount.1, hspec.discount.2, by rw [hspec.total, Int.add_zero]⟩, ?_, ?_⟩
  · intro now hnow hlive
    exact toProtoAt_of_unexpired hspec hnow hlive
  · intro hlines hsmall now response hproto
    exact validateQuoteResponse_ok hspec (skus_of_valid hvalid) (fun p hp => (hprices p hp).2)
      hsame hc hlines hsmall hproto

/-! One unit at 1.00, at half the time to its expiry. -/

def sampleBasketInput : CheckoutInput where
  tenantId := "tenant-acme".toList
  customerId := "customer-acme-ava".toList
  sessionId := none
  cartId := none
  items := [⟨"Aa".toList, 1⟩]
  currencyCode := "USD".toList
  promotionCode := none
  paymentMethodToken := some "tok_visa".toList
  paymentMethodType := some "card".toList
  requestId := some "request-1".toList

theorem pricing_quotes_accepted_sample :
    ∃ quote response, calculateQuote sampleFormat samplePrices (sampleBasket "Aa") = .ok quote ∧
      toProtoAt quote 22500 = .ok response ∧
      validateQuoteResponse sampleBasketInput response = .ok () := by
  have hprices : ∀ p ∈ samplePrices.prices (sampleBasket "Aa").tenantId
      (sampleBasket "Aa").customerId (sampleBasket "Aa").currencyCode,
      0 ≤ p.2.unitMinor ∧ p.2.unitMinor < 2 ^ 31 := by
    intro p hp
    rcases List.mem_cons.mp hp with rfl | hp
    · exact ⟨by decide, by decide⟩
    · rw [List.mem_singleton.mp hp]
      exact ⟨by decide, by decide⟩
  obtain ⟨quote, hquote, hexpires, hlines, hsmall⟩ : ∃ quote,
      calculateQuote sampleFormat samplePrices (sampleBasket "Aa") = .ok quote ∧
      quote.expiresAtUnixMs = 45000 ∧ (∀ line ∈ quote.lines, line.lineMinor < 2 ^ 31) ∧
      quote.subtotalMinor < 2 ^ 31 :=
    ⟨_, rfl, rfl, by decide, by decide⟩
  obtain ⟨-, hencoded, haccepted⟩ := pricing_quotes_accepted sampleFormat samplePrices
    (sampleBasket "Aa") quote sampleBasketInput (by decide) hprices hquote rfl rfl
  obtain ⟨response, hproto⟩ := hencoded 22500 (by decide) (by omega)
  exact ⟨quote, response, hquote, hproto, haccepted hlines hsmall 22500 response hproto⟩

end CommercePlayground.Boundary
