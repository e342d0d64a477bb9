/-
CommercePlayground.Boundary.ValidationTheorems — which quotes `validate_quote_response`
lets pass.

The line loop takes a line out of the items at every turn, so that in the end the lines
are the items in another order. Every amount is bounded before it is used: a product is
compared with a line total that has 31 bits, the subtotal has at most fifty of them, and
the sum with the tax overflows only for a tax that is refused anyway.
-/
import CommercePlayground.Boundary.InventoryTheorems
import CommercePlayground.Boundary.QuoteTheorems
import Mathlib.Data.List.Perm.Subperm

namespace CommercePlayground.Boundary

open Lib Pricing

/-! ## Amounts -/

/-- An amount that the database can hold. -/
def InRange (amount : Int) : Prop := 0 ≤ amount ∧ amount ≤ 2 ^ 31 - 1

theorem quoteMoney_iff {money : Option Money} {currency : Text} {field : String} {amount : Int} :
    quoteMoney money currency field = .ok amount ↔ money = some ⟨currency, amount⟩ ∧ 0 ≤ amount := by
  unfold quoteMoney
  cases money with
  | none =>
    constructor
    · intro h
      cases h
    · intro h
      cases h.1
  | some money =>
    obtain ⟨code, minor⟩ := money
    by_cases hcode : code = currency
    · by_cases hneg : minor < 0
      · simp only [hcode, ne_eq, not_true_eq_false, if_false, hneg, if_true, protocolError]
        constructor
        · intro h
          cases h
        · rintro ⟨hsome, hnonneg⟩
          cases hsome
          omega
      · simp only [hcode, ne_eq, not_true_eq_false, if_false, hneg]
        constructor
        · intro h
          cases h
          exact ⟨rfl, by omega⟩
        · rintro ⟨hsome, -⟩
          cases hsome
          rfl
    · simp only [ne_eq, hcode, not_false_eq_true, if_true, protocolError]
      constructor
      · intro h
        cases h
      · rintro ⟨hsome, -⟩
        cases hsome
        exact absurd rfl hcode

theorem i32Amount_iff {amount : Int} {u : Unit} : i32Amount amount = .ok u ↔ InI32 amount := by
  refine ⟨i32Amount_range, fun h => ?_⟩
  unfold i32Amount
  exact if_pos h

theorem checkedAmount_iff {n m : Int} {message : String} :
    checkedAmount n message = .ok m ↔ n = m ∧ -2 ^ 63 ≤ n ∧ n < 2 ^ 63 := by
  unfold checkedAmount inI64
  split
  · rename_i hrange
    rw [decide_eq_true_eq] at hrange
    constructor
    · intro h
      cases h
      exact ⟨rfl, hrange⟩
    · rintro ⟨rfl, -⟩
      rfl
  · rename_i hrange
    rw [decide_eq_true_eq] at hrange
    constructor
    · intro h
      cases h
    · rintro ⟨-, h⟩
      exact absurd h hrange

/-! ## Items -/

/-- The map of expected quantities holds the items of a valid input. -/
theorem expectedQuantity_iff {items : List CheckoutItemInput}
    (hnodup : (items.map CheckoutItemInput.sku).Nodup) {sku : Text} {quantity : Nat} :
    expectedQuantity items sku = some quantity ↔
      (sku, quantity) ∈ items.map fun item => (item.sku, item.quantity) := by
  unfold expectedQuantity
  rw [Option.map_eq_some_iff, List.mem_map]
  constructor
  · rintro ⟨item, hfind, rfl⟩
    obtain ⟨hmem, hsku⟩ := find?_some_spec hfind
    exact ⟨item, List.mem_reverse.mp hmem, by rw [of_decide_eq_true hsku]⟩
  · rintro ⟨item, hmem, heq⟩
    obtain ⟨rfl, rfl⟩ := Prod.mk.inj heq
    cases hfind : items.reverse.find? fun other => decide (other.sku = item.sku) with
    | none =>
      have := List.find?_eq_none.mp hfind item (List.mem_reverse.mpr hmem)
      exact absurd (decide_eq_true rfl) this
    | some other =>
      obtain ⟨hother, hsku⟩ := find?_some_spec hfind
      have hsame : other = item := List.inj_on_of_nodup_map hnodup (List.mem_reverse.mp hother)
        hmem (of_decide_eq_true hsku)
      exact ⟨other, rfl, by rw [hsame]⟩

/-! ## Lines -/

/-- A line whose amounts are in range, in the currency of the input, and agree. -/
def LineFits (currency : Text) (line : QuoteLine) : Prop :=
  ∃ unit total, line.unitPrice = some ⟨currency, unit⟩ ∧ line.lineTotal = some ⟨currency, total⟩ ∧
    InRange unit ∧ InRange total ∧ total = unit * line.quantity

/-- The total of a line, if it has one. -/
def lineAmount (line : QuoteLine) : Int := (line.lineTotal.map Money.amountMinor).getD 0

theorem LineFits.amount {currency : Text} {line : QuoteLine} (h : LineFits currency line) :
    InRange (lineAmount line) := by
  obtain ⟨unit, total, -, htotal, -, hrange, -⟩ := h
  simpa [lineAmount, htotal] using hrange

theorem validateQuoteLine_iff {input : CheckoutInput} {seen : List Text} {line : QuoteLine}
    {total : Int} : validateQuoteLine input seen line = .ok total ↔
      line.sku ∉ seen ∧ expectedQuantity input.items line.sku = some line.quantity ∧
        LineFits input.currencyCode line ∧ total = lineAmount line := by
  unfold validateQuoteLine
  cases hexpected : expectedQuantity input.items line.sku with
  | none => simp [protocolError]
  | some expected =>
    dsimp only
    by_cases hbad : (seen.contains line.sku || decide (line.quantity ≠ expected)) = true
    · rw [if_pos hbad]
      simp only [Bool.or_eq_true, List.contains_iff_mem, decide_eq_true_eq] at hbad
      constructor
      · intro h
        cases h
      · rintro ⟨hseen, hquantity, -⟩
        cases hquantity
        rcases hbad with hmem | hne
        · exact absurd hmem hseen
        · exact absurd rfl hne
    · rw [if_neg hbad]
      simp only [Bool.or_eq_true, List.contains_iff_mem, decide_eq_true_eq, not_or,
        not_not] at hbad
      obtain ⟨hseen, rfl⟩ := hbad
      simp only [bind_ok_iff, quoteMoney_iff, i32Amount_iff, checkedAmount_iff]
      constructor
      · rintro ⟨unit, ⟨hunit, hunitPos⟩, lineTotal, ⟨htotal, htotalPos⟩, -, hunitRange, -,
          htotalRange, product, ⟨rfl, -⟩, hcheck⟩
        split at hcheck
        · cases hcheck
        · rename_i hequal
          cases hcheck
          unfold InI32 at hunitRange htotalRange
          have hamount : lineAmount line = total := by simp [lineAmount, htotal]
          exact ⟨hseen, trivial, ⟨unit, total, hunit, htotal, ⟨hunitPos, by omega⟩,
            ⟨htotalPos, by omega⟩, (not_not.mp hequal).symm⟩, hamount.symm⟩
      · rintro ⟨-, -, ⟨unit, lineTotal, hunit, htotal, hunitRange, htotalRange, hequal⟩, rfl⟩
        unfold InRange at hunitRange htotalRange
        refine ⟨unit, ⟨hunit, hunitRange.1⟩, lineTotal, ⟨htotal, htotalRange.1⟩, (),
          ⟨by omega, by omega⟩, (), ⟨by omega, by omega⟩, unit * line.quantity,
          ⟨rfl, by omega, by omega⟩, ?_⟩
        rw [if_neg (not_not.mpr hequal.symm)]
        simp [lineAmount, htotal]
        rfl

/-- The line loop, as long as the subtotal has room for the lines to come: no line
comes twice, each is expected and fits, and the subtotal is the sum. -/
theorem validateQuoteLines_iff {input : CheckoutInput} {subtotal : Int} {seen : List Text}
    {lines : List QuoteLine} (hnonneg : 0 ≤ subtotal)
    (hroom : subtotal + lines.length * 2 ^ 31 < 2 ^ 63) {sum : Int} {skus : List Text} :
    validateQuoteLines input subtotal seen lines = .ok (sum, skus) ↔
      ((lines.map QuoteLine.sku).Nodup ∧ ∀ line ∈ lines, line.sku ∉ seen ∧
        expectedQuantity input.items line.sku = some line.quantity ∧
          LineFits input.currencyCode line) ∧
      sum = subtotal + (lines.map lineAmount).sum ∧
      skus = (lines.map QuoteLine.sku).reverse ++ seen := by
  induction lines generalizing subtotal seen with
  | nil =>
    simp [validateQuoteLines, eq_comm]
  | cons line lines ih =>
    rw [List.length_cons] at hroom
    push_cast at hroom
    have hlines : (0 : Int) ≤ lines.length := Int.natCast_nonneg _
    unfold validateQuoteLines
    simp only [bind_ok_iff, validateQuoteLine_iff, checkedAmount_iff]
    constructor
    · rintro ⟨total, ⟨hseen, hexpected, hfits, rfl⟩, next, ⟨rfl, -⟩, hrest⟩
      have hamount := hfits.amount
      unfold InRange at hamount
      rw [ih (by omega) (by omega)] at hrest
      obtain ⟨⟨hnodup, hall⟩, rfl, rfl⟩ := hrest
      refine ⟨⟨?_, ?_⟩, ?_, ?_⟩
      · rw [List.map_cons, List.nodup_cons]
        refine ⟨fun hmem => ?_, hnodup⟩
        obtain ⟨other, hother, heq⟩ := List.mem_map.mp hmem
        exact (hall other hother).1 (heq ▸ List.mem_cons_self)
      · intro other hother
        rcases List.mem_cons.mp hother with rfl | hother
        · exact ⟨hseen, hexpected, hfits⟩
        · obtain ⟨hnew, hrest⟩ := hall other hother
          exact ⟨fun hmem => hnew (List.mem_cons_of_mem _ hmem), hrest⟩
      · rw [List.map_cons, List.sum_cons]
        omega
      · simp
    · rintro ⟨⟨hnodup, hall⟩, rfl, rfl⟩
      rw [List.map_cons, List.nodup_cons] at hnodup
      obtain ⟨hseen, hexpected, hfits⟩ := hall line List.mem_cons_self
      have hamount := hfits.amount
      unfold InRange at hamount
      refine ⟨_, ⟨hseen, hexpected, hfits, rfl⟩, _, ⟨rfl, by omega, by omega⟩, ?_⟩
      rw [ih (by omega) (by omega)]
      refine ⟨⟨hnodup.2, fun other hother => ?_⟩, ?_, ?_⟩
      · obtain ⟨hnew, hrest⟩ := hall other (List.mem_cons_of_mem line hother)
        refine ⟨fun hmem => ?_, hrest⟩
        rcases List.mem_cons.mp hmem with heq | hmem
        · exact hnodup.1 (heq ▸ List.mem_map_of_mem hother)
        · exact hnew hmem
      · rw [List.map_cons, List.sum_cons]
        omega
      · simp

/-- A loop over distinct lines of expected quantities has taken all items when it has
taken as many. -/
theorem lines_perm_iff {items : List CheckoutItemInput} {lines : List QuoteLine}
    (hnodup : (items.map CheckoutItemInput.sku).Nodup) :
    (lines.length = items.length ∧ (lines.map QuoteLine.sku).Nodup ∧
        ∀ line ∈ lines, expectedQuantity items line.sku = some line.quantity) ↔
      (lines.map fun line => (line.sku, line.quantity)).Perm
        (items.map fun item => (item.sku, item.quantity)) := by
  have hfst : (lines.map fun line => (line.sku, line.quantity)).map Prod.fst =
      lines.map QuoteLine.sku := by
    rw [List.map_map]
    rfl
  have hfst' : (items.map fun item => (item.sku, item.quantity)).map Prod.fst =
      items.map CheckoutItemInput.sku := by
    rw [List.map_map]
    rfl
  constructor
  · rintro ⟨hlength, hlines, hexpected⟩
    have hpairs : (lines.map fun line => (line.sku, line.quantity)).Nodup := by
      rw [← hfst] at hlines
      exact hlines.of_map Prod.fst
    have hsub : (lines.map fun line => (line.sku, line.quantity)) ⊆
        items.map fun item => (item.sku, item.quantity) := by
      intro pair hpair
      obtain ⟨line, hline, rfl⟩ := List.mem_map.mp hpair
      exact (expectedQuantity_iff hnodup).mp (hexpected line hline)
    exact (List.Nodup.subperm hpairs hsub).perm_of_length_le (by simp [hlength])
  · intro hperm
    refine ⟨by simpa using hperm.length_eq, ?_, fun line hline => ?_⟩
    · rw [← hfst, (hperm.map Prod.fst).nodup_iff, hfst']
      exact hnodup
    · rw [expectedQuantity_iff hnodup, ← hperm.mem_iff]
      exact List.mem_map_of_mem hline

/-! ## Totals -/

/-- Totals in range and in the currency of the input, which balance with the lines. -/
def TotalsFit (currency : Text) (quote : QuoteResponse) (fromLines : Int) : Prop :=
  ∃ subtotal discount tax total,
    quote.subtotal = some ⟨currency, subtotal⟩ ∧ quote.discountTotal = some ⟨currency, discount⟩ ∧
    quote.taxTotal = some ⟨currency, tax⟩ ∧ quote.grandTotal = some ⟨currency, total⟩ ∧
    InRange subtotal ∧ InRange discount ∧ InRange tax ∧ InRange total ∧
    subtotal = fromLines ∧ discount ≤ subtotal ∧ total = subtotal - discount + tax

theorem validateTotals_iff {input : CheckoutInput} {quote : QuoteResponse} {fromLines : Int}
    {u : Unit} : validateTotals input quote fromLines = .ok u ↔
      TotalsFit input.currencyCode quote fromLines := by
  unfold validateTotals TotalsFit
  simp only [bind_ok_iff, quoteMoney_iff]
  constructor
  · rintro ⟨subtotal, ⟨hsubtotal, hpos⟩, discount, ⟨hdiscount, hdiscountPos⟩, tax, ⟨htax, htaxPos⟩, total,
      ⟨htotal, htotalPos⟩, h⟩
    split at h
    · cases h
    · rename_i hlines
      simp only [bind_ok_iff, checkedAmount_iff] at h
      obtain ⟨amount, ⟨rfl, -⟩, expected, ⟨rfl, -⟩, h⟩ := h
      split at h
      · cases h
      · rename_i hbalance
        simp only [bind_ok_iff, i32Amount_iff] at h
        obtain ⟨-, hs, -, hd, -, ht, hg⟩ := h
        unfold InI32 at hs hd ht hg
        refine ⟨subtotal, discount, tax, total, hsubtotal, hdiscount, htax, htotal,
          ⟨hpos, by omega⟩, ⟨hdiscountPos, by omega⟩, ⟨htaxPos, by omega⟩, ⟨htotalPos, by omega⟩,
          by omega, by omega, by omega⟩
  · rintro ⟨subtotal, discount, tax, total, hsubtotal, hdiscount, htax, htotal, hs, hd, ht, hg,
      hlines, hle, hbalance⟩
    unfold InRange at hs hd ht hg
    refine ⟨subtotal, ⟨hsubtotal, hs.1⟩, discount, ⟨hdiscount, hd.1⟩, tax, ⟨htax, ht.1⟩, total,
      ⟨htotal, hg.1⟩, ?_⟩
    rw [if_neg (by omega)]
    simp only [bind_ok_iff, checkedAmount_iff]
    refine ⟨_, ⟨rfl, by omega, by omega⟩, _, ⟨rfl, by omega, by omega⟩, ?_⟩
    rw [if_neg (by omega)]
    simp only [bind_ok_iff, i32Amount_iff]
    unfold InI32
    exact ⟨(), by omega, (), by omega, (), by omega, by omega⟩

/-! ## The response -/

/-- A quote that says what its input asks, and adds up. -/
structure QuoteFits (input : CheckoutInput) (quote : QuoteResponse) : Prop where
  status : quote.status = .ready
  quoteId : trimIsEmpty quote.quoteId = false
  pricingVersion : trimIsEmpty quote.pricingVersion = false
  validFor : 0 < quote.validForSeconds
  items : (quote.lines.map fun line => (line.sku, line.quantity)).Perm
    (input.items.map fun item => (item.sku, item.quantity))
  lines : ∀ line ∈ quote.lines, LineFits input.currencyCode line
  totals : TotalsFit input.currencyCode quote (quote.lines.map lineAmount).sum

/-- **Quote validation.** -/
theorem validateQuoteResponse_iff {input : CheckoutInput} (hinput : validateInput input = .ok ())
    (quote : QuoteResponse) :
    validateQuoteResponse input quote = .ok () ↔ QuoteFits input quote := by
  have hvalid := validateInput_ok hinput
  have hcount := hvalid.count
  have hdups := congrArg List.length (eraseDups_of_nodup hvalid.nodup)
  rw [List.length_map] at hdups
  have hloop : ∀ {sum skus}, quote.lines.length = input.items.length →
      (validateQuoteLines input 0 [] quote.lines = .ok (sum, skus) ↔
        ((quote.lines.map fun line => (line.sku, line.quantity)).Perm
          (input.items.map fun item => (item.sku, item.quantity)) ∧
        ∀ line ∈ quote.lines, LineFits input.currencyCode line) ∧
        sum = (quote.lines.map lineAmount).sum ∧ skus = (quote.lines.map QuoteLine.sku).reverse) := by
    intro sum skus hlength
    rw [validateQuoteLines_iff (le_refl 0) (by omega), ← lines_perm_iff hvalid.nodup, zero_add,
      List.append_nil]
    simp only [List.not_mem_nil, not_false_eq_true, true_and, hlength, and_assoc]
    constructor
    · rintro ⟨hnodup, hall, hrest⟩
      exact ⟨hnodup, fun line hline => (hall line hline).1, fun line hline => (hall line hline).2,
        hrest⟩
    · rintro ⟨hnodup, hexpected, hfits, hrest⟩
      exact ⟨hnodup, fun line hline => ⟨hexpected line hline, hfits line hline⟩, hrest⟩
  unfold validateQuoteResponse
  constructor
  · intro h
    split at h
    · cases h
    split at h
    · cases h
    split at h
    · cases h
    split at h
    · cases h
    rename_i hstatus hids hexpires hlength
    simp only [Bool.or_eq_true, not_or, Bool.not_eq_true] at hids
    obtain ⟨⟨sum, skus⟩, hlines, h⟩ := bind_ok h
    obtain ⟨⟨hperm, hfits⟩, rfl, rfl⟩ := (hloop (not_not.mp hlength)).mp hlines
    dsimp only at h
    split at h
    · cases h
    · exact ⟨not_not.mp hstatus, hids.1, hids.2, Nat.pos_of_ne_zero hexpires, hperm, hfits,
        validateTotals_iff.mp h⟩
  · intro h
    have hlength : quote.lines.length = input.items.length := by
      simpa using h.items.length_eq
    rw [if_neg (not_not.mpr h.status), if_neg (by simp [h.quoteId, h.pricingVersion]),
      if_neg h.validFor.ne', if_neg (not_not.mpr hlength), bind_ok_iff]
    refine ⟨(_, _), (hloop hlength).mpr ⟨⟨h.items, h.lines⟩, rfl, rfl⟩, ?_⟩
    dsimp only
    rw [List.length_reverse, List.length_map, hdups, if_neg (not_not.mpr hlength)]
    exact validateTotals_iff.mpr h.totals

/-! ## The order made of it -/

theorem quoteAmounts_of_fits {input : CheckoutInput} {quote : QuoteResponse}
    (h : QuoteFits input quote) : ∃ subtotal discount tax total,
      quoteAmounts input quote = .ok (subtotal, discount, tax, total) ∧
        i32Amount subtotal = .ok () ∧ i32Amount discount = .ok () ∧ i32Amount tax = .ok () ∧
          i32Amount total = .ok () := by
  obtain ⟨subtotal, discount, tax, total, hsubtotal, hdiscount, htax, htotal, hs, hd, ht, hg, -,
    hle, hbalance⟩ := h.totals
  unfold InRange at hs hd ht hg
  refine ⟨subtotal, discount, tax, total, ?_, i32Amount_ok hs.1 (by omega),
    i32Amount_ok hd.1 (by omega), i32Amount_ok ht.1 (by omega), i32Amount_ok hg.1 (by omega)⟩
  unfold quoteAmounts
  simp only [bind_ok_iff, quoteMoney_iff, checkedAmount_iff]
  refine ⟨subtotal, ⟨hsubtotal, hs.1⟩, discount, ⟨hdiscount, hd.1⟩, total, ⟨htotal, hg.1⟩, tax,
    ⟨htax, ht.1⟩, _, ⟨rfl, by omega, by omega⟩, _, ⟨rfl, by omega, by omega⟩, ?_⟩
  rw [if_neg (not_not.mpr hbalance)]
  rfl

/-- Every item has a line with a price that fits. -/
theorem quoteLine_of_fits {input : CheckoutInput} {quote : QuoteResponse}
    (h : QuoteFits input quote) {item : CheckoutItemInput} (hitem : item ∈ input.items) :
    ∃ line money, (quote.lines.find? fun line => decide (line.sku = item.sku)) = some line ∧
      line.unitPrice = some money ∧ i32Amount money.amountMinor = .ok () := by
  have hpair : (item.sku, item.quantity) ∈
      quote.lines.map fun line => (line.sku, line.quantity) := by
    rw [h.items.mem_iff]
    exact List.mem_map_of_mem hitem
  obtain ⟨line, hline, heq⟩ := List.mem_map.mp hpair
  cases hfind : quote.lines.find? fun line => decide (line.sku = item.sku) with
  | none =>
    have := List.find?_eq_none.mp hfind line hline
    exact absurd (decide_eq_true (Prod.mk.inj heq).1) this
  | some found =>
    obtain ⟨unit, total, hunit, -, hrange, -⟩ := h.lines found (find?_some_spec hfind).1
    unfold InRange at hrange
    have hprice : i32Amount unit = .ok () := i32Amount_ok hrange.1 (by omega)
    exact ⟨found, ⟨input.currencyCode, unit⟩, rfl, hunit, hprice⟩

theorem orderLines_error {catalogue : Catalogue} {input : CheckoutInput} {quote : QuoteResponse}
    (h : QuoteFits input quote) {items : List CheckoutItemInput} (hitems : items ⊆ input.items)
    {e : ApiError} (herror : orderLines catalogue quote items = .error e) :
    e.code = .productNotFound := by
  induction items with
  | nil => cases herror
  | cons item items ih =>
    rcases bind_error herror with hline | ⟨line, -, herror⟩
    · obtain ⟨found, money, hfind, hprice, hrange⟩ :=
        quoteLine_of_fits h (hitems List.mem_cons_self)
      unfold orderLine at hline
      rw [hfind] at hline
      dsimp only at hline
      rw [hprice] at hline
      dsimp only at hline
      rw [hrange] at hline
      split at hline
      · cases hline
        rfl
      · cases hline
    · rcases bind_error herror with hrest | ⟨lines, -, herror⟩
      · exact ih (fun i hi => hitems (List.mem_cons_of_mem item hi)) hrest
      · cases herror

/-- An order for a quote that passed fails for its session or for an unknown SKU only. -/
theorem createPendingOrder_error {catalogue : Catalogue} {uuid : Uuid} {input : CheckoutInput}
    {quote : QuoteResponse} (hinput : validateInput input = .ok ()) (h : QuoteFits input quote)
    {e : ApiError} (herror : createPendingOrder catalogue uuid input quote = .error e) :
    e.code = .invalidSession ∨ e.code = .productNotFound := by
  obtain ⟨subtotal, discount, tax, total, hamounts, hs, hd, ht, hg⟩ := quoteAmounts_of_fits h
  unfold createPendingOrder at herror
  rw [hinput, (validateQuoteResponse_iff hinput quote).mpr h] at herror
  dsimp only [bind, Except.bind] at herror
  split at herror
  · cases herror
    exact .inl rfl
  · rw [hamounts] at herror
    dsimp only at herror
    cases hlines : orderLines catalogue quote input.items with
    | error e' =>
      rw [hlines] at herror
      cases herror
      exact .inr (orderLines_error h (List.Subset.refl _) hlines)
    | ok lines =>
      rw [hlines] at herror
      dsimp only at herror
      rw [hs, hd, ht, hg] at herror
      cases herror

/-- A quote passes exactly when it fits its input, and then no amount of it fails to be
converted for the order. -/
theorem quote_validation_exact (input : CheckoutInput) (quote : QuoteResponse)
    (hinput : validateInput input = .ok ()) :
    (validateQuoteResponse input quote = .ok () ↔ QuoteFits input quote) ∧
    (validateQuoteResponse input quote = .ok () →
      (∃ subtotal discount tax total,
        quoteAmounts input quote = .ok (subtotal, discount, tax, total) ∧
          i32Amount subtotal = .ok () ∧ i32Amount discount = .ok () ∧ i32Amount tax = .ok () ∧
            i32Amount total = .ok ()) ∧
      (∀ item ∈ input.items, ∃ line money,
        (quote.lines.find? fun line => decide (line.sku = item.sku)) = some line ∧
          line.unitPrice = some money ∧ i32Amount money.amountMinor = .ok ()) ∧
      ∀ (catalogue : Catalogue) (uuid : Uuid) (e : ApiError),
        createPendingOrder catalogue uuid input quote = .error e →
          e.code = .invalidSession ∨ e.code = .productNotFound) := by
  refine ⟨validateQuoteResponse_iff hinput quote, fun hok => ?_⟩
  have hfits := (validateQuoteResponse_iff hinput quote).mp hok
  exact ⟨quoteAmounts_of_fits hfits, fun item hitem => quoteLine_of_fits hfits hitem,
    fun catalogue uuid e herror => createPendingOrder_error hinput hfits herror⟩

theorem quote_validation_exact_sample :
    QuoteFits (sampleCheckout "request-1") (sampleQuote 900) :=
  (quote_validation_exact (sampleCheckout "request-1") (sampleQuote 900) (by rfl)).1.mp (by rfl)

end CommercePlayground.Boundary
