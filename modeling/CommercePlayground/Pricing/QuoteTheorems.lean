/-
CommercePlayground.Pricing.QuoteTheorems — what a quote of the pricing service
looks like.

`QuoteSpec` says it once: the lines are the items at prices of the catalogue,
the amounts add up, and the discount lies between zero and the subtotal,
whatever the promotion and however its arithmetic rounds.
-/
import CommercePlayground.Lib.Table
import CommercePlayground.Pricing.Quote

namespace CommercePlayground.Pricing

open Lib

/-! ## Checked arithmetic -/

theorem checked_ok {n m : Int} {error : Status} (h : checked n error = .ok m) : m = n := by
  unfold checked at h
  split at h <;> cases h
  rfl

theorem checked_range {n m : Int} {error : Status} (h : checked n error = .ok m) :
    m < 2 ^ 63 := by
  unfold checked inI64 at h
  split at h
  · rename_i hrange
    cases h
    exact (of_decide_eq_true hrange).2
  · cases h

theorem checked_of_small {n : Int} {error : Status} (h₀ : 0 ≤ n) (h : n < 2 ^ 63) :
    checked n error = .ok n := by
  unfold checked inI64
  rw [if_pos]
  rw [decide_eq_true_eq]
  omega

/-- The sum of the line amounts. -/
def lineSum (lines : List CachedLine) : Int := (lines.map CachedLine.lineMinor).sum

theorem sumLines_ok {error : Status} {lines : List CachedLine} {start total : Int}
    (h : sumLines error start lines = .ok total) : total = start + lineSum lines := by
  induction lines generalizing start with
  | nil =>
    cases h
    simp [lineSum]
  | cons line lines ih =>
    obtain ⟨next, hnext, h⟩ := bind_ok h
    rw [ih h, checked_ok hnext]
    simp [lineSum]
    omega

/-! ## Lines -/

/-- A line for an item, at a price of the catalogue. -/
structure Priced (selected : List (Text × SelectedPrice)) (item : QuoteItem)
    (line : CachedLine) : Prop where
  sku : line.sku = item.sku
  quantity : line.quantity = item.quantity
  nonneg : 0 ≤ line.unitMinor
  total : line.lineMinor = line.unitMinor * line.quantity
  price : ∃ p, selected.lookup item.sku = some p ∧ p.unitMinor = line.unitMinor

theorem priceLines_ok {selected : List (Text × SelectedPrice)} {currency : Text}
    {items : List QuoteItem} {lines : List CachedLine}
    (h : priceLines selected currency items = .ok lines) :
    List.Forall₂ (Priced selected) items lines := by
  induction items generalizing lines with
  | nil =>
    cases h
    exact .nil
  | cons item items ih =>
    unfold priceLines at h
    split at h
    · cases h
    · rename_i price hprice
      split at h
      · cases h
      · rename_i hnonneg
        split at h
        · cases h
        · obtain ⟨total, htotal, h⟩ := bind_ok h
          obtain ⟨rest, hrest, h⟩ := bind_ok h
          cases h
          exact .cons ⟨rfl, rfl, Int.not_lt.mp hnonneg, checked_ok htotal, price, hprice, rfl⟩
            (ih hrest)

theorem Priced.line_nonneg {selected : List (Text × SelectedPrice)} {item : QuoteItem}
    {line : CachedLine} (h : Priced selected item line) : 0 ≤ line.lineMinor := by
  rw [h.total]
  exact Int.mul_nonneg h.nonneg (Int.natCast_nonneg _)

/-- A line of a quote is for one of the items. -/
theorem exists_priced {selected : List (Text × SelectedPrice)} {items : List QuoteItem}
    {lines : List CachedLine} (h : List.Forall₂ (Priced selected) items lines) :
    ∀ line ∈ lines, ∃ item ∈ items, Priced selected item line := by
  induction h with
  | nil => exact fun _ hl => absurd hl List.not_mem_nil
  | cons hp _ ih =>
    intro line hl
    rcases List.mem_cons.mp hl with rfl | hl
    · exact ⟨_, List.mem_cons_self, hp⟩
    · obtain ⟨item, hitem, hp⟩ := ih line hl
      exact ⟨item, List.mem_cons_of_mem _ hitem, hp⟩

theorem lines_nonneg {selected : List (Text × SelectedPrice)} {items : List QuoteItem}
    {lines : List CachedLine} (h : List.Forall₂ (Priced selected) items lines) :
    ∀ line ∈ lines, 0 ≤ line.lineMinor := by
  intro line hl
  obtain ⟨item, -, hp⟩ := exists_priced h line hl
  exact hp.line_nonneg

theorem lineSum_nonneg {lines : List CachedLine} (h : ∀ line ∈ lines, 0 ≤ line.lineMinor) :
    0 ≤ lineSum lines := by
  refine List.sum_nonneg fun n hn => ?_
  obtain ⟨line, hl, rfl⟩ := List.mem_map.mp hn
  exact h line hl

/-- Some of the lines come to no more than all of them. -/
theorem lineSum_filter_le {lines : List CachedLine} (h : ∀ line ∈ lines, 0 ≤ line.lineMinor)
    (p : CachedLine → Bool) : lineSum (lines.filter p) ≤ lineSum lines := by
  induction lines with
  | nil => exact le_rfl
  | cons line lines ih =>
    have hline := h line List.mem_cons_self
    have hrest := ih fun l hl => h l (List.mem_cons_of_mem line hl)
    rw [List.filter_cons]
    unfold lineSum at hrest ⊢
    split
    · rw [List.map_cons, List.map_cons, List.sum_cons, List.sum_cons]
      omega
    · rw [List.map_cons, List.sum_cons]
      omega

/-! ## Promotions -/

theorem roundHalf_nonneg {x : ℚ} (h : 0 ≤ x) : 0 ≤ roundHalf x := by
  unfold roundHalf
  rw [if_pos h]
  exact Rat.le_floor_iff.mpr (by push_cast; linarith)

theorem asI64_nonneg {n : Int} (h : 0 ≤ n) : 0 ≤ asI64 n := by
  unfold asI64
  omega

/-- A positive value of a positive amount is not negative, however it rounds. -/
theorem rawDiscount_nonneg {f : Format} {kind : DiscountType} {value raw : ℚ} {eligible : Int}
    (hv : 0 ≤ value) (he : 0 ≤ eligible)
    (h : rawDiscount f kind value eligible = .ok (some raw)) : 0 ≤ raw := by
  unfold rawDiscount at h
  split at h
  · split at h
    · cases h
    · have hbind := Except.ok.inj h
      obtain ⟨x, hx, hbind⟩ := Option.bind_eq_some_iff.mp hbind
      obtain ⟨y, hy, hz⟩ := Option.bind_eq_some_iff.mp hbind
      have hx₀ := f.nonneg _ _ (by exact_mod_cast he) hx
      have hy₀ := f.nonneg _ _ (mul_nonneg hx₀ hv) hy
      exact f.nonneg _ _ (div_nonneg hy₀ (by norm_num)) hz
  · cases h
    exact hv
  · cases h

/-- The discount of a promotion lies between zero and the subtotal. -/
theorem promotionDiscount_bounds {f : Format} {db : Database} {request : QuoteRequest}
    {code : Text} {lines : List CachedLine} {discount : Int}
    (hl : ∀ line ∈ lines, 0 ≤ line.lineMinor)
    (h : promotionDiscount f db request code lines (lineSum lines) = .ok discount) :
    0 ≤ discount ∧ discount ≤ lineSum lines := by
  have hsum := lineSum_nonneg hl
  unfold promotionDiscount at h
  split at h
  · cases h
    exact ⟨le_rfl, hsum⟩
  · rename_i promotion _
    split at h
    · cases h
      exact ⟨le_rfl, hsum⟩
    · obtain ⟨eligible, he, h⟩ := bind_ok h
      have hsome : eligible = lineSum (lines.filter fun line =>
          promotion.products.contains line.productId) := by
        rw [sumLines_ok he, Int.zero_add]
      have heligible : 0 ≤ eligible := by
        rw [hsome]
        exact lineSum_nonneg fun line hm => hl line (List.mem_of_mem_filter hm)
      have hle : eligible ≤ lineSum lines := by
        rw [hsome]
        exact lineSum_filter_le hl _
      split at h
      · cases h
        exact ⟨le_rfl, hsum⟩
      · split at h
        · cases h
        · split at h
          · cases h
          · rename_i value _ hvalue
            obtain ⟨raw, hraw, h⟩ := bind_ok h
            split at h
            · cases h
            · rename_i raw
              split at h
              · cases h
              · cases h
                have hraw₀ := rawDiscount_nonneg (le_of_lt (not_le.mp hvalue)) heligible hraw
                have := asI64_nonneg (roundHalf_nonneg hraw₀)
                exact ⟨le_min this heligible, (min_le_right _ _).trans hle⟩

/-! ## Quotes -/

/-- What a quote looks like. -/
structure QuoteSpec (db : Database) (request : QuoteRequest) (quote : CachedQuote) : Prop where
  lines : List.Forall₂
    (Priced (db.prices request.tenantId request.customerId request.currencyCode))
    request.items quote.lines
  subtotal : quote.subtotalMinor = lineSum quote.lines
  discount : 0 ≤ quote.discountMinor ∧ quote.discountMinor ≤ quote.subtotalMinor
  total : quote.grandTotalMinor = quote.subtotalMinor - quote.discountMinor
  currency : quote.currency = request.currencyCode
  quoteId : quote.quoteId = requestId request
  version : quote.pricingVersion = pricingVersionIn db request.tenantId
  clock : 0 ≤ db.now
  expiry : quote.expiresAtUnixMs = db.now + 45000
  range : quote.expiresAtUnixMs < 2 ^ 63

theorem quoteExpiryFrom_ok {now expiry : Int} (h : quoteExpiryFrom now = .ok expiry) :
    0 ≤ now ∧ expiry = now + 45000 ∧ expiry < 2 ^ 63 := by
  obtain ⟨t, ht, h⟩ := bind_ok h
  obtain ⟨ttl, httl, h⟩ := bind_ok h
  have hexp := checked_ok h
  rw [checked_ok httl] at hexp
  unfold unixMillis at ht
  split at ht
  · cases ht
  · rename_i hnow
    split at ht
    · cases ht
      exact ⟨Int.not_lt.mp hnow, hexp, checked_range h⟩
    · cases ht

theorem calculateQuote_spec {f : Format} {db : Database} {request : QuoteRequest}
    {quote : CachedQuote} (h : calculateQuote f db request = .ok quote) :
    QuoteSpec db request quote := by
  unfold calculateQuote at h
  split at h
  · cases h
  · obtain ⟨lines, hlines, h⟩ := bind_ok h
    obtain ⟨subtotal, hsub, h⟩ := bind_ok h
    obtain ⟨discount, hdis, h⟩ := bind_ok h
    obtain ⟨total, htotal, h⟩ := bind_ok h
    obtain ⟨expiry, hexp, h⟩ := bind_ok h
    have hpriced := priceLines_ok hlines
    have hnonneg := lines_nonneg hpriced
    have hsum : subtotal = lineSum lines := by
      rw [sumLines_ok hsub, Int.zero_add]
    subst hsum
    have hbounds : 0 ≤ discount ∧ discount ≤ lineSum lines := by
      simp only [quoteDiscount] at hdis
      split at hdis
      · exact promotionDiscount_bounds hnonneg hdis
      · cases hdis
        exact ⟨le_rfl, lineSum_nonneg hnonneg⟩
    obtain ⟨hclock, hexpiry, hrange⟩ := quoteExpiryFrom_ok hexp
    split at h
    · cases h
    · cases h
      exact ⟨hpriced, rfl, hbounds, checked_ok htotal, rfl, rfl, rfl, hclock, hexpiry,
        hrange⟩

/-! ## The response -/

theorem requestId_not_blank (request : QuoteRequest) : trimIsEmpty (requestId request) = false := by
  unfold requestId
  split
  · rfl
  · rename_i h
    simpa using h

/-- The seconds an unexpired quote has left. -/
theorem remaining_ok {quote : CachedQuote} {now seconds : Int}
    (h : quote.remainingValiditySeconds now = .ok seconds) : 0 ≤ seconds := by
  obtain ⟨t, -, h⟩ := bind_ok h
  split at h
  · cases h
    exact le_rfl
  · obtain ⟨ms, -, h⟩ := bind_ok h
    obtain ⟨padded, -, h⟩ := bind_ok h
    simp only at h
    split at h
    · rename_i hrange
      cases h
      exact hrange.1
    · cases h

/-- A response is that of an unexpired quote. -/
theorem toProtoAt_ok {quote : CachedQuote} {now : Int} {response : QuoteResponse}
    (h : toProtoAt quote now = .ok response) : ∃ seconds : Nat, seconds ≠ 0 ∧
      response = ⟨quote.quoteId, .ready, quote.lines.map quote.protoLine,
        quote.money quote.subtotalMinor, quote.money quote.discountMinor, quote.money 0,
        quote.money quote.grandTotalMinor, seconds, quote.pricingVersion⟩ := by
  obtain ⟨u, hconsume, h⟩ := bind_ok h
  obtain ⟨seconds, hseconds, h⟩ := bind_ok h
  cases h
  refine ⟨seconds.toNat, ?_, rfl⟩
  obtain ⟨left, hleft, hconsume⟩ := bind_ok hconsume
  cases hseconds.symm.trans hleft
  have hnonneg := remaining_ok hseconds
  split at hconsume
  · cases hconsume
  · omega

/-- A quote that has not expired is encoded. -/
theorem toProtoAt_of_unexpired {db : Database} {request : QuoteRequest} {quote : CachedQuote}
    {now : Int} (h : QuoteSpec db request quote) (hnow : db.now ≤ now)
    (hlive : now < quote.expiresAtUnixMs) : ∃ response, toProtoAt quote now = .ok response := by
  have hexp := h.expiry
  have hclock := h.clock
  have hrange := h.range
  have hmillis : unixMillis now = .ok now := by
    unfold unixMillis inI64
    rw [if_neg (by omega), if_pos (by rw [decide_eq_true_eq]; omega)]
  obtain ⟨seconds, hpos, hseconds⟩ : ∃ seconds : Int, seconds ≠ 0 ∧
      quote.remainingValiditySeconds now = .ok seconds := by
    refine ⟨(quote.expiresAtUnixMs - now + (millisPerSecond - 1)) / millisPerSecond, ?_, ?_⟩
    · unfold millisPerSecond
      omega
    · have hpadded : 0 ≤ quote.expiresAtUnixMs - now + (millisPerSecond - 1) ∧
          quote.expiresAtUnixMs - now + (millisPerSecond - 1) < 2 ^ 63 := by
        unfold millisPerSecond
        omega
      unfold CachedQuote.remainingValiditySeconds
      rw [hmillis]
      show (if quote.expiresAtUnixMs ≤ now then _ else _) = _
      rw [if_neg (by omega), checked_of_small (by omega) (by omega)]
      show (checked _ _ >>= _) = _
      rw [checked_of_small hpadded.1 hpadded.2]
      show (if _ then _ else _) = _
      rw [if_pos]
      · rfl
      · unfold millisPerSecond
        omega
  unfold toProtoAt CachedQuote.consumeAt
  rw [hseconds]
  show ∃ response, ((if seconds = 0 then _ else _) >>= _) = _
  rw [if_neg hpos]
  exact ⟨_, rfl⟩

end CommercePlayground.Pricing
