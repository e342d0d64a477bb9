/-
CommercePlayground.Boundary.StorefrontQuoteTheorems — which quotes the storefront takes.

The three functions together ask for a usable and balanced quote whose totals agree on a
currency and whose lines each agree on one (`tryFromProto_ok_iff`). None of them compares
a line with the totals. So a quote with lines in another currency passes, and its subtotal
is a sum over two currencies.
-/
import CommercePlayground.Boundary.StorefrontQuote
import CommercePlayground.Lib.Table

namespace CommercePlayground.Boundary

open Lib
open Pricing (Money QuoteResponse QuoteStatus isCurrencyCode inI64)

namespace Storefront

/-! ## Parts -/

theorem isCurrencyCode_iff (code : Text) : isCurrencyCode code = true ↔ IsCurrency code := by
  unfold isCurrencyCode IsCurrency
  simp only [ne_eq, Bool.not_or, Bool.and_eq_true, Bool.not_eq_eq_eq_not, Bool.not_true,
    decide_eq_false_iff_not, not_not, Bool.not_false]
  constructor
  · rintro ⟨⟨hlength, hupper⟩, hletters⟩
    have hascii : Ascii code := by
      refine ascii_of_utf8 fun n hn => ?_
      have := List.all_eq_true.mp hletters n hn
      simp only [isAsciiAlphabetic, Bool.or_eq_true, decide_eq_true_eq] at this
      omega
    rw [utf8_of_ascii hascii] at hlength hletters
    refine ⟨by simpa [codes] using hlength, fun c hc => ?_⟩
    have hletter := List.all_eq_true.mp hletters _ (List.mem_map_of_mem hc)
    have hnot := not_lowercase hupper hc
    simp only [isAsciiAlphabetic, Bool.or_eq_true, decide_eq_true_eq] at hletter
    omega
  · rintro ⟨hlength, hletters⟩
    have hascii : Ascii code := fun c hc => by
      have := hletters c hc
      omega
    rw [utf8_of_ascii hascii]
    refine ⟨⟨by simpa [codes] using hlength, ?_⟩, List.all_eq_true.mpr fun n hn => ?_⟩
    · have hsame : toAsciiUppercase code = code.map id := by
        refine List.map_congr_left fun c hc => ?_
        rw [if_neg]
        · rfl
        · have := hletters c hc
          omega
      rw [hsame, List.map_id]
    · obtain ⟨c, hc, rfl⟩ := List.mem_map.mp hn
      have := hletters c hc
      simp only [isAsciiAlphabetic, Bool.or_eq_true, decide_eq_true_eq]
      omega

theorem checkedI64_eq_some {n m : Int} : checkedI64 n = some m ↔ inI64 n = true ∧ n = m := by
  unfold checkedI64
  split
  · rename_i h
    exact ⟨fun heq => ⟨h, Option.some.inj heq⟩, fun heq => congrArg some heq.2⟩
  · rename_i h
    exact ⟨fun heq => (by cases heq), fun heq => absurd heq.1 h⟩

theorem orError_ok {α : Type} {message : String} {o : Option α} {a : α} :
    orError message o = .ok a ↔ o = some a := by
  cases o with
  | none => exact ⟨fun h => (by cases h), fun h => (by cases h)⟩
  | some b => exact ⟨fun h => congrArg some (Except.ok.inj h), fun h => by cases h; rfl⟩

theorem tryI32_ok {n m : Nat} {message : String} :
    tryI32 n message = .ok m ↔ n < 2 ^ 31 ∧ n = m := by
  unfold tryI32
  split
  · rename_i h
    exact ⟨fun heq => ⟨h, Except.ok.inj heq⟩, fun heq => congrArg Except.ok heq.2⟩
  · rename_i h
    exact ⟨fun heq => (by cases heq), fun heq => absurd heq.1 h⟩

/-- An amount that is there, in a currency and not negative. -/
def GoodMoney (money : Money) : Prop := IsCurrency money.currencyCode ∧ 0 ≤ money.amountMinor

theorem requiredMoney_ok {value : Option Money} {name : String} {money : Money} :
    requiredMoney value name = .ok money ↔ value = some money ∧ GoodMoney money := by
  have hgood : ∀ m : Money, (!isCurrencyCode m.currencyCode || decide (m.amountMinor < 0)) = false ↔
      GoodMoney m := by
    intro m
    rw [Bool.or_eq_false_iff, Bool.not_eq_false', isCurrencyCode_iff, decide_eq_false_iff_not,
      Int.not_lt]
    exact Iff.rfl
  unfold requiredMoney
  rw [bind_ok_iff]
  constructor
  · rintro ⟨m, hm, h⟩
    split at h
    · cases h
    · rename_i hcheck
      cases h
      exact ⟨orError_ok.mp hm, (hgood money).mp (Bool.eq_false_iff.mpr hcheck)⟩
  · rintro ⟨hvalue, hm⟩
    exact ⟨money, orError_ok.mpr hvalue, if_neg (Bool.eq_false_iff.mp ((hgood money).mpr hm))⟩

/-- What a line passes with. -/
structure PricedLine.Good (line : PricedLine) : Prop where
  sku : trimIsEmpty line.sku = false
  quantity : 0 < line.quantity ∧ line.quantity < 2 ^ 31
  unitPrice : GoodMoney line.unitPrice
  lineTotal : GoodMoney line.lineTotal
  currency : line.unitPrice.currencyCode = line.lineTotal.currencyCode
  amount : line.lineTotal.amountMinor = line.unitPrice.amountMinor * line.quantity
  fits : inI64 line.lineTotal.amountMinor = true

theorem lineTryFromProto_ok {value : Pricing.QuoteLine} {line : QuoteLine} :
    lineTryFromProto value = .ok line ↔
      ∃ priced : PricedLine, priced.toProto = value ∧ priced.toLine = line ∧ priced.Good := by
  unfold lineTryFromProto
  constructor
  · intro h
    split at h
    · cases h
    rename_i hidentity
    simp only [Bool.or_eq_true, decide_eq_true_eq, not_or, Bool.not_eq_true] at hidentity
    obtain ⟨unit, hunit, h⟩ := bind_ok h
    obtain ⟨total, htotal, h⟩ := bind_ok h
    obtain ⟨hunit, hgood⟩ := requiredMoney_ok.mp hunit
    obtain ⟨htotal, hgood'⟩ := requiredMoney_ok.mp htotal
    split at h
    · cases h
    rename_i hcheck
    obtain ⟨hcurrency, hamount⟩ := not_or.mp hcheck
    obtain ⟨hfits, hamount⟩ := checkedI64_eq_some.mp (not_not.mp hamount)
    obtain ⟨quantity, hquantity, h⟩ := bind_ok h
    obtain ⟨hsmall, rfl⟩ := tryI32_ok.mp hquantity
    cases h
    refine ⟨⟨value.sku, value.quantity, unit, total⟩, ?_, rfl,
      ⟨hidentity.1, ⟨Nat.pos_of_ne_zero hidentity.2, hsmall⟩, hgood, hgood', not_not.mp hcurrency,
        hamount.symm, hamount ▸ hfits⟩⟩
    unfold PricedLine.toProto
    rw [← hunit, ← htotal]
  · rintro ⟨priced, rfl, rfl, hgood⟩
    have hidentity : ¬ (trimIsEmpty priced.toProto.sku ||
        decide (priced.toProto.quantity = 0)) = true := by
      rw [Bool.not_eq_true, Bool.or_eq_false_iff, decide_eq_false_iff_not]
      exact ⟨hgood.sku, Nat.ne_of_gt hgood.quantity.1⟩
    have hunit : requiredMoney priced.toProto.unitPrice "line unit_price" =
        .ok priced.unitPrice := requiredMoney_ok.mpr ⟨rfl, hgood.unitPrice⟩
    have htotal : requiredMoney priced.toProto.lineTotal "line line_total" =
        .ok priced.lineTotal := requiredMoney_ok.mpr ⟨rfl, hgood.lineTotal⟩
    have hquantity : tryI32 priced.toProto.quantity "quote quantity exceeds GraphQL Int" =
        .ok priced.quantity := tryI32_ok.mpr ⟨hgood.quantity.2, rfl⟩
    have hcheck : ¬ (priced.unitPrice.currencyCode ≠ priced.lineTotal.currencyCode ∨
        checkedI64 (priced.unitPrice.amountMinor * priced.toProto.quantity) ≠
          some priced.lineTotal.amountMinor) := by
      refine not_or.mpr ⟨not_not.mpr hgood.currency, not_not.mpr (checkedI64_eq_some.mpr ?_)⟩
      exact ⟨hgood.amount ▸ hgood.fits, hgood.amount.symm⟩
    rw [if_neg hidentity, hunit, htotal]
    show (if _ then _ else _) = _
    rw [if_neg hcheck, hquantity]
    rfl

theorem linesTryFromProto_ok {values : List Pricing.QuoteLine} {lines : List QuoteLine} :
    values.mapM lineTryFromProto = .ok lines ↔
      ∃ priced : List PricedLine, priced.map PricedLine.toProto = values ∧
        priced.map PricedLine.toLine = lines ∧ ∀ line ∈ priced, line.Good := by
  induction values generalizing lines with
  | nil =>
    constructor
    · intro h
      cases h
      exact ⟨[], rfl, rfl, fun _ h => absurd h List.not_mem_nil⟩
    · rintro ⟨priced, hvalues, rfl, -⟩
      rw [List.map_eq_nil_iff.mp hvalues]
      rfl
  | cons value values ih =>
    rw [List.mapM_cons]
    constructor
    · intro h
      obtain ⟨line, hline, h⟩ := bind_ok h
      obtain ⟨rest, hrest, h⟩ := bind_ok h
      cases h
      obtain ⟨first, rfl, rfl, hgood⟩ := lineTryFromProto_ok.mp hline
      obtain ⟨priced, rfl, rfl, hall⟩ := ih.mp hrest
      exact ⟨first :: priced, rfl, rfl, List.forall_mem_cons.mpr ⟨hgood, hall⟩⟩
    · rintro ⟨priced, hvalues, rfl, hall⟩
      match priced, hvalues, hall with
      | first :: priced, hvalues, hall =>
        obtain ⟨rfl, rfl⟩ := List.cons.inj hvalues
        obtain ⟨hgood, hrest⟩ := List.forall_mem_cons.mp hall
        rw [lineTryFromProto_ok.mpr ⟨first, rfl, rfl, hgood⟩, ih.mpr ⟨priced, rfl, rfl, hrest⟩]
        rfl

/-! ## Totals -/

/-- The sum of the line totals. -/
def sumOf (lines : List PricedLine) : Int :=
  (lines.map fun line => line.lineTotal.amountMinor).sum

theorem sumOf_nonneg {lines : List PricedLine}
    (h : ∀ line ∈ lines, 0 ≤ line.lineTotal.amountMinor) : 0 ≤ sumOf lines := by
  refine List.sum_nonneg fun amount hamount => ?_
  obtain ⟨line, hline, rfl⟩ := List.mem_map.mp hamount
  exact h line hline

/-- What the fold gives is the sum. -/
theorem lineSubtotal_eq {lines : List PricedLine} {total sum : Int}
    (h : lineSubtotal total (lines.map PricedLine.toLine) = .ok sum) :
    sum = total + sumOf lines := by
  induction lines generalizing total with
  | nil =>
    cases h
    simp [sumOf]
  | cons line lines ih =>
    simp only [List.map_cons, lineSubtotal] at h
    obtain ⟨money, hmoney, h⟩ := bind_ok h
    obtain ⟨next, hnext, h⟩ := bind_ok h
    cases orError_ok.mp hmoney
    obtain ⟨-, rfl⟩ := checkedI64_eq_some.mp (orError_ok.mp hnext)
    rw [ih h, sumOf, sumOf, List.map_cons, List.sum_cons]
    exact Int.add_assoc _ _ _

/-- The amounts so far are between zero and the whole sum, so no step overflows. -/
theorem lineSubtotal_ok {lines : List PricedLine} {total : Int} (htotal : 0 ≤ total)
    (hnonneg : ∀ line ∈ lines, 0 ≤ line.lineTotal.amountMinor)
    (hfits : inI64 (total + sumOf lines) = true) :
    lineSubtotal total (lines.map PricedLine.toLine) = .ok (total + sumOf lines) := by
  induction lines generalizing total with
  | nil => simp [lineSubtotal, sumOf]
  | cons line lines ih =>
    obtain ⟨hline, hrest⟩ := List.forall_mem_cons.mp hnonneg
    have htail := sumOf_nonneg hrest
    have hsum : total + sumOf (line :: lines) =
        total + line.lineTotal.amountMinor + sumOf lines := by
      rw [sumOf, List.map_cons, List.sum_cons, ← Int.add_assoc]
      rfl
    rw [hsum] at hfits ⊢
    have hstep : inI64 (total + line.lineTotal.amountMinor) = true := by
      simp only [inI64, decide_eq_true_eq] at hfits ⊢
      omega
    have hnext : orError "quote subtotal overflowed"
        (checkedI64 (total + line.lineTotal.amountMinor)) =
          .ok (total + line.lineTotal.amountMinor) :=
      orError_ok.mpr (checkedI64_eq_some.mpr ⟨hstep, rfl⟩)
    rw [List.map_cons, lineSubtotal]
    show (orError _ (checkedI64 (total + line.lineTotal.amountMinor)) >>= _) = _
    rw [hnext]
    exact ih (by omega) hrest hfits

theorem balance_ok {lines : List PricedLine} {subtotal discountTotal taxTotal grandTotal : Money}
    (hnonneg : ∀ line ∈ lines, 0 ≤ line.lineTotal.amountMinor)
    (hamounts : 0 ≤ subtotal.amountMinor ∧ 0 ≤ discountTotal.amountMinor)
    (hsubtotal : inI64 subtotal.amountMinor = true)
    (hgrand : inI64 grandTotal.amountMinor = true) :
    balance (lines.map PricedLine.toLine) subtotal discountTotal taxTotal grandTotal = .ok () ↔
      (discountTotal.currencyCode = subtotal.currencyCode ∧
        taxTotal.currencyCode = subtotal.currencyCode ∧
        grandTotal.currencyCode = subtotal.currencyCode) ∧
      subtotal.amountMinor = sumOf lines ∧
      discountTotal.amountMinor ≤ subtotal.amountMinor ∧
      grandTotal.amountMinor =
        subtotal.amountMinor - discountTotal.amountMinor + taxTotal.amountMinor := by
  have hany : [discountTotal, taxTotal, grandTotal].any
      (fun money => decide (money.currencyCode ≠ subtotal.currencyCode)) = false ↔
      discountTotal.currencyCode = subtotal.currencyCode ∧
        taxTotal.currencyCode = subtotal.currencyCode ∧
        grandTotal.currencyCode = subtotal.currencyCode := by
    simp
  unfold balance
  constructor
  · intro h
    split at h
    · cases h
    rename_i hcurrency
    obtain ⟨sum, hsum, h⟩ := bind_ok h
    have hsum := lineSubtotal_eq hsum
    split at h
    · cases h
    rename_i hlines
    obtain ⟨expected, hexpected, h⟩ := bind_ok h
    obtain ⟨rest, hrest, hexpected⟩ := Option.bind_eq_some_iff.mp (orError_ok.mp hexpected)
    obtain ⟨-, rfl⟩ := checkedI64_eq_some.mp hrest
    obtain ⟨-, rfl⟩ := checkedI64_eq_some.mp hexpected
    split at h
    · cases h
    rename_i hbalance
    refine ⟨hany.mp (Bool.eq_false_iff.mpr hcurrency), ?_, ?_, (not_not.mp hbalance).symm⟩
    · have := not_not.mp (not_or.mp hlines).1
      omega
    · have := (not_or.mp hlines).2
      omega
  · rintro ⟨hcurrency, hlines, hdiscount, hbalance⟩
    have hsum : lineSubtotal 0 (lines.map PricedLine.toLine) = .ok subtotal.amountMinor := by
      have hfits : inI64 (0 + sumOf lines) = true := by
        rw [Int.zero_add, ← hlines]
        exact hsubtotal
      rw [lineSubtotal_ok le_rfl hnonneg hfits, Int.zero_add, hlines]
    have hrest : inI64 (subtotal.amountMinor - discountTotal.amountMinor) = true := by
      simp only [inI64, decide_eq_true_eq] at hsubtotal ⊢
      omega
    have hexpected : orError "quote total arithmetic overflowed"
        ((checkedI64 (subtotal.amountMinor - discountTotal.amountMinor)).bind
          fun total => checkedI64 (total + taxTotal.amountMinor)) = .ok grandTotal.amountMinor := by
      rw [orError_ok, checkedI64_eq_some.mpr ⟨hrest, rfl⟩, Option.bind_some, checkedI64_eq_some]
      exact ⟨hbalance ▸ hgrand, hbalance.symm⟩
    rw [if_neg (Bool.eq_false_iff.mp (hany.mpr hcurrency)), hsum]
    show (if _ then _ else _) = _
    rw [if_neg (by omega), hexpected]
    show (if _ then _ else _) = _
    rw [if_neg (not_not.mpr rfl)]
    rfl

/-! ## The response -/

theorem PricedLine.toProto_injective {a b : PricedLine} (h : a.toProto = b.toProto) : a = b := by
  cases a
  cases b
  simp only [PricedLine.toProto, Pricing.QuoteLine.mk.injEq, Option.some.injEq] at h
  obtain ⟨rfl, rfl, rfl, rfl⟩ := h
  rfl

theorem PricedQuote.toProto_injective {a b : PricedQuote} (h : a.toProto = b.toProto) :
    a = b := by
  have hlines : a.lines = b.lines := List.map_injective_iff.mpr
    (fun _ _ h => PricedLine.toProto_injective h) (congrArg QuoteResponse.lines h)
  cases a
  cases b
  simp only [PricedQuote.toProto, QuoteResponse.mk.injEq, Option.some.injEq, true_and] at h
  obtain ⟨rfl, -, rfl, rfl, rfl, rfl, rfl, rfl⟩ := h
  cases hlines
  rfl

/-- What one quote is asked for, each part by itself. -/
structure PricedQuote.Accepted (quote : PricedQuote) : Prop where
  usable : quote.Usable
  balanced : quote.Balanced
  currencies : quote.PartCurrencies

/-- A fact about all amounts is one about the totals and the lines. -/
theorem forall_moneys {quote : PricedQuote} {P : Money → Prop} : (∀ money ∈ quote.moneys, P money) ↔
    (P quote.subtotal ∧ P quote.discountTotal ∧ P quote.taxTotal ∧ P quote.grandTotal) ∧
      ∀ line ∈ quote.lines, P line.unitPrice ∧ P line.lineTotal := by
  unfold PricedQuote.moneys PricedQuote.totals
  rw [List.forall_mem_append]
  refine and_congr (by simp) ⟨fun h line hline => ?_, fun h money hmoney => ?_⟩
  · exact ⟨h _ (List.mem_flatMap.mpr ⟨line, hline, List.mem_cons_self⟩),
      h _ (List.mem_flatMap.mpr ⟨line, hline, List.mem_cons_of_mem _ List.mem_cons_self⟩)⟩
  · obtain ⟨line, hline, hmem⟩ := List.mem_flatMap.mp hmoney
    rcases List.mem_cons.mp hmem with rfl | hmem
    · exact (h line hline).1
    · rw [List.mem_singleton.mp hmem]
      exact (h line hline).2

theorem accepted_of_parts {quote : PricedQuote} (hidentified : trimIsEmpty quote.quoteId = false ∧
      trimIsEmpty quote.pricingVersion = false)
    (hvalidity : 0 < quote.validForSeconds ∧ quote.validForSeconds < 2 ^ 31)
    (hcount : 1 ≤ quote.lines.length ∧ quote.lines.length ≤ 50)
    (hlines : ∀ line ∈ quote.lines, line.Good)
    (htotals : GoodMoney quote.subtotal ∧ GoodMoney quote.discountTotal ∧
      GoodMoney quote.taxTotal ∧ GoodMoney quote.grandTotal)
    (hcurrency : quote.discountTotal.currencyCode = quote.subtotal.currencyCode ∧
      quote.taxTotal.currencyCode = quote.subtotal.currencyCode ∧
      quote.grandTotal.currencyCode = quote.subtotal.currencyCode)
    (hbalance : quote.subtotal.amountMinor = sumOf quote.lines ∧
      quote.discountTotal.amountMinor ≤ quote.subtotal.amountMinor ∧
      quote.grandTotal.amountMinor = quote.subtotal.amountMinor -
        quote.discountTotal.amountMinor + quote.taxTotal.amountMinor) : quote.Accepted := by
  have hgood : ∀ money ∈ quote.moneys, GoodMoney money := forall_moneys.mpr
    ⟨htotals, fun line hline => ⟨(hlines line hline).unitPrice, (hlines line hline).lineTotal⟩⟩
  refine ⟨⟨hidentified, hvalidity, hcount, fun line hline => (hlines line hline).sku,
    fun line hline => (hlines line hline).quantity⟩, ⟨fun money hmoney => (hgood money hmoney).2,
      fun line hline => (hlines line hline).amount, hbalance.1, hbalance.2.1, hbalance.2.2⟩,
    ⟨fun money hmoney => (hgood money hmoney).1, ?_, fun line hline => (hlines line hline).currency⟩⟩
  unfold PricedQuote.totals
  simpa using hcurrency

/-- The storefront takes a quote whose parts are each in order. -/
theorem tryFromProto_ok_iff (wire : WireQuote) (quote : Quote) :
    tryFromProto wire.response = .ok quote ↔ ∃ priced : PricedQuote,
      priced.toProto = wire.response ∧ priced.toQuote = quote ∧ priced.Accepted := by
  obtain ⟨value, hfits, hlinesFit, -⟩ := wire
  show tryFromProto value = .ok quote ↔ _
  unfold tryFromProto
  constructor
  · intro h
    split at h
    · cases h
    split at h
    · cases h
    split at h
    · cases h
    split at h
    · cases h
    split at h
    · cases h
    rename_i hstatus hidentity hvalidity hcount
    obtain ⟨lines, hlines, h⟩ := bind_ok h
    obtain ⟨subtotal, hsubtotal, h⟩ := bind_ok h
    obtain ⟨discountTotal, hdiscountTotal, h⟩ := bind_ok h
    obtain ⟨taxTotal, htaxTotal, h⟩ := bind_ok h
    obtain ⟨grandTotal, hgrandTotal, h⟩ := bind_ok h
    obtain ⟨_, hbalance, h⟩ := bind_ok h
    obtain ⟨validity, hseconds, h⟩ := bind_ok h
    cases h
    obtain ⟨hsmall, rfl⟩ := tryI32_ok.mp hseconds
    obtain ⟨priced, hproto, rfl, hgood⟩ := linesTryFromProto_ok.mp hlines
    obtain ⟨hsubtotal, hgood₁⟩ := requiredMoney_ok.mp hsubtotal
    obtain ⟨hdiscountTotal, hgood₂⟩ := requiredMoney_ok.mp hdiscountTotal
    obtain ⟨htaxTotal, hgood₃⟩ := requiredMoney_ok.mp htaxTotal
    obtain ⟨hgrandTotal, hgood₄⟩ := requiredMoney_ok.mp hgrandTotal
    obtain ⟨hcurrency, hamounts⟩ := (balance_ok (fun line hline => (hgood line hline).lineTotal.2)
      ⟨hgood₁.2, hgood₂.2⟩ (hfits _ (by simp [hsubtotal])) (hfits _ (by simp [hgrandTotal]))).mp
        hbalance
    simp only [Bool.or_eq_true, not_or, Bool.not_eq_true, List.isEmpty_eq_false_iff,
      decide_eq_false_iff_not, Nat.not_lt] at hidentity hcount
    refine ⟨⟨value.quoteId, priced, subtotal, discountTotal, taxTotal, grandTotal,
      value.validForSeconds, value.pricingVersion⟩, ?_, rfl, accepted_of_parts hidentity
        ⟨Nat.pos_of_ne_zero hvalidity, hsmall⟩ ?_ hgood ⟨hgood₁, hgood₂, hgood₃, hgood₄⟩ hcurrency
          hamounts⟩
    · unfold PricedQuote.toProto
      simp only [hproto, ← hsubtotal, ← hdiscountTotal, ← htaxTotal, ← hgrandTotal,
        ← not_not.mp hstatus]
    · have hlength := congrArg List.length hproto
      rw [List.length_map] at hlength
      exact ⟨hlength ▸ List.length_pos_iff.mpr hcount.1, hlength ▸ hcount.2⟩
  · rintro ⟨priced, hvalue, rfl, husable, hbalanced, hcurrencies⟩
    subst hvalue
    have hmoney : ∀ money ∈ priced.moneys, GoodMoney money := fun money hmem =>
      ⟨hcurrencies.codes money hmem, hbalanced.nonneg money hmem⟩
    obtain ⟨⟨hgood₁, hgood₂, hgood₃, hgood₄⟩, hgoodLines⟩ := forall_moneys.mp hmoney
    have hgood : ∀ line ∈ priced.lines, line.Good := fun line hline =>
      ⟨husable.skus line hline, husable.quantities line hline, (hgoodLines line hline).1,
        (hgoodLines line hline).2, hcurrencies.lines line hline, hbalanced.lineTotal line hline,
        (hlinesFit _ (List.mem_map_of_mem hline)).2 _
          (List.mem_cons_of_mem _ List.mem_cons_self)⟩
    have hidentity : ¬ (trimIsEmpty priced.toProto.quoteId ||
        trimIsEmpty priced.toProto.pricingVersion) = true := by
      rw [Bool.not_eq_true, Bool.or_eq_false_iff]
      exact husable.identified
    have hcount : ¬ (priced.toProto.lines.isEmpty ||
        decide (50 < priced.toProto.lines.length)) = true := by
      have hlength : priced.toProto.lines.length = priced.lines.length := List.length_map _
      rw [Bool.not_eq_true, Bool.or_eq_false_iff, decide_eq_false_iff_not, hlength,
        List.isEmpty_eq_false_iff, ← List.length_pos_iff, hlength]
      exact ⟨husable.lines.1, Nat.not_lt.mpr husable.lines.2⟩
    have hlines : priced.toProto.lines.mapM lineTryFromProto =
        .ok (priced.lines.map PricedLine.toLine) :=
      linesTryFromProto_ok.mpr ⟨priced.lines, rfl, rfl, hgood⟩
    have hcurrency : priced.discountTotal.currencyCode = priced.subtotal.currencyCode ∧
        priced.taxTotal.currencyCode = priced.subtotal.currencyCode ∧
        priced.grandTotal.currencyCode = priced.subtotal.currencyCode := by
      simpa [PricedQuote.totals] using hcurrencies.totals
    have hbalance := (balance_ok (fun line hline => (hgood line hline).lineTotal.2)
      ⟨hgood₁.2, hgood₂.2⟩ (hfits priced.subtotal (by simp [PricedQuote.toProto]))
      (hfits priced.grandTotal (by simp [PricedQuote.toProto]))).mpr
        ⟨hcurrency, hbalanced.subtotal, hbalanced.discount, hbalanced.grandTotal⟩
    have hvalidity : ¬ priced.toProto.validForSeconds = 0 := Nat.ne_of_gt husable.validity.1
    have hseconds : tryI32 priced.toProto.validForSeconds "quote validity exceeds GraphQL Int" =
        .ok priced.validForSeconds := tryI32_ok.mpr ⟨husable.validity.2, rfl⟩
    have hsubtotal : requiredMoney priced.toProto.subtotal "subtotal" = .ok priced.subtotal :=
      requiredMoney_ok.mpr ⟨rfl, hgood₁⟩
    have hdiscount : requiredMoney priced.toProto.discountTotal "discount_total" =
        .ok priced.discountTotal := requiredMoney_ok.mpr ⟨rfl, hgood₂⟩
    have htax : requiredMoney priced.toProto.taxTotal "tax_total" = .ok priced.taxTotal :=
      requiredMoney_ok.mpr ⟨rfl, hgood₃⟩
    have hgrand : requiredMoney priced.toProto.grandTotal "grand_total" =
        .ok priced.grandTotal := requiredMoney_ok.mpr ⟨rfl, hgood₄⟩
    have hready : ¬ priced.toProto.status ≠ .ready := not_not.mpr rfl
    have hother : ¬ priced.toProto.status = .other := by
      rw [not_not.mp hready]
      decide
    rw [if_neg hother, if_neg hready, if_neg hidentity, if_neg hvalidity, if_neg hcount, hlines,
      hsubtotal, hdiscount, htax, hgrand]
    show (balance _ _ _ _ _ >>= _) = _
    rw [hbalance, hseconds]
    rfl

/-! ## One currency -/

theorem oneCurrency_of_lines {quote : PricedQuote} (hcurrencies : quote.PartCurrencies)
    (hlines : ∀ line ∈ quote.lines, line.unitPrice.currencyCode = quote.subtotal.currencyCode) :
    quote.OneCurrency := by
  have hsubtotal : quote.subtotal ∈ quote.moneys := List.mem_append_left _ List.mem_cons_self
  refine ⟨quote.subtotal.currencyCode, hcurrencies.codes _ hsubtotal, forall_moneys.mpr ⟨?_, ?_⟩⟩
  · simpa [PricedQuote.totals] using hcurrencies.totals
  · intro line hline
    exact ⟨hlines line hline, hcurrencies.lines line hline ▸ hlines line hline⟩

theorem partCurrencies_of_oneCurrency {quote : PricedQuote} (h : quote.OneCurrency) :
    quote.PartCurrencies := by
  obtain ⟨currency, hcurrency, hall⟩ := h
  obtain ⟨⟨hsubtotal, htotals⟩, hlines⟩ := forall_moneys.mp hall
  refine ⟨fun money hmoney => hall money hmoney ▸ hcurrency, fun money hmoney => ?_,
    fun line hline => (hlines line hline).1.trans (hlines line hline).2.symm⟩
  rw [hall money (List.mem_append_left _ hmoney), hsubtotal]

/-- Each line is only compared with itself: the storefront takes exactly the consistent
quotes if and only if no quote that is otherwise in order has a line in a currency other than
that of its totals. -/
theorem quote_consistent_iff (wire : WireQuote) :
    ((∀ quote, tryFromProto wire.response = .ok quote → ∃ priced : PricedQuote,
        priced.toProto = wire.response ∧ priced.toQuote = quote ∧ priced.Balanced ∧
          priced.OneCurrency) ∧
      ∀ priced : PricedQuote, priced.toProto = wire.response → priced.Usable → priced.Balanced →
        priced.OneCurrency → tryFromProto wire.response = .ok priced.toQuote) ↔
      ∀ priced : PricedQuote, priced.toProto = wire.response → priced.Accepted →
        ∀ line ∈ priced.lines, line.unitPrice.currencyCode = priced.subtotal.currencyCode := by
  constructor
  · rintro ⟨hconsistent, -⟩ priced hproto haccepted line hline
    obtain ⟨other, hother, -, -, currency, -, hall⟩ :=
      hconsistent _ ((tryFromProto_ok_iff wire _).mpr ⟨priced, hproto, rfl, haccepted⟩)
    obtain rfl := PricedQuote.toProto_injective (hother.trans hproto.symm)
    obtain ⟨⟨hsubtotal, -⟩, hlines⟩ := forall_moneys.mp hall
    rw [(hlines line hline).1, hsubtotal]
  · intro hlines
    constructor
    · intro quote hquote
      obtain ⟨priced, hproto, rfl, haccepted⟩ := (tryFromProto_ok_iff wire quote).mp hquote
      exact ⟨priced, hproto, rfl, haccepted.balanced,
        oneCurrency_of_lines haccepted.currencies (hlines priced hproto haccepted)⟩
    · intro priced hproto husable hbalanced hcurrency
      exact (tryFromProto_ok_iff wire _).mpr
        ⟨priced, hproto, rfl, husable, hbalanced, partCurrencies_of_oneCurrency hcurrency⟩

/-- One line of five euros in a quote of five dollars. -/
def mixedQuote : PricedQuote where
  quoteId := "q-1".toList
  lines := [⟨"S-1".toList, 1, ⟨"EUR".toList, 500⟩, ⟨"EUR".toList, 500⟩⟩]
  subtotal := ⟨"USD".toList, 500⟩
  discountTotal := ⟨"USD".toList, 0⟩
  taxTotal := ⟨"USD".toList, 0⟩
  grandTotal := ⟨"USD".toList, 500⟩
  validForSeconds := 300
  pricingVersion := "v1".toList

/-- `mixedQuote` is taken, and its amounts are in two currencies. -/
theorem mixed_quote_accepted : tryFromProto mixedQuote.toProto = .ok mixedQuote.toQuote ∧
    ¬ mixedQuote.OneCurrency := by
  constructor
  · decide
  · rintro ⟨currency, -, hall⟩
    obtain ⟨⟨hsubtotal, -⟩, hlines⟩ := forall_moneys.mp hall
    have hline := (hlines _ List.mem_cons_self).1
    exact absurd (hline.trans hsubtotal.symm) (by decide)

end Storefront

end CommercePlayground.Boundary
