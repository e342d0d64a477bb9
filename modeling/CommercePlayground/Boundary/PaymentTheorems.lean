/-
CommercePlayground.Boundary.PaymentTheorems — when payment accepts the
authorization of an accepted checkout.

Almost everything the validator asks, checkout has already asked in stronger
terms: a text that Rust bounds in bytes is no longer in UTF-16 units, and one
that is not blank in Rust and has no control characters is not blank in Java.
What is left is the suffix of the request id and the amount.
-/
import CommercePlayground.Boundary.InventoryTheorems
import CommercePlayground.Boundary.Payment

namespace CommercePlayground.Boundary

open Lib Pricing

/-! ## Texts -/

theorem payment_seq_ok {x y : PaymentCheck} :
    (x >>= fun _ => y) = .ok () ↔ x = .ok () ∧ y = .ok () := by
  cases x with
  | error e =>
    constructor
    · intro h
      cases h
    · intro h
      cases h.1
  | ok u => exact ⟨fun h => ⟨rfl, h⟩, fun h => h.2⟩

theorem requireText_iff {value : Text} {field : String} {maxLength : Nat} :
    requireText value field maxLength = .ok () ↔
      isBlank value = false ∧ (utf16 value).length ≤ maxLength := by
  unfold requireText
  split
  · rename_i hblank
    constructor
    · intro h
      cases h
    · intro h
      rw [hblank] at h
      cases h.1
  · rename_i hblank
    split
    · constructor
      · intro h
        cases h
      · intro h
        omega
    · exact ⟨fun _ => ⟨by simpa using hblank, by omega⟩, fun _ => rfl⟩

/-- What checkout takes as an identifier is a text of at most 128 units for Java. -/
theorem requireText_of_bounded {value : Text} {field : String} {maxLength : Nat}
    (h : boundedIdentifier value = true) (hle : 128 ≤ maxLength) :
    requireText value field maxLength = .ok () := by
  simp only [boundedIdentifier, Bool.and_eq_true, decide_eq_true_eq, Bool.not_eq_true'] at h
  obtain ⟨⟨hblank, hlen⟩, hcontrol⟩ := h
  have hunits := (utf16_length_le value).trans hlen
  exact requireText_iff.mpr ⟨not_isBlank hblank hcontrol, hunits.trans hle⟩

theorem isBlank_append {a b : Text} (h : isBlank b = false) : isBlank (a ++ b) = false := by
  unfold isBlank at h ⊢
  rw [List.all_append, h, Bool.and_false]

theorem requireText_requestId {requestId : Text} :
    requireText (requestId ++ ":authorize".toList) "request_id" 128 = .ok () ↔
      (utf16 requestId).length ≤ 118 := by
  have hsuffix : (utf16 ":authorize".toList).length = 10 := by decide
  have hblank : isBlank ":authorize".toList = false := by decide
  rw [requireText_iff, utf16_length_append, hsuffix]
  constructor
  · rintro ⟨-, hlen⟩
    omega
  · intro hlen
    exact ⟨isBlank_append hblank, by omega⟩

theorem requireText_orderId (uuid : Uuid) (field : String) :
    requireText (orderId uuid) field 256 = .ok () := by
  have hlen := utf16_length_le (orderId uuid)
  rw [orderId_length] at hlen
  refine requireText_iff.mpr ⟨?_, by omega⟩
  unfold isBlank orderId
  rw [List.all_append]
  have : "order-".toList.all isJavaWhitespace = false := by rfl
  rw [this, Bool.false_and]

/-! ## Money -/

/-- Both services read a currency code the same way. -/
theorem isCurrency_of_code {code : Text} (h : isCurrencyCode code = true) :
    isCurrency code = true := by
  simp only [isCurrencyCode, ne_eq, Bool.not_or, Bool.and_eq_true, Bool.not_eq_eq_eq_not,
    Bool.not_true, decide_eq_false_iff_not, not_not, Bool.not_false] at h
  obtain ⟨⟨hlen, hupper⟩, hletters⟩ := h
  have hascii : Ascii code := by
    refine ascii_of_utf8 fun n hn => ?_
    have := List.all_eq_true.mp hletters n hn
    simp only [isAsciiAlphabetic, Bool.or_eq_true, decide_eq_true_eq] at this
    omega
  rw [utf8_of_ascii hascii] at hlen hletters
  unfold isCurrency
  rw [utf16_of_ascii hascii, hlen, decide_eq_true rfl, Bool.true_and]
  refine List.all_eq_true.mpr fun n hn => ?_
  obtain ⟨c, hc, rfl⟩ := List.mem_map.mp hn
  have hletter := List.all_eq_true.mp hletters _ hn
  have hnot := not_lowercase hupper hc
  simp only [isAsciiAlphabetic, Bool.or_eq_true, decide_eq_true_eq] at hletter
  rw [decide_eq_true_eq]
  omega

theorem requireText_currency {code : Text} {field : String} (h : isCurrency code = true) :
    requireText code field 3 = .ok () := by
  unfold isCurrency at h
  rw [Bool.and_eq_true, decide_eq_true_eq] at h
  obtain ⟨hlen, hletters⟩ := h
  have hascii : Ascii code := by
    refine ascii_of_utf16 fun n hn => ?_
    have := of_decide_eq_true (List.all_eq_true.mp hletters n hn)
    omega
  refine requireText_iff.mpr ⟨?_, by omega⟩
  cases code with
  | nil => cases hlen
  | cons c code =>
    rw [utf16_of_ascii hascii] at hletters
    have hc := of_decide_eq_true (List.all_eq_true.mp hletters c.toNat List.mem_cons_self)
    have hspace : isJavaWhitespace c = false := by
      simp only [isJavaWhitespace, Bool.or_eq_false_iff, decide_eq_false_iff_not]
      omega
    rw [isBlank, List.all_cons, hspace, Bool.false_and]

theorem requireMoney_iff {money : Money} {field : String}
    (hcurrency : isCurrency money.currencyCode = true) (hrange : money.amountMinor < 2 ^ 31) :
    requireMoney money field = .ok () ↔ 0 < money.amountMinor := by
  unfold requireMoney maxAmountMinor
  rw [requireText_currency hcurrency, hcurrency]
  show (if money.amountMinor ≤ 0 ∨ _ then _ else _) = _ ↔ _
  split
  · constructor
    · intro h
      cases h
    · intro h
      omega
  · exact ⟨fun _ => by omega, fun _ => rfl⟩

/-! ## Methods -/

theorem paymentMethodType_known (method : Text) :
    ¬ (paymentMethodType method = .unspecified ∨ paymentMethodType method = .unrecognized) := by
  unfold paymentMethodType
  simp only
  split
  · simp
  · split
    · simp
    · simp

theorem credentials_bounded {input : CheckoutInput} {token method : Text}
    (h : requirePaymentCredentials input = .ok (token, method)) :
    boundedIdentifier token = true := by
  unfold requirePaymentCredentials at h
  split at h
  · cases h
  · split at h
    · cases h
    · rename_i hbounded
      split at h
      · cases h
      · split at h
        · cases h
          simpa using hbounded
        · cases h

/-! ## Acceptance -/

section
variable {catalogue : Catalogue} {uuid : Uuid} {input : CheckoutInput} {quote : QuoteResponse}
  {order : PendingOrder}

theorem total_pos_iff (h : OrderSpec catalogue uuid input quote order) :
    0 < order.totalMinor ↔
      ∃ total, quote.grandTotal = some total ∧ 0 < total.amountMinor := by
  have htotal := h.total
  unfold quoteMoney at htotal
  split at htotal
  · cases htotal
  · rename_i total hsome
    split at htotal
    · cases htotal
    · split at htotal
      · cases htotal
      · rw [← Except.ok.inj htotal, hsome]
        simp

/-- The request of an order, in the order of the checks. -/
theorem validateAuthorize_iff (h : OrderSpec catalogue uuid input quote order)
    {requestId token method : Text} (htoken : boundedIdentifier token = true) :
    validateAuthorize (authorizeRequest order requestId token method) = .ok () ↔
      (utf16 requestId).length ≤ 118 ∧ 0 < order.totalMinor := by
  have hvalid := validateInput_ok h.valid
  have htenant : requireText order.tenantId "tenant_id" 128 = .ok () := by
    rw [h.tenantId]
    exact requireText_of_bounded hvalid.tenantId (le_refl 128)
  have hreference : requireText order.id "merchant_reference" 256 = .ok () := by
    rw [h.id]
    exact requireText_orderId uuid _
  have hmoney : requireMoney ⟨order.currency, order.totalMinor⟩ "amount" = .ok () ↔
      0 < order.totalMinor := by
    refine requireMoney_iff ?_ h.amounts.2.2.2.2
    rw [h.currency]
    exact isCurrency_of_code hvalid.currency
  have hmethod : requireMethod (paymentMethodType method) token = .ok () := by
    unfold requireMethod
    rw [if_neg (paymentMethodType_known method)]
    exact requireText_of_bounded htoken (by decide)
  unfold validateAuthorize
  rw [payment_seq_ok, payment_seq_ok, payment_seq_ok, payment_seq_ok]
  constructor
  · rintro ⟨hrequest, -, -, hamount, -⟩
    exact ⟨requireText_requestId.mp hrequest, hmoney.mp hamount⟩
  · rintro ⟨hrequest, hamount⟩
    exact ⟨requireText_requestId.mpr hrequest, htenant, hreference, hmoney.mpr hamount, hmethod⟩

end

def longCheckout : CheckoutInput := sampleCheckout (String.ofList (List.replicate 119 'r'))

end CommercePlayground.Boundary
