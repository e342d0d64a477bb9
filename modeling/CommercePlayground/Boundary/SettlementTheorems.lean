/-
CommercePlayground.Boundary.SettlementTheorems — which payments that payment agreed to
authorize it also agrees to settle and to undo.

All ids share the id of the checkout. The words for capture and void are shorter than
the one for authorize; the word for refund is followed by the amount, which makes it
longer once the amount has three digits.
-/
import CommercePlayground.Boundary.PaymentTheorems
import CommercePlayground.Boundary.Settlement

namespace CommercePlayground.Boundary

open Lib Pricing

/-! ## Lengths -/

/-- An id with a word appended is refused for its length only. -/
theorem requireRequestId_append {requestId suffix : Text} (hblank : isBlank suffix = false) :
    requireRequestId (requestId ++ suffix) = .ok () ↔
      (utf16 requestId).length + (utf16 suffix).length ≤ 128 := by
  unfold requireRequestId
  rw [requireText_iff, utf16_length_append]
  exact ⟨fun h => h.2, fun h => ⟨isBlank_append hblank, h⟩⟩

theorem utf16_length_decimal (n : Nat) : (utf16 (decimal n)).length = (decimal n).length := by
  have hascii : Ascii (decimal n) := by
    intro c hc
    have := decimal_isDigit hc
    omega
  rw [utf16_of_ascii hascii, codes, List.length_map]

theorem displayInt_of_nonneg {a : Int} (h : 0 ≤ a) : displayInt a = decimal a.toNat := by
  obtain ⟨n, rfl⟩ := Int.eq_ofNat_of_zero_le h
  rfl

/-- A larger amount has no fewer digits. -/
theorem decimal_length_mono {m n : Nat} (h : m ≤ n) : (decimal m).length ≤ (decimal n).length := by
  have hpos : 0 < (decimal n).length := Nat.length_toDigits_pos
  unfold decimal at hpos ⊢
  rw [Nat.length_toDigits_le_iff (by decide) hpos]
  exact Nat.lt_of_le_of_lt h ((Nat.length_toDigits_le_iff (by decide) hpos).mp (Nat.le_refl _))

theorem requireRequestId_authorize {requestId : Text} :
    requireRequestId (authorizeRequestId requestId) = .ok () ↔
      (utf16 requestId).length + 10 ≤ 128 :=
  requireRequestId_append (by decide)

theorem requireRequestId_capture {requestId : Text} :
    requireRequestId (captureRequestId requestId) = .ok () ↔
      (utf16 requestId).length + 8 ≤ 128 :=
  requireRequestId_append (by decide)

theorem requireRequestId_void {requestId : Text} :
    requireRequestId (voidRequestId requestId) = .ok () ↔ (utf16 requestId).length + 5 ≤ 128 :=
  requireRequestId_append (by decide)

theorem requireRequestId_refund {requestId : Text} {amount : Int} (h : 0 ≤ amount) :
    requireRequestId (refundRequestId requestId amount) = .ok () ↔
      (utf16 requestId).length + 8 + (decimal amount.toNat).length ≤ 128 := by
  have hblank : isBlank (":refund:".toList ++ displayInt amount) = false := by
    have hword : isBlank ":refund:".toList = false := by decide
    unfold isBlank at hword ⊢
    rw [List.all_append, hword, Bool.false_and]
  have hword : (utf16 ":refund:".toList).length = 8 := by decide
  unfold refundRequestId
  rw [List.append_assoc, requireRequestId_append hblank, utf16_length_append, hword,
    displayInt_of_nonneg h, utf16_length_decimal]
  omega

/-! ## Requests -/

section
variable {order : PendingOrder} {requestId token method paymentId : Text}
  (hauthorized : validateAuthorize (authorizeRequest order requestId token method) = .ok ())
  (hpayment : requireText paymentId "payment_id" 128 = .ok ())

include hauthorized hpayment

/-- Of a refund within the total only the id can be refused. -/
theorem validateRefund_iff {amount : Int} (hpos : 0 < amount) (hle : amount ≤ order.totalMinor) :
    validateRefund (refundRequest order paymentId requestId amount) = .ok () ↔
      requireRequestId (refundRequestId requestId amount) = .ok () := by
  unfold validateAuthorize at hauthorized
  rw [payment_seq_ok, payment_seq_ok, payment_seq_ok, payment_seq_ok] at hauthorized
  obtain ⟨-, htenant, -, hmoney, -⟩ := hauthorized
  have hrefund : requireMoney ⟨order.currency, amount⟩ "amount" = .ok () := by
    unfold requireMoney at hmoney ⊢
    rw [payment_seq_ok] at hmoney ⊢
    refine ⟨hmoney.1, ?_⟩
    obtain ⟨-, hrest⟩ := hmoney
    split at hrest
    · cases hrest
    split at hrest
    · cases hrest
    rename_i hcurrency hamount
    dsimp only [authorizeRequest] at hcurrency hamount
    dsimp only
    rw [if_neg hcurrency, if_neg (by omega)]
    rfl
  unfold validateRefund
  rw [payment_seq_ok, payment_seq_ok, payment_seq_ok, payment_seq_ok]
  exact ⟨fun h => h.1, fun h => ⟨h, htenant, hpayment, hrefund, rfl⟩⟩

end

/-! ## Settling and undoing -/

/-- What can be authorized can be settled and undone exactly when the id of the checkout
leaves room for the word of a refund and for the digits of the whole amount. -/
theorem settlement_accepted_iff (requestId : Text) (amount : Int) (hpos : 1 ≤ amount)
    (hmax : amount ≤ 2 ^ 31 - 1)
    (hauthorized : requireRequestId (authorizeRequestId requestId) = .ok ()) :
    (requireRequestId (captureRequestId requestId) = .ok () ∧
      requireRequestId (voidRequestId requestId) = .ok () ∧
      ∀ refund : Int, 1 ≤ refund → refund ≤ amount →
        requireRequestId (refundRequestId requestId refund) = .ok ()) ↔
      (utf16 requestId).length + (decimal amount.toNat).length ≤ 120 := by
  rw [requireRequestId_authorize] at hauthorized
  constructor
  · rintro ⟨-, -, hrefund⟩
    have := (requireRequestId_refund (by omega)).mp (hrefund amount hpos (le_refl amount))
    omega
  · intro hlength
    refine ⟨requireRequestId_capture.mpr (by omega), requireRequestId_void.mpr (by omega), ?_⟩
    intro refund hfirst hlast
    have hmono : (decimal refund.toNat).length ≤ (decimal amount.toNat).length := by
      apply decimal_length_mono
      omega
    exact (requireRequestId_refund (by omega)).mpr (by omega)

/-- An id of 118 letters may be authorized, and a refund of 1.00 is refused. -/
theorem refund_id_refused : ¬ ∀ (requestId : Text) (amount : Int), 1 ≤ amount →
    amount ≤ 2 ^ 31 - 1 → requireRequestId (authorizeRequestId requestId) = .ok () →
    requireRequestId (captureRequestId requestId) = .ok () ∧
      requireRequestId (voidRequestId requestId) = .ok () ∧
      ∀ refund : Int, 1 ≤ refund → refund ≤ amount →
        requireRequestId (refundRequestId requestId refund) = .ok () := by
  intro h
  have hrefund := (h (List.replicate 118 'r') 100 (by decide) (by decide) (by decide +kernel)).2.2
    100 (by decide) (by decide)
  have hrefused : requireRequestId (refundRequestId (List.replicate 118 'r') 100) =
      .error ⟨.unspecified, "request_id exceeds maximum length"⟩ := by
    decide +kernel
  rw [hrefused] at hrefund
  cases hrefund

theorem settlement_accepted_sample :
    requireRequestId (refundRequestId "request-1".toList 2147483647) = .ok () :=
  ((settlement_accepted_iff "request-1".toList 2147483647 (by decide) (by decide)
    (by decide)).mpr (by decide)).2.2 2147483647 (by decide) (by decide)

end CommercePlayground.Boundary
