/-
CommercePlayground.Boundary.EventPaymentTheorems — when the payment checks of
a parsed event dereference an absent component.

The currency is the only component they dereference. `fromRoot` requires it of
payment events and leaves it absent in others, and an order event that passes
every check before the currency's is then lost to a null pointer.

* `validatePayment_classified_iff`: the parsed events whose checks end in a
  classified outcome.
-/
import CommercePlayground.Boundary.EventPayment
import CommercePlayground.Boundary.RoundTripTheorems

namespace CommercePlayground.Boundary

open Lib

/-! ## Null pointers -/

theorem bind_nullPointer {α β : Type} {x : Processed α} {f : α → Processed β} :
    (x >>= f) = .error .nullPointer ↔
      x = .error .nullPointer ∨ ∃ a, x = .ok a ∧ f a = .error .nullPointer := by
  cases x with
  | ok a =>
    show f a = _ ↔ _
    simp
  | error e =>
    show Except.error e = _ ↔ _
    simp

@[simp] theorem throwIf_ok {condition : Bool} {failure : EventFailure} :
    throwIf condition failure = .ok () ↔ condition = false := by
  cases condition <;> simp [throwIf]

@[simp] theorem throwIf_permanent {condition : Bool} {message : String} :
    throwIf condition (.permanent message) ≠ .error .nullPointer := by
  cases condition <;> simp [throwIf]

@[simp] theorem throwIf_retryable {condition : Bool} {message : String} :
    throwIf condition (.retryable message) ≠ .error .nullPointer := by
  cases condition <;> simp [throwIf]

@[simp] theorem ofEvent_ne {α : Type} {r : EventResult α} :
    ofEvent r ≠ .error .nullPointer := by
  cases r <;> simp [ofEvent]

@[simp] theorem ofEvent_ok {α : Type} {r : EventResult α} {a : α} :
    ofEvent r = .ok a ↔ r = .ok a := by
  cases r <;> simp [ofEvent]

variable {instants : InstantFormat} {event : CommerceEvent instants} {order : OrderSnapshot}
  {payment : PaymentSnapshot}

/-! ## The checks one by one -/

theorem checkOwnership_ne : checkOwnership event order payment ≠ .error .nullPointer := by
  unfold checkOwnership
  simp [bind_nullPointer]

theorem checkPaidAmount_ne : checkPaidAmount order payment ≠ .error .nullPointer :=
  throwIf_permanent

theorem checkSettled_ne : checkSettled event order payment ≠ .error .nullPointer :=
  throwIf_retryable

theorem checkEventTotal_ne : checkEventTotal event order ≠ .error .nullPointer := by
  unfold checkEventTotal
  simp [bind_nullPointer]

/-- The currency is the one component that is dereferenced. -/
theorem checkEventCurrency_nullPointer :
    checkEventCurrency event order = .error .nullPointer ↔ event.currency = none := by
  unfold checkEventCurrency
  cases event.currency with
  | none => simp [bind_nullPointer, dereference]
  | some currency =>
    simp only [bind_nullPointer, dereference]
    split <;> simp

theorem requiredStatus_ne : requiredStatus event ≠ .error .nullPointer := by
  unfold requiredStatus
  intro h
  split_ifs at h
  cases h

theorem checkPaymentState_ne : checkPaymentState event order payment ≠ .error .nullPointer := by
  unfold checkPaymentState
  split
  · simp [bind_nullPointer, requiredStatus_ne]
  · exact throwIf_retryable

/-! ## The checks together -/

/-- The checks before the currency's let the event pass. -/
structure Passes (event : CommerceEvent instants) (order : OrderSnapshot)
    (payment : PaymentSnapshot) : Prop where
  ownership : checkOwnership event order payment = .ok ()
  amount : checkPaidAmount order payment = .ok ()
  settled : checkSettled event order payment = .ok ()
  total : checkEventTotal event order = .ok ()

theorem validatePayment_nullPointer :
    validatePayment event order payment = .error .nullPointer ↔
      Passes event order payment ∧ event.currency = none := by
  unfold validatePayment
  simp only [bind_nullPointer, checkOwnership_ne, checkPaidAmount_ne, checkSettled_ne,
    checkEventTotal_ne, checkEventCurrency_nullPointer, checkPaymentState_ne, false_or, and_false,
    exists_false, or_false]
  constructor
  · rintro ⟨u₁, h₁, u₂, h₂, u₃, h₃, u₄, h₄, hnone⟩
    exact ⟨⟨h₁, h₂, h₃, h₄⟩, hnone⟩
  · rintro ⟨h, hnone⟩
    exact ⟨(), h.ownership, (), h.amount, (), h.settled, (), h.total, hnone⟩

/-- An order event that some check before the currency's refuses. -/
def RefusedBefore (event : CommerceEvent instants) (order : OrderSnapshot)
    (payment : PaymentSnapshot) : Prop :=
  event.tenantId ≠ payment.tenantId ∨
  event.orderId ≠ payment.orderId ∨ order.id ≠ payment.orderId ∨
  (event.paymentId ≠ .ok none ∧ event.paymentId ≠ .ok (some payment.id)) ∨
  payment.amountMinor ≠ order.totalMinor ∨ payment.currency ≠ order.currency ∨
  (payment.status ≠ "authorized".toList ∧ payment.status ≠ "captured".toList) ∨
  (0 < event.totalMinor ∧ event.totalMinor ≠ order.totalMinor)

/-- The ownership check passes for the payment of the event and the order. -/
theorem checkOwnership_ok : checkOwnership event order payment = .ok () ↔
    event.tenantId = payment.tenantId ∧
      (event.paymentId = .ok none ∨ event.paymentId = .ok (some payment.id)) ∧
      event.orderId = payment.orderId ∧ order.id = payment.orderId := by
  unfold checkOwnership
  constructor
  · intro h
    obtain ⟨u₁, h₁, h⟩ := bind_ok h
    obtain ⟨paymentId, hid, h⟩ := bind_ok h
    obtain ⟨u₂, h₂, h⟩ := bind_ok h
    rw [throwIf_ok] at h₁ h₂ h
    rw [ofEvent_ok] at hid
    refine ⟨by simpa using h₁, ?_, by simpa using h⟩
    cases paymentId with
    | none => exact .inl hid
    | some id =>
      have hsame : id = payment.id := by simpa using h₂
      exact .inr (by rw [hid, hsame])
  · rintro ⟨htenant, hid, horder, hstored⟩
    rcases hid with hid | hid <;>
      simp [htenant, hid, horder, hstored, throwIf, ofEvent, bind, Except.bind]

theorem checkPaidAmount_ok : checkPaidAmount order payment = .ok () ↔
    payment.amountMinor = order.totalMinor ∧ payment.currency = order.currency := by
  unfold checkPaidAmount
  simp

theorem checkSettled_ok (h : event.isPaymentEvent = false) :
    checkSettled event order payment = .ok () ↔
      (payment.status ≠ "authorized".toList → payment.status = "captured".toList) := by
  unfold checkSettled
  rw [throwIf_ok, h]
  simp

theorem checkEventTotal_ok (h : event.isPaymentEvent = false) :
    checkEventTotal event order = .ok () ↔
      (0 < event.totalMinor → event.totalMinor = order.totalMinor) := by
  have hfirst : throwIf (event.isPaymentEvent && event.totalMinor != order.totalMinor)
      (.permanent "payment event amount does not match durable order total") = .ok () := by
    simp [h]
  unfold checkEventTotal
  rw [hfirst]
  show throwIf _ _ = .ok () ↔ _
  rw [throwIf_ok, h]
  simp

/-- An order event passes the checks before the currency's unless one of them
refuses it. -/
theorem passes_iff (h : event.isPaymentEvent = false) :
    Passes event order payment ↔ ¬ RefusedBefore event order payment := by
  unfold RefusedBefore
  push Not
  constructor
  · intro hp
    obtain ⟨htenant, hid, horder, hstored⟩ := checkOwnership_ok.mp hp.ownership
    obtain ⟨hamount, hcurrency⟩ := checkPaidAmount_ok.mp hp.amount
    exact ⟨htenant, horder, hstored, fun hne => hid.resolve_left hne, hamount, hcurrency,
      (checkSettled_ok h).mp hp.settled, (checkEventTotal_ok h).mp hp.total⟩
  · rintro ⟨htenant, horder, hstored, hid, hamount, hcurrency, hsettled, htotal⟩
    refine ⟨checkOwnership_ok.mpr ⟨htenant, ?_, horder, hstored⟩,
      checkPaidAmount_ok.mpr ⟨hamount, hcurrency⟩, (checkSettled_ok h).mpr hsettled,
      (checkEventTotal_ok h).mpr htotal⟩
    by_cases hnone : event.paymentId = .ok none
    · exact .inl hnone
    · exact .inr (hid hnone)

/-! ## Parsed events -/

/-- A parsed payment event has a currency. -/
theorem Decodes.currency_of_payment {root : Members} (h : Decodes root event)
    (hpayment : event.isPaymentEvent = true) : event.currency ≠ none := by
  obtain ⟨ownStatus, status, -, -, -, hcheck⟩ := h.reads.payment
  have hkind : isOneOf paymentEventTypes event.eventType = true := hpayment
  intro hnone
  unfold checkPayment at hcheck
  rw [hnone, if_pos hkind, if_pos (by rfl)] at hcheck
  cases hcheck

/-- The checks of a parsed event dereference its absent currency. -/
theorem validatePayment_nullPointer_iff {root : Members} (h : Decodes root event) :
    validatePayment event order payment = .error .nullPointer ↔
      event.isPaymentEvent = false ∧ event.currency = none ∧
        ¬ RefusedBefore event order payment := by
  rw [validatePayment_nullPointer]
  cases hpayment : event.isPaymentEvent with
  | true =>
    have hcurrency := h.currency_of_payment hpayment
    simp [hcurrency]
  | false =>
    rw [passes_iff hpayment, and_comm]
    simp

/-- The processor meets a null pointer in the checks of the loaded payment. -/
theorem checkEventPayment_nullPointer {payments : List PaymentSnapshot} :
    checkEventPayment event order payments = .error .nullPointer ↔
      (event.isCancellation = false ∨ event.isPaymentEvent = true) ∧
      ∃ p, loadPaymentForEvent event order payments = .ok (some p) ∧
        validatePayment event order p = .error .nullPointer := by
  have hload : loadPaymentForEvent event order payments ≠ .error .nullPointer := by
    unfold loadPaymentForEvent
    intro h
    rcases bind_nullPointer.mp h with hid | ⟨paymentId, -, h⟩
    · exact ofEvent_ne hid
    · cases paymentId with
      | none => cases h
      | some id =>
        dsimp only at h
        split at h <;> cases h
  unfold checkEventPayment
  cases hskip : (!event.isCancellation || event.isPaymentEvent) with
  | false =>
    simp only [Bool.or_eq_false_iff, Bool.not_eq_false'] at hskip
    simp [hskip]
  | true =>
    have hkind : event.isCancellation = false ∨ event.isPaymentEvent = true := by
      simpa using hskip
    rw [if_pos rfl, bind_nullPointer]
    simp only [hload, false_or, hkind, true_and]
    constructor
    · rintro ⟨loaded, hloaded, hnull⟩
      cases loaded with
      | none => cases hnull
      | some p => exact ⟨p, hloaded, hnull⟩
    · rintro ⟨p, hloaded, hnull⟩
      exact ⟨some p, hloaded, hnull⟩

/-- The checks of a parsed event end in a classified outcome exactly when it is
a payment event, or carries a currency, or is refused before the currency is
read; and the processor's do when they are skipped, or do so for the payment
it loads. -/
theorem validatePayment_classified_iff {mapper : ObjectMapper} {body : mapper.Body}
    {headers : List (String × Text)} {messageId : Option Text}
    (hparse : parse mapper instants body headers messageId = .ok event) :
    (∀ payment, validatePayment event order payment ≠ .error .nullPointer ↔
      event.isPaymentEvent = true ∨ event.currency ≠ none ∨
        RefusedBefore event order payment) ∧
    ∀ payments, checkEventPayment event order payments ≠ .error .nullPointer ↔
      event.isCancellation = true ∨ event.isPaymentEvent = true ∨ event.currency ≠ none ∨
        ∀ p, loadPaymentForEvent event order payments = .ok (some p) →
          RefusedBefore event order p := by
  obtain ⟨root, -, hdecodes⟩ := parse_decodes hparse
  constructor
  · intro payment
    rw [Ne, validatePayment_nullPointer_iff hdecodes]
    simp only [not_and_or, not_not, Bool.not_eq_false]
  · intro payments
    simp only [Ne, checkEventPayment_nullPointer, validatePayment_nullPointer_iff hdecodes]
    cases hcancel : event.isCancellation <;> cases hpayment : event.isPaymentEvent <;> simp
    -- left: an event that is neither a payment's nor a cancellation
    constructor
    · intro h
      by_cases hcurrency : event.currency = none
      · exact .inr fun p hp => h p hp hcurrency
      · exact .inl hcurrency
    · rintro (hcurrency | hrefused) p hp hnone
      · exact absurd hnone hcurrency
      · exact hrefused p hp

/-! An `order.created` event with an empty payload. -/

def createdEnvelope (payload : Members) : Json :=
  .object [("event_id", .text "outbox-1".toList), ("event_key", .text "order-1:created".toList),
    ("schema_version", .int 1), ("tenant_id", .text "tenant-acme".toList),
    ("event_type", .text "order.created".toList),
    ("occurred_at", .text "2026-10-01T00:00:00Z".toList),
    ("aggregate_type", .text "order".toList), ("aggregate_id", .text "order-1".toList),
    ("payload", .object payload)]

def createdEvent (currency : Option Text) (payload : Members) : CommerceEvent textInstants where
  eventId := "outbox-1".toList
  eventKey := "order-1:created".toList
  schemaVersion := 1
  tenantId := "tenant-acme".toList
  eventType := "order.created".toList
  occurredAt := sampleInstant "2026-10-01T00:00:00Z" sampleTime_text
  orderId := "order-1".toList
  customerId := none
  currency := currency
  totalMinor := 0
  paymentStatus := []
  payload := payload
  entityType := "order".toList
  entityId := "order-1".toList
  context := []
  sessionId := none

def createdOrder : OrderSnapshot :=
  ⟨"order-1".toList, "tenant-acme".toList, "USD".toList, 1000⟩

/-- The captured payment of the order. -/
def createdPayment : PaymentSnapshot :=
  ⟨"pay_1".toList, "tenant-acme".toList, "order-1".toList, "captured".toList, 1000, "USD".toList⟩

/-- With its currency the event passes. -/
theorem validatePayment_classified_sample :
    validatePayment (createdEvent (some "USD".toList) [("currency", .text "USD".toList)])
      createdOrder createdPayment ≠ .error .nullPointer := by
  have hparse : parse treeMapper textInstants
      (createdEnvelope [("currency", .text "USD".toList)]) [] none =
        .ok (createdEvent (some "USD".toList) [("currency", .text "USD".toList)]) := rfl
  exact ((validatePayment_classified_iff hparse).1 createdPayment).mpr (.inr (.inl nofun))

/-- The event is accepted and asks for fulfillment, and its checks end in a
null pointer. -/
theorem validatePayment_unclassified :
    ¬ ∀ mapper instants body headers messageId event,
      parse mapper instants body headers messageId = .ok event →
      event.isFulfillmentTrigger = true ∨ event.isCancellation = true →
      ∀ order payment, order.tenantId = event.tenantId → order.id = event.orderId →
        payment.tenantId = event.tenantId → payment.orderId = event.orderId →
        validatePayment event order payment ≠ .error .nullPointer := by
  intro h
  exact h treeMapper textInstants (createdEnvelope []) [] none (createdEvent none []) rfl
    (.inl (by decide)) createdOrder createdPayment rfl rfl rfl rfl (by decide)

end CommercePlayground.Boundary
