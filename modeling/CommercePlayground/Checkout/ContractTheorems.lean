/-
CommercePlayground.Checkout.ContractTheorems — the checkout processes keep to
their contract.

One lemma for each function of `Flow` and `Processes`, in their order: what
has to be known before it runs, and what is known when it returns. The
interesting ones are the conclusions a process draws from an answer: a
confirmed compensation settles the payment (`compensatePayment_ensures`), a
successful capture or an exact snapshot means a full capture
(`capturePayment_ensures`, `capturedExactly_captured`), and an observed
finalization means a paid order (`finalizationDurable_ensures`).
-/
import CommercePlayground.Checkout.Contract

namespace CommercePlayground.Checkout

open Lib

variable {K : Set Fact} {α : Type} {P : α → Set Fact → Prop}

/-! ## Effects -/

theorem ensures_tx {t : Tx} {P : t.Result → Set Fact → Prop} (hneeds : t.needs K)
    (h : ∀ a, t.allows a → P a (K ∪ t.learns a)) : Ensures contract (tx t) K P := by
  refine ⟨hneeds, ?_⟩
  intro r hallows a ha
  cases ha
  have hlearns : contract.learns (.tx t) (.ok a) = t.learns a := by
    ext f
    constructor
    · rintro ⟨b, hb, hf⟩
      cases hb
      exact hf
    · exact fun hf => ⟨a, rfl, hf⟩
  exact hlearns ▸ h a (hallows a rfl)

theorem sound_tx {t : Tx} (hneeds : t.needs K) : Sound contract (tx t) K :=
  ensures_tx hneeds fun _ _ => trivial

theorem ensures_call {q : Call} {P : q.Result → Set Fact → Prop} (hneeds : q.needs K)
    (h : ∀ r, q.allows r → P r (K ∪ q.learns r)) : Ensures contract (call q) K P := by
  refine ⟨hneeds, ?_⟩
  intro r hallows a ha
  cases ha
  exact h r hallows

theorem sound_call {q : Call} (hneeds : q.needs K) : Sound contract (call q) K :=
  ensures_call hneeds fun _ _ => trivial

theorem ensures_ofResult {r : ApiResult α} (h : ∀ a, r = .ok a → P a K) :
    Ensures contract (ofResult r) K P := h

theorem sound_ofResult {r : ApiResult α} : Sound contract (ofResult r) K :=
  ensures_ofResult fun _ _ => trivial

theorem ensures_error {e : ApiError} : Ensures contract (ofResult (.error e)) K P := by
  intro a ha
  cases ha

theorem sound_startHeartbeat {fence : CheckoutFence} :
    Sound contract (startHeartbeat fence) K :=
  ⟨trivial, fun _ _ _ _ => trivial⟩

theorem sound_stopHeartbeat : Sound contract stopHeartbeat K :=
  ⟨trivial, fun _ _ _ _ => trivial⟩

/-- The fence around an operation adds nothing to what the operation shows. -/
theorem ensures_withCheckoutFence {fence : CheckoutFence} {operation : Flow α}
    (h : Ensures contract operation K P) (hP : ∀ a L L', L ⊆ L' → P a L → P a L') :
    Ensures contract (withCheckoutFence fence operation) K P := by
  refine Sound.bind (sound_tx trivial) fun _ K₁ h₁ => ?_
  refine Sound.bind sound_startHeartbeat fun _ K₂ h₂ => ?_
  have hop := h.mono (h₁.trans h₂) hP
  refine hop.attempt (fun a K₃ h₃ ha => ?_) fun e K₃ h₃ => ?_
  · refine Sound.bind sound_stopHeartbeat fun _ K₄ h₄ => ?_
    refine Sound.bind (sound_tx trivial) fun _ K₅ h₅ => ?_
    refine ensures_ofResult fun b hb => ?_
    cases hb
    exact hP a K₃ K₅ (h₄.trans h₅) ha
  · refine Sound.bind sound_stopHeartbeat fun _ K₄ h₄ => ?_
    refine Sound.bind (sound_tx trivial) fun _ K₅ h₅ => ?_
    exact ensures_error

theorem sound_withCheckoutFence {fence : CheckoutFence} {operation : Flow α}
    (h : Sound contract operation K) : Sound contract (withCheckoutFence fence operation) K :=
  ensures_withCheckoutFence h fun _ _ _ _ _ => trivial

/-! ## What a process works on -/

/-- A process works on the order of a request under a fence of the request. -/
structure Working (K : Set Fact) (order : PendingOrder) (fence : CheckoutFence)
    (requestId : RequestId) : Prop where
  known : Known K order requestId
  tenant : fence.generation.tenantId = order.tenantId
  request : fence.generation.requestId = requestId
  issued : .issued fence.generation.token ∈ K

variable {K' : Set Fact} {order : PendingOrder} {fence : CheckoutFence}
  {requestId : RequestId} {paymentId : PaymentId}

theorem Working.mono (h : Working K order fence requestId) (hK : K ⊆ K') :
    Working K' order fence requestId :=
  ⟨h.known.mono hK, h.tenant, h.request, hK h.issued⟩

/-- What a snapshot shows for good. -/
structure Observed (order : PendingOrder) (paymentId : PaymentId) (s : PaymentSnapshot)
    (K : Set Fact) : Prop where
  settled : paymentCompensationConfirmed s = true → .settled paymentId ∈ K
  captured : capturedExactly order s = true → .captured paymentId ∈ K

theorem Observed.mono {s : PaymentSnapshot} (h : Observed order paymentId s K)
    (hK : K ⊆ K') : Observed order paymentId s K' :=
  ⟨fun hs => hK (h.settled hs), fun hs => hK (h.captured hs)⟩

/-! ## Payment operations -/

theorem authorization_paymentId {response : OperationResponse} {a : PaymentAuthorization}
    (h : authorization response = .ok a) : a.paymentId = response.payment.paymentId := by
  unfold authorization at h
  split at h
  · cases h
    rfl
  · cases h
    rfl
  · cases h
  · cases h

theorem paymentResponse_ok {operation : String} {response : OperationResponse}
    {reply : Except PaymentRpcException OperationResponse}
    (h : paymentResponse operation reply = .ok response) : reply = .ok response := by
  cases reply with
  | error status => cases h
  | ok r =>
    cases h
    rfl

/-- What the response of the payment service shows. -/
theorem ensures_payment {q : PaymentStore.Request} (hneeds : paymentNeeds q K) :
    Ensures contract (call (.payment q)) K
      fun (reply : Except PaymentRpcException OperationResponse) K' =>
        ∀ response, reply = .ok response →
          (PaymentStore.operationOf q.message = .authorize →
            response.payment.paymentId = ⟨q.tenantId, q.requestId⟩) ∧
          ∀ p amount, q.message = .capture p amount →
            response.operationStatus = .succeeded → .captured p ∈ K' := by
  refine ensures_call hneeds ?_
  intro reply hallows response hreply
  refine ⟨hallows response hreply, fun p amount hm hst => ?_⟩
  exact .inr ⟨response, p, amount, hreply, hm, hst, rfl⟩

/-- The payment an authorization names is the one its request creates. -/
theorem authorizePayment_ensures {token : PaymentToken} {method : PaymentMethodType}
    (hknown : Known K order requestId) :
    Ensures contract (authorizePayment order requestId token method) K
      fun a _ => a.paymentId = paymentOf order.tenantId requestId := by
  refine Ensures.bind (ensures_payment
    ⟨order, requestId, hknown, rfl, ⟨rfl, rfl⟩, fun _ => rfl⟩) fun reply K₁ h₁ hreply => ?_
  refine Ensures.bind (P := fun response _ => response.payment.paymentId =
    paymentOf order.tenantId requestId) ?_ fun response K₂ h₂ hid => ?_
  · exact ensures_ofResult fun response hr => (hreply response (paymentResponse_ok hr)).1 rfl
  · exact ensures_ofResult fun a ha => (authorization_paymentId ha).trans hid

theorem requireSucceeded_ok {operation : String} {response : OperationResponse} {u : Unit}
    (h : requireSucceeded operation response = .ok u) :
    response.operationStatus = .succeeded := by
  unfold requireSucceeded at h
  split at h
  · assumption
  · cases h

/-- A capture that succeeded captured the payment. -/
theorem paymentOperation_ensures {operation : String} {q : PaymentStore.Request}
    (hneeds : paymentNeeds q K) : Ensures contract (paymentOperation operation q) K
      fun _ K' => ∀ p amount, q.message = .capture p amount → .captured p ∈ K' := by
  refine Ensures.bind (ensures_payment hneeds) fun reply K₁ h₁ hreply => ?_
  refine Ensures.bind (P := fun response K' => reply = .ok response ∧ K₁ ⊆ K') ?_ ?_
  · exact ensures_ofResult fun response hr => ⟨paymentResponse_ok hr, Set.Subset.rfl⟩
  · rintro response K₂ - ⟨hr, h₂⟩
    refine ensures_ofResult fun u hu p amount hm => ?_
    exact h₂ ((hreply response hr).2 p amount hm (requireSucceeded_ok hu))

theorem capturePayment_ensures (hknown : Known K order requestId)
    (hp : paymentId = paymentOf order.tenantId requestId) :
    Ensures contract (capturePayment order paymentId requestId) K
      fun _ K' => .captured paymentId ∈ K' := by
  refine (paymentOperation_ensures ?_).imp fun _ K' h => h paymentId _ rfl
  exact ⟨order, requestId, hknown, rfl, ⟨hp, rfl⟩, nofun⟩

theorem voidPayment_sound (hknown : Known K order requestId)
    (hp : paymentId = paymentOf order.tenantId requestId) :
    Sound contract (voidPayment order paymentId requestId) K := by
  refine (paymentOperation_ensures ?_).sound
  exact ⟨order, requestId, hknown, rfl, hp, nofun⟩

theorem refundPayment_sound {amount : Int} (hknown : Known K order requestId)
    (hp : paymentId = paymentOf order.tenantId requestId) :
    Sound contract (refundPayment order paymentId requestId amount) K := by
  refine (paymentOperation_ensures ?_).sound
  exact ⟨order, requestId, hknown, rfl, hp, nofun⟩

theorem validateSnapshot_ok {record : PaymentRecord} {s : PaymentSnapshot}
    (h : validateSnapshot order paymentId record = .ok s) :
    record.authorizedAmount = order.totalMinor ∧ s.status = record.status ∧
      s.capturedMinor = record.capturedAmount ∧ s.refundedMinor = record.refundedAmount := by
  unfold validateSnapshot at h
  split at h
  · cases h
  · split at h
    · cases h
    · rename_i hamounts
      cases h
      push Not at hamounts
      exact ⟨hamounts.2.1, rfl, rfl, rfl⟩

theorem settledRecord_of_confirmed {record : PaymentRecord} {s : PaymentSnapshot}
    (hst : s.status = record.status) (hc : s.capturedMinor = record.capturedAmount)
    (hr : s.refundedMinor = record.refundedAmount)
    (h : paymentCompensationConfirmed s = true) : settledRecord record := by
  unfold paymentCompensationConfirmed at h
  unfold settledRecord
  rw [← hst, ← hc, ← hr]
  split at h
  · rename_i heq
    exact .inl heq
  · rename_i heq
    exact .inr (.inl heq)
  · rename_i heq
    exact .inr (.inr ⟨.inl heq, of_decide_eq_true h⟩)
  · rename_i heq
    exact .inr (.inr ⟨.inr heq, of_decide_eq_true h⟩)
  all_goals cases h

theorem capturedRecord_of_exact {record : PaymentRecord} {s : PaymentSnapshot}
    (ha : record.authorizedAmount = order.totalMinor) (hst : s.status = record.status)
    (hc : s.capturedMinor = record.capturedAmount) (h : capturedExactly order s = true) :
    capturedRecord record := by
  obtain ⟨h1, h2, -⟩ := of_decide_eq_true h
  exact ⟨hst ▸ h1, by rw [← hc, h2, ha]⟩

/-- What a record of the payment service shows. -/
theorem ensures_getPayment {t : TenantId} : Ensures contract (call (.getPayment t paymentId)) K
    fun (reply : Except PaymentRpcException PaymentRecord) K' =>
      ∀ record, reply = .ok record →
        (capturedRecord record → .captured paymentId ∈ K') ∧
        (settledRecord record → .settled paymentId ∈ K') := by
  refine ensures_call trivial ?_
  intro reply _ record hreply
  exact ⟨fun hc => .inr ⟨record, hreply, .inl ⟨hc, rfl⟩⟩,
    fun hs => .inr ⟨record, hreply, .inr ⟨hs, rfl⟩⟩⟩

theorem paymentRecord_ok {reply : Except PaymentRpcException PaymentRecord}
    {record : PaymentRecord} (h : paymentRecord reply = .ok record) : reply = .ok record := by
  cases reply with
  | error status => cases h
  | ok r =>
    cases h
    rfl

theorem getPaymentSnapshot_ensures :
    Ensures contract (getPaymentSnapshot order paymentId) K
      fun s K' => Observed order paymentId s K' := by
  refine Ensures.bind ensures_getPayment fun reply K₁ _ hreply => ?_
  refine Ensures.bind (P := fun record K' => reply = .ok record ∧ K₁ ⊆ K') ?_ ?_
  · exact ensures_ofResult fun record hr => ⟨paymentRecord_ok hr, Set.Subset.rfl⟩
  · rintro record K₂ - ⟨hr, h₂⟩
    refine ensures_ofResult fun s hs => ?_
    obtain ⟨ha, hst, hc, href⟩ := validateSnapshot_ok hs
    obtain ⟨hcaptured, hsettled⟩ := hreply record hr
    exact ⟨fun h => h₂ (hsettled (settledRecord_of_confirmed hst hc href h)),
      fun h => h₂ (hcaptured (capturedRecord_of_exact ha hst hc h))⟩

/-! ## Payment compensation -/

theorem compensationAction_sound {s : PaymentSnapshot} {action : Flow Unit}
    (hknown : Known K order requestId) (hp : paymentId = paymentOf order.tenantId requestId)
    (h : compensationAction order paymentId requestId s = some action) :
    Sound contract action K := by
  unfold compensationAction at h
  split at h
  · cases h
    exact refundPayment_sound hknown hp
  · split at h
    · cases h
      exact voidPayment_sound hknown hp
    · cases h

/-- A compensation is believed only when a snapshot confirms it. -/
theorem compensatePayment_ensures {rounds : Nat} (hknown : Known K order requestId)
    (hp : paymentId = paymentOf order.tenantId requestId) :
    Ensures contract (compensatePayment order paymentId requestId rounds) K
      fun b K' => b = true → .settled paymentId ∈ K' := by
  induction rounds generalizing K with
  | zero => exact Ensures.pure nofun
  | succ rounds ih =>
    refine getPaymentSnapshot_ensures.attempt (fun s K₁ h₁ hs => ?_)
      fun e K₁ _ => Ensures.pure nofun
    dsimp only
    split
    · rename_i hconfirmed
      exact Ensures.pure fun _ => hs.settled hconfirmed
    · split
      · exact Ensures.pure nofun
      · rename_i action haction
        have hsound := compensationAction_sound (hknown.mono h₁) hp haction
        refine hsound.attempt fun r K₂ h₂ => ?_
        refine getPaymentSnapshot_ensures.attempt (fun after K₃ h₃ hafter => ?_)
          fun e K₃ _ => Ensures.pure nofun
        dsimp only
        split
        · rename_i hconfirmed
          exact Ensures.pure fun _ => hafter.settled hconfirmed
        · exact ih (hknown.mono (h₁.trans (h₂.trans h₃)))

theorem settled_mono (b : Bool) (L L' : Set Fact) (hL : L ⊆ L')
    (h : b = true → .settled paymentId ∈ L) : b = true → .settled paymentId ∈ L' :=
  fun hb => hL (h hb)

theorem compensatePaymentWithFence_ensures (hknown : Known K order requestId)
    (hp : paymentId = paymentOf order.tenantId requestId) :
    Ensures contract (compensatePaymentWithFence order paymentId requestId fence) K
      fun b K' => b = true → .settled paymentId ∈ K' := by
  refine Sound.bind (sound_tx trivial) fun _ K₁ h₁ => ?_
  refine Ensures.bind (ensures_withCheckoutFence
    (compensatePayment_ensures (hknown.mono h₁) hp) settled_mono) fun b K₂ h₂ hb => ?_
  cases b with
  | false => exact Ensures.pure nofun
  | true =>
    refine Sound.bind (sound_tx trivial) fun _ K₃ h₃ => ?_
    exact Ensures.pure fun _ => h₃ (hb rfl)

theorem enqueuePaymentCompensation_sound (hw : Working K order fence requestId)
    (hp : paymentId = paymentOf order.tenantId requestId) :
    Sound contract (enqueuePaymentCompensation order paymentId requestId fence) K := by
  refine Sound.bind (sound_tx ⟨hw.known, hp, hw.tenant, hw.request⟩) fun _ K₁ h₁ => ?_
  exact sound_tx trivial

/-! ## Authorization recovery -/

/-- A recovered authorization names the payment of the request. -/
def RecoversPayment (order : PendingOrder) (requestId : RequestId)
    (r : AuthorizationRecovery) : Prop :=
  ∀ a, r = .recovered a → a.paymentId = paymentOf order.tenantId requestId

theorem recoverCaptured_ensures (hw : Working K order fence requestId)
    (hp : paymentId = paymentOf order.tenantId requestId) :
    Ensures contract (recoverCaptured order paymentId requestId fence) K
      fun r _ => RecoversPayment order requestId r := by
  refine Sound.bind (enqueuePaymentCompensation_sound hw hp) fun _ K₁ h₁ => ?_
  refine Ensures.bind (compensatePaymentWithFence_ensures (hw.known.mono h₁) hp)
    fun b K₂ h₂ hb => ?_
  cases b with
  | false => exact ensures_error
  | true =>
    refine Sound.bind (sound_tx ?_) fun _ K₃ h₃ => Ensures.pure nofun
    rintro p ⟨⟩
    exact hb rfl

theorem recoveredStatus_payment {s : PaymentSnapshot} {r : AuthorizationRecovery}
    (hp : paymentId = paymentOf order.tenantId requestId)
    (h : recoveredStatus paymentId s = .ok r) : RecoversPayment order requestId r := by
  unfold recoveredStatus at h
  split at h <;> cases h <;> intro a ha <;> cases ha <;> exact hp

theorem recoverFromLedger_ensures (hw : Working K order fence requestId) :
    Ensures contract (recoverFromLedger order requestId fence) K
      fun r _ => RecoversPayment order requestId r := by
  refine Ensures.bind (ensures_tx (t := .lookupAuthorizationPaymentId order requestId)
    (P := fun (found : Option PaymentId) _ =>
      ∀ p, found = some p → p = paymentOf order.tenantId requestId) hw.known
    fun found hfound => hfound) fun found K₁ h₁ hfound => ?_
  cases found with
  | none => exact Ensures.pure nofun
  | some p =>
    refine Sound.bind getPaymentSnapshot_ensures.sound fun s K₂ h₂ => ?_
    have hp := hfound p rfl
    split
    · exact recoverCaptured_ensures (hw.mono (h₁.trans h₂)) hp
    · exact ensures_ofResult fun r hr => recoveredStatus_payment hp hr

theorem recoverAuthorization_ensures {token : PaymentToken} {method : PaymentMethodType}
    (hw : Working K order fence requestId) :
    Ensures contract (recoverAuthorization order requestId token method fence) K
      fun r _ => RecoversPayment order requestId r := by
  refine (authorizePayment_ensures hw.known).attempt (fun a K₁ h₁ ha => ?_)
    fun e K₁ h₁ => ?_
  · refine Ensures.pure fun b hb => ?_
    cases hb
    exact ha
  · dsimp only
    split
    · exact recoverFromLedger_ensures (hw.mono h₁)
    · exact Ensures.pure nofun

/-! ## Inventory operations -/

theorem postRelease_sound {reservation : InventoryReservation} :
    Sound contract (postRelease order fence reservation) K := by
  refine Sound.bind (sound_call trivial) fun r K₁ _ => ?_
  split
  · exact Ensures.pure trivial
  · exact ensures_error

theorem releaseInventory_sound {reservations : List InventoryReservation}
    {first : Option ApiError} :
    Sound contract (releaseInventory order fence first reservations) K := by
  induction reservations generalizing K first with
  | nil =>
    cases first with
    | none => exact Ensures.pure trivial
    | some e => exact ensures_error
  | cons r rest ih =>
    simp only [releaseInventory]
    refine Ensures.attempt (sound_withCheckoutFence postRelease_sound) (fun response K₁ _ _ => ?_)
      fun e K₁ _ => ?_
    · exact Sound.bind (sound_tx trivial) fun _ K₂ _ => ih
    · dsimp only
      split
      · exact ensures_error
      · exact ih

theorem forEachReservation_sound {f : InventoryReservation → Flow Unit}
    {reservations : List InventoryReservation} (hf : ∀ r K, Sound contract (f r) K) :
    Sound contract (forEachReservation f reservations) K := by
  induction reservations generalizing K with
  | nil => exact Ensures.pure trivial
  | cons r rest ih => exact Sound.bind (hf r K) fun _ K₁ _ => ih

theorem releaseInventoryWithRecovery_sound {reservations : List InventoryReservation} :
    Sound contract (releaseInventoryWithRecovery order reservations fence) K := by
  refine Sound.bind (Sound.bind (sound_tx trivial) fun _ K₁ _ =>
    forEachReservation_sound fun r K => sound_tx trivial) fun _ K₁ _ => ?_
  refine Sound.bind (forEachReservation_sound fun r K => sound_tx trivial) fun _ K₂ _ => ?_
  refine Sound.bind releaseInventory_sound fun _ K₃ _ => ?_
  refine forEachReservation_sound fun r K => ?_
  exact Sound.bind (sound_tx trivial) fun _ K₄ _ => sound_tx nofun

/-- The reservations are those of lines of the order. -/
def OrderLines (order : PendingOrder) (reservations : List InventoryReservation) : Prop :=
  ∀ r ∈ reservations, ∃ v, r.reservationId = .line order.id v

theorem reserveOutcome_line {line : OrderLine} {response : Response Inventory.ReserveOutcome}
    {r : InventoryReservation} (h : reserveOutcome order line response = .ok r) :
    r.reservationId = .line order.id line.variantId := by
  unfold reserveOutcome at h
  split at h
  · cases h
  · split at h
    · cases h
    · split at h
      · cases h
      · cases h
        rfl

theorem postReserve_sound {line : OrderLine} :
    Sound contract (postReserve order fence line) K := by
  refine Sound.bind (sound_call trivial) fun r K₁ _ => ?_
  split
  · exact Ensures.pure trivial
  · exact ensures_error

theorem abandonReservations_ensures {reservations : List InventoryReservation} {e : ApiError}
    {P : List InventoryReservation → Set Fact → Prop} :
    Ensures contract (abandonReservations order fence reservations e) K P :=
  Sound.bind releaseInventoryWithRecovery_sound fun _ _ _ => ensures_error

theorem reserveInventory_ensures {lines : List OrderLine}
    {reservations : List InventoryReservation} (hlines : OrderLines order reservations) :
    Ensures contract (reserveInventory order fence reservations lines) K
      fun rs _ => OrderLines order rs := by
  induction lines generalizing K reservations with
  | nil => exact Ensures.pure hlines
  | cons line lines ih =>
    unfold reserveInventory
    refine Ensures.attempt (sound_withCheckoutFence postReserve_sound)
      (fun response K₁ _ _ => ?_) fun e K₁ _ => abandonReservations_ensures
    refine Sound.bind (sound_tx trivial) fun _ K₂ _ => ?_
    split
    · exact abandonReservations_ensures
    · rename_i r hr
      refine ih fun r' hr' => ?_
      rcases List.mem_append.mp hr' with hold | hnew
      · exact hlines r' hold
      · cases List.mem_singleton.mp hnew
        exact ⟨line.variantId, reserveOutcome_line hr⟩

theorem consumeInventoryAttempt_sound {reservations : List InventoryReservation}
    (hw : Working K order fence requestId) (hlines : OrderLines order reservations) :
    Sound contract (consumeInventoryAttempt order reservations fence) K := by
  refine Sound.bind (sound_withCheckoutFence (Sound.bind (sound_call ?_) fun r K₁ _ => ?_))
    fun response K₁ _ => ?_
  · refine ⟨order, requestId, fence.generation.token, hw.known, rfl, ?_, rfl, hw.issued, ?_⟩
    · exact congrArg some hw.request
    · intro r hr
      obtain ⟨r', hr', rfl⟩ := List.mem_map.mp hr
      exact hlines r' hr'
  · split
    · exact Ensures.pure trivial
    · exact ensures_error
  · exact Sound.bind (sound_tx trivial) fun _ K₂ _ => sound_ofResult

theorem consumeInventory_sound {reservations : List InventoryReservation} {retries : Nat}
    (hw : Working K order fence requestId) (hlines : OrderLines order reservations) :
    Sound contract (consumeInventory order reservations fence retries) K := by
  induction retries generalizing K with
  | zero => exact consumeInventoryAttempt_sound hw hlines
  | succ retries ih =>
    refine Ensures.attempt (consumeInventoryAttempt_sound hw hlines)
      (fun _ K₁ _ _ => Ensures.pure trivial) fun e K₁ h₁ => ?_
    dsimp only
    split
    · exact ih (hw.mono h₁)
    · exact ensures_error

/-- A finalization that is reported durable paid the order. -/
theorem finalizationDurable_ensures :
    Ensures contract (finalizationDurable order) K
      fun b K' => b = true → .paid order.tenantId order.id ∈ K' := by
  refine Ensures.attempt (ensures_tx (t := .finalizationCommitted order)
    (P := fun (b : Bool) K' => b = true → .paid order.tenantId order.id ∈ K') trivial ?_)
    (fun b K₁ _ hb => ?_) fun e K₁ _ => ?_
  · exact fun b _ hb => .inr ⟨hb, rfl⟩
  · exact Ensures.pure hb
  · dsimp only
    split
    · exact Ensures.pure nofun
    · exact ensures_error

/-! ## The request handler -/

section Handler

variable {input : CheckoutInput} {lease : CheckoutLease} {e : ApiError}

/-- The handler works on the order under its own lease. -/
abbrev Handles (K : Set Fact) (order : PendingOrder) (lease : CheckoutLease) : Prop :=
  Working K order (.attempt lease) lease.requestId

/-- The flow answers with a response of its order that can be recorded. -/
def Responds (lease : CheckoutLease) (payload : CheckoutPayload) (K : Set Fact) : Prop :=
  isResponse payload.status ∧ .ofRequest lease.tenantId payload.orderId lease.requestId ∈ K

/-- The response of the order at work. -/
theorem Working.responds {payload : CheckoutPayload} (hw : Handles K order lease)
    (hs : isResponse payload.status) (hid : payload.orderId = order.id) :
    Responds lease payload K := by
  refine ⟨hs, ?_⟩
  have ht : lease.tenantId = order.tenantId := hw.tenant
  rw [ht, hid]
  exact hw.known.2

/-- The payment of a finished authorization is the one of the request, and an
answer can be recorded. -/
def AuthorizesPayment (order : PendingOrder) (lease : CheckoutLease) :
    AuthorizationOutcome → Set Fact → Prop
  | .authorized a, _ => a.paymentId = paymentOf order.tenantId lease.requestId
  | .answered payload, K => Responds lease payload K

theorem applyRecovery_ensures {r : AuthorizationRecovery} (hw : Handles K order lease)
    (hr : RecoversPayment order lease.requestId r) :
    Ensures contract (applyRecovery input order lease e r) K (AuthorizesPayment order lease) := by
  cases r with
  | recovered a => exact Ensures.pure (hr a rfl)
  | absent =>
    refine Sound.bind (sound_tx trivial) fun _ K₁ h₁ => ?_
    split
    · exact Ensures.pure ((hw.mono h₁).responds (.inr (.inr rfl)) rfl)
    · exact ensures_error
  | pending =>
    refine Sound.bind (sound_tx ⟨hw.known, nofun⟩) fun _ K₁ h₁ => ?_
    split
    · exact Ensures.pure ((hw.mono h₁).responds (.inl rfl) rfl)
    · exact ensures_error
  | failed recoveryError =>
    exact Sound.bind (sound_tx trivial) fun _ K₁ _ => ensures_error

theorem handleAuthorizationError_ensures (hw : Handles K order lease) :
    Ensures contract (handleAuthorizationError input order lease e) K
      (AuthorizesPayment order lease) := by
  unfold handleAuthorizationError
  split
  · exact Sound.bind (sound_tx ⟨hw.known, nofun⟩) fun _ K₁ _ => ensures_error
  · split
    · refine Ensures.attempt (ensures_withCheckoutFence (recoverAuthorization_ensures hw)
        fun _ _ _ _ h => h) (fun r K₁ h₁ hr => ?_) fun _ K₁ _ => ensures_error
      exact applyRecovery_ensures (hw.mono h₁) hr
    · exact Sound.bind (sound_tx trivial) fun _ K₁ _ => ensures_error

theorem authorizeOrder_ensures (hw : Handles K order lease) :
    Ensures contract (authorizeOrder input order lease) K
      (AuthorizesPayment order lease) := by
  refine Ensures.attempt (ensures_withCheckoutFence (authorizePayment_ensures hw.known)
    fun _ _ _ _ h => h) (fun a K₁ _ ha => Ensures.pure ha) fun e K₁ h₁ => ?_
  · exact handleAuthorizationError_ensures (hw.mono h₁)

/-- A registered payment is the one of the request. -/
theorem register_needs {method : PaymentMethodType} {allowExpired : Bool}
    (hw : Handles K order lease) (hp : paymentId = paymentOf order.tenantId lease.requestId) :
    (Tx.registerPendingPaymentReconciliation order lease (some paymentId) method
      allowExpired).needs K := by
  refine ⟨hw.known, fun p h => ?_⟩
  cases h
  exact hp

theorem queueRecovery_ensures (hw : Handles K order lease)
    (hp : paymentId = paymentOf order.tenantId lease.requestId) :
    Ensures contract (queueRecovery input order lease paymentId e) K P :=
  Sound.bind (sound_tx (register_needs hw hp)) fun _ _ _ => ensures_error

theorem leaveToReconciliation_ensures {message : String} (hw : Handles K order lease)
    (hp : paymentId = paymentOf order.tenantId lease.requestId) :
    Ensures contract (leaveToReconciliation input order lease paymentId message) K P :=
  Sound.bind (sound_tx (register_needs hw hp)) fun _ _ _ => ensures_error

theorem compensateOrderPayment_ensures (hw : Working K order fence requestId)
    (hp : paymentId = paymentOf order.tenantId requestId) :
    Ensures contract (compensateOrderPayment order paymentId requestId fence) K
      fun b K' => b = true → .settled paymentId ∈ K' := by
  refine Sound.bind (enqueuePaymentCompensation_sound hw hp) fun _ K₁ h₁ => ?_
  refine Ensures.bind (compensatePaymentWithFence_ensures (hw.known.mono h₁) hp)
    fun b K₂ h₂ hb => ?_
  cases b with
  | false => exact Ensures.pure nofun
  | true =>
    refine Sound.bind (sound_tx ?_) fun _ K₃ h₃ => Ensures.pure fun _ => h₃ (hb rfl)
    rintro p ⟨⟩
    exact hb rfl

theorem undoOrder_ensures {released : Bool} (hw : Handles K order lease)
    (hp : paymentId = paymentOf order.tenantId lease.requestId) :
    Ensures contract (undoOrder order lease paymentId released e) K P := by
  refine Ensures.bind (compensateOrderPayment_ensures hw hp) fun b K₁ h₁ hb => ?_
  split
  · rename_i hdone
    rw [Bool.and_eq_true] at hdone
    refine Sound.bind (sound_tx ?_) fun _ K₂ _ => ensures_error
    exact ⟨lease.requestId, hw.known.mono h₁, hp ▸ hb hdone.2⟩
  · exact ensures_error

theorem releaseAndUndo_ensures {reservations : List InventoryReservation}
    (hw : Handles K order lease) (hp : paymentId = paymentOf order.tenantId lease.requestId) :
    Ensures contract (releaseAndUndo order lease paymentId reservations e) K P :=
  Ensures.attempt releaseInventoryWithRecovery_sound
    (fun _ _ h₁ _ => undoOrder_ensures (hw.mono h₁) hp)
    fun _ _ h₁ => undoOrder_ensures (hw.mono h₁) hp

theorem finalizeCheckout_ensures (hw : Handles K order lease)
    (hp : paymentId = paymentOf order.tenantId lease.requestId)
    (hcaptured : .captured paymentId ∈ K) :
    Ensures contract (finalizeCheckout input order lease paymentId) K (Responds lease) := by
  refine Ensures.attempt (sound_tx ⟨lease.requestId, hw.known, hp, hcaptured⟩)
    (fun _ K₁ h₁ _ => Ensures.pure ((hw.mono h₁).responds (.inr (.inl rfl)) rfl))
    fun e K₁ h₁ => ?_
  dsimp only
  split
  · exact queueRecovery_ensures (hw.mono h₁) hp
  · refine Sound.bind finalizationDurable_ensures.sound fun b K₂ h₂ => ?_
    split
    · exact Ensures.pure ((hw.mono (h₁.trans h₂)).responds (.inr (.inl rfl)) rfl)
    · exact leaveToReconciliation_ensures (hw.mono (h₁.trans h₂)) hp

theorem consumeOrder_ensures {reservations : List InventoryReservation}
    (hw : Handles K order lease) (hp : paymentId = paymentOf order.tenantId lease.requestId)
    (hcaptured : .captured paymentId ∈ K) (hlines : OrderLines order reservations) :
    Ensures contract (consumeOrder input order lease paymentId reservations) K (Responds lease) := by
  refine Ensures.attempt (consumeInventory_sound hw hlines)
    (fun _ K₁ h₁ _ => finalizeCheckout_ensures (hw.mono h₁) hp (h₁ hcaptured)) fun e K₁ h₁ => ?_
  dsimp only
  split
  · exact queueRecovery_ensures (hw.mono h₁) hp
  · split
    · exact leaveToReconciliation_ensures (hw.mono h₁) hp
    · exact releaseAndUndo_ensures (hw.mono h₁) hp

theorem captureOrder_ensures {reservations : List InventoryReservation}
    (hw : Handles K order lease) (hp : paymentId = paymentOf order.tenantId lease.requestId)
    (hlines : OrderLines order reservations) :
    Ensures contract (captureOrder input order lease paymentId reservations) K (Responds lease) := by
  refine Ensures.attempt (ensures_withCheckoutFence (capturePayment_ensures hw.known hp)
    fun _ _ _ hL h => hL h) (fun _ K₁ h₁ hc => ?_) fun e K₁ h₁ => ?_
  · exact consumeOrder_ensures (hw.mono h₁) hp hc hlines
  · dsimp only
    split
    · exact queueRecovery_ensures (hw.mono h₁) hp
    · exact releaseAndUndo_ensures (hw.mono h₁) hp

theorem reserveOrder_ensures (hw : Handles K order lease)
    (hp : paymentId = paymentOf order.tenantId lease.requestId) :
    Ensures contract (reserveOrder input order lease paymentId) K (Responds lease) := by
  refine Ensures.attempt (reserveInventory_ensures nofun) (fun rs K₁ h₁ hlines => ?_)
    fun e K₁ h₁ => ?_
  · exact captureOrder_ensures (hw.mono h₁) hp hlines
  · dsimp only
    split
    · exact queueRecovery_ensures (hw.mono h₁) hp
    · exact undoOrder_ensures (hw.mono h₁) hp

theorem validateCatalog_sound : Sound contract (validateCatalog input) K :=
  ⟨trivial, fun _ _ _ _ => trivial⟩

theorem quoteWithRetry_sound : Sound contract (quoteWithRetry input) K := by
  refine Sound.bind ⟨trivial, fun _ _ _ _ => trivial⟩ fun quote K₁ _ => ?_
  exact Sound.bind sound_ofResult fun _ K₂ _ => Ensures.pure trivial

theorem checkoutFlow_ensures (ht : lease.tenantId = input.tenantId)
    (hissued : .issued lease.token ∈ K) :
    Ensures contract (checkoutFlow input lease) K (Responds lease) := by
  refine Sound.bind (sound_tx trivial) fun _ K₁ h₁ => ?_
  refine Sound.bind validateCatalog_sound fun _ K₂ h₂ => ?_
  refine Sound.bind quoteWithRetry_sound fun quote K₃ h₃ => ?_
  refine Ensures.bind (ensures_tx (t := .createPendingOrder input quote lease)
    (P := fun (order : PendingOrder) K' => Known K' order lease.requestId ∧
      order.tenantId = input.tenantId) trivial fun order hallows => ?_)
    fun order K₄ h₄ ⟨hknown, htenant⟩ => ?_
  · exact ⟨⟨.inr (.inl rfl), .inr (.inr rfl)⟩, hallows⟩
  · have hw : Handles K₄ order lease :=
      ⟨hknown, ht.trans htenant.symm, rfl, h₄ (h₃ (h₂ (h₁ hissued)))⟩
    refine Ensures.bind (authorizeOrder_ensures hw) fun outcome K₅ h₅ hp => ?_
    cases outcome with
    | answered payload => exact Ensures.pure hp
    | authorized a =>
      dsimp only
      split
      · exact Sound.bind (sound_tx (register_needs (hw.mono h₅) hp))
          fun _ K₆ h₆ => Ensures.pure ((hw.mono (h₅.trans h₆)).responds (.inl rfl) rfl)
      · exact reserveOrder_ensures (hw.mono h₅) hp

theorem recordResponse_sound {payload : CheckoutPayload} (h : Responds lease payload K) :
    Sound contract (recordResponse lease payload) K := by
  have hneeds : Tx.needs (.recordCheckoutResponse lease payload.status (some payload.orderId)
      payload) K := by
    refine ⟨h.1, fun id hid => ?_⟩
    cases hid
    exact h.2
  refine Sound.bind (sound_tx hneeds) fun _ K₁ _ => ?_
  split
  · exact Sound.bind (sound_tx trivial) fun _ K₂ _ => Ensures.pure trivial
  · exact Ensures.pure trivial

theorem endWithError_sound : Sound contract (endWithError lease e) K := by
  unfold endWithError
  split
  · exact Sound.bind (sound_tx trivial) fun _ K₁ _ => ensures_error
  · exact ensures_error

theorem recordFailure_sound : Sound contract (recordFailure lease e) K := by
  refine Ensures.attempt (sound_tx trivial) (fun _ K₁ _ _ => endWithError_sound)
    fun recordError K₁ _ => ?_
  dsimp only
  split
  · exact endWithError_sound
  · exact ensures_error

theorem checkoutInner_sound : Sound contract (checkoutInner input) K := by
  refine Sound.bind sound_ofResult fun _ K₁ _ => ?_
  refine Ensures.bind (ensures_tx
    (t := .claimCheckoutAttempt input.tenantId input.requestId input)
    (P := fun (claim : CheckoutAttemptClaim) K' => ∀ token, claim = .new token →
      .issued token ∈ K') trivial fun claim _ => ?_) fun claim K₂ _ hissued => ?_
  · exact fun token hnew => .inr ⟨token, hnew, rfl⟩
  · cases claim with
    | new token =>
      exact Ensures.attempt (checkoutFlow_ensures rfl (hissued token rfl))
        (fun _ _ _ hr => recordResponse_sound hr) fun _ _ _ => recordFailure_sound
    | pending payload =>
      exact Sound.bind (sound_tx trivial) fun _ K₃ _ => Ensures.pure trivial
    | replay payload => exact Ensures.pure trivial
    | inProgress => exact ensures_error
    | failed e => exact ensures_error

end Handler

/-! ## The reconciliation worker -/

section Reconciliation

variable {job : PaymentReconciliationJob} {e : ApiError}

/-- The worker works on the order of its job. -/
structure Reconciles (K : Set Fact) (job : PaymentReconciliationJob) (order : PendingOrder) :
    Prop where
  working : Working K order job.fence job.requestId
  orderId : order.id = job.orderId

theorem Reconciles.mono (h : Reconciles K job order) (hK : K ⊆ K') : Reconciles K' job order :=
  ⟨h.working.mono hK, h.orderId⟩

/-- A completed job's order is paid. -/
def Completes (job : PaymentReconciliationJob) (outcome : PendingPaymentOutcome)
    (K : Set Fact) : Prop :=
  ∀ payload, outcome = .completed payload → .paid job.tenantId job.orderId ∈ K

theorem reconcileCapturedPaymentFailure_ensures (hw : Reconciles K job order)
    (hp : paymentId = paymentOf order.tenantId job.requestId) :
    Ensures contract (reconcileCapturedPaymentFailure job order paymentId e) K
      fun outcome K' => Completes job outcome K' := by
  refine Ensures.bind (compensateOrderPayment_ensures hw.working hp) fun b K₁ h₁ hb => ?_
  cases b with
  | false => exact ensures_error
  | true =>
    refine Sound.bind (sound_tx ?_) fun _ K₂ _ => Ensures.pure nofun
    exact ⟨job.requestId, hw.working.known.mono h₁, hp ▸ hb rfl⟩

theorem completedOutcome_ensures (hw : Reconciles K job order)
    (hpaid : .paid order.tenantId order.id ∈ K) :
    Ensures contract (completedOutcome order paymentId) K
      fun outcome K' => Completes job outcome K' := by
  have ht : order.tenantId = job.tenantId := hw.working.tenant.symm
  refine Sound.bind (sound_tx trivial) fun _ K₁ h₁ => Ensures.pure fun _ _ => ?_
  rw [← ht, ← hw.orderId]
  exact h₁ hpaid

theorem finalizeReconciled_ensures (hw : Reconciles K job order)
    (hp : paymentId = paymentOf order.tenantId job.requestId)
    (hcaptured : .captured paymentId ∈ K) :
    Ensures contract (finalizeReconciled job order paymentId) K
      fun outcome K' => Completes job outcome K' := by
  refine Ensures.attempt (ensures_tx (t := .finalizeOrder order paymentId job.fence)
    (P := fun _ K' => .paid order.tenantId order.id ∈ K')
    ⟨job.requestId, hw.working.known, hp, hcaptured⟩ fun _ _ => .inr rfl)
    (fun _ K₁ h₁ hpaid => ?_) fun e K₁ h₁ => ?_
  · exact completedOutcome_ensures (hw.mono h₁) hpaid
  · dsimp only
    split
    · exact ensures_error
    · refine Ensures.bind finalizationDurable_ensures fun b K₂ h₂ hb => ?_
      cases b with
      | false => exact ensures_error
      | true => exact completedOutcome_ensures (hw.mono (h₁.trans h₂)) (hb rfl)

theorem fulfillReconciled_ensures (hw : Reconciles K job order)
    (hp : paymentId = paymentOf order.tenantId job.requestId)
    (hcaptured : .captured paymentId ∈ K) :
    Ensures contract (fulfillReconciled job order paymentId) K
      fun outcome K' => Completes job outcome K' := by
  refine Ensures.attempt (reserveInventory_ensures nofun) (fun rs K₁ h₁ hlines => ?_)
    fun e K₁ h₁ => ?_
  · refine Ensures.attempt (consumeInventory_sound (hw.mono h₁).working hlines)
      (fun _ K₂ h₂ _ => ?_) fun e K₂ h₂ => ?_
    · exact finalizeReconciled_ensures (hw.mono (h₁.trans h₂)) hp (h₂ (h₁ hcaptured))
    · dsimp only
      split
      · exact ensures_error
      · refine Sound.attempt releaseInventoryWithRecovery_sound fun _ K₃ h₃ => ?_
        exact reconcileCapturedPaymentFailure_ensures (hw.mono (h₁.trans (h₂.trans h₃))) hp
  · dsimp only
    split
    · exact ensures_error
    · exact reconcileCapturedPaymentFailure_ensures (hw.mono h₁) hp

theorem snapshotVerdict_completes {s : PaymentSnapshot} {outcome : PendingPaymentOutcome}
    (h : snapshotVerdict s = some outcome) : Completes job outcome K := by
  unfold snapshotVerdict at h
  split at h <;> cases h <;> exact nofun

theorem observeSnapshot_ensures :
    Ensures contract (observeSnapshot job order paymentId) K
      fun s K' => Observed order paymentId s K' := by
  refine Ensures.bind (ensures_withCheckoutFence getPaymentSnapshot_ensures
    fun _ _ _ hL h => h.mono hL) fun s K₁ _ hs => ?_
  exact Sound.bind (sound_tx trivial) fun _ K₂ h₂ => Ensures.pure (hs.mono h₂)

theorem captureReconciled_ensures {s : PaymentSnapshot} (hw : Reconciles K job order)
    (hp : paymentId = paymentOf order.tenantId job.requestId)
    (hs : Observed order paymentId s K) :
    Ensures contract (captureReconciled job order paymentId s) K
      fun found K' => ∀ s', found = some s' → Observed order paymentId s' K' := by
  unfold captureReconciled
  split
  · refine Sound.bind (sound_withCheckoutFence
      (capturePayment_ensures hw.working.known hp).sound) fun _ K₁ h₁ => ?_
    refine Ensures.bind observeSnapshot_ensures fun after K₂ _ hafter => ?_
    split
    · exact Ensures.pure nofun
    · refine Ensures.pure fun s' hs' => ?_
      cases hs'
      exact hafter
  · refine Ensures.pure fun s' hs' => ?_
    cases hs'
    exact hs

theorem reconcilePayment_ensures (hw : Reconciles K job order)
    (hp : paymentId = paymentOf order.tenantId job.requestId) :
    Ensures contract (reconcilePayment job order paymentId) K
      fun outcome K' => Completes job outcome K' := by
  refine Ensures.bind observeSnapshot_ensures fun s K₁ h₁ hs => ?_
  split
  · rename_i outcome hverdict
    exact Ensures.pure (snapshotVerdict_completes hverdict)
  · refine Ensures.bind (captureReconciled_ensures (hw.mono h₁) hp hs)
      fun found K₂ h₂ hfound => ?_
    cases found with
    | none => exact Ensures.pure nofun
    | some s' =>
      dsimp only
      split
      · rename_i hexact
        exact fulfillReconciled_ensures (hw.mono (h₁.trans h₂)) hp
          ((hfound s' rfl).captured hexact)
      · exact Ensures.pure nofun

theorem jobPaymentId_ensures (hw : Reconciles K job order)
    (hjob : ∀ p, job.paymentId = some p → p = paymentOf job.tenantId job.requestId) :
    Ensures contract (jobPaymentId job order) K
      fun found _ => ∀ p, found = some p → p = paymentOf order.tenantId job.requestId := by
  have ht : job.tenantId = order.tenantId := hw.working.tenant
  unfold jobPaymentId
  split
  · rename_i p hp
    refine Ensures.pure fun p' hp' => ?_
    cases hp'
    exact ht ▸ hjob p hp
  · exact ensures_tx hw.working.known fun found hfound => hfound

theorem attachPayment_sound (hp : paymentId = paymentOf job.tenantId job.requestId) :
    Sound contract (attachPayment job paymentId) K :=
  Ensures.ite (fun _ => Ensures.pure trivial) fun _ => sound_tx hp

theorem reconcileOrder_ensures (hw : Reconciles K job order)
    (hjob : ∀ p, job.paymentId = some p → p = paymentOf job.tenantId job.requestId) :
    Ensures contract (reconcileOrder job order) K
      fun outcome K' => Completes job outcome K' := by
  have ht : job.tenantId = order.tenantId := hw.working.tenant
  refine Ensures.bind (jobPaymentId_ensures hw hjob) fun found K₁ h₁ hfound => ?_
  cases found with
  | none => exact Ensures.pure nofun
  | some p =>
    have hp := hfound p rfl
    refine Sound.bind (attachPayment_sound (ht ▸ hp)) fun _ K₂ h₂ => ?_
    exact reconcilePayment_ensures (hw.mono (h₁.trans h₂)) hp

theorem reconcilePendingPayment_ensures
    (hof : .ofRequest job.tenantId job.orderId job.requestId ∈ K)
    (hissued : .issued job.parentLeaseToken ∈ K)
    (hjob : ∀ p, job.paymentId = some p → p = paymentOf job.tenantId job.requestId) :
    Ensures contract (reconcilePendingPayment job) K
      fun outcome K' => Completes job outcome K' := by
  unfold reconcilePendingPayment
  split
  · refine Sound.bind (sound_tx trivial) fun _ K₁ h₁ => ?_
    refine Ensures.bind (ensures_tx (t := .loadPendingOrder job.tenantId job.orderId)
      (P := fun (order : PendingOrder) K' => .stored order ∈ K' ∧
        order.tenantId = job.tenantId ∧ order.id = job.orderId) trivial
      fun order hallows => ⟨.inr rfl, hallows⟩) fun order K₂ h₂ ⟨hstored, ht, hid⟩ => ?_
    have hw : Reconciles K₂ job order := by
      refine ⟨⟨⟨hstored, ?_⟩, ht.symm, rfl, h₂ (h₁ hissued)⟩, hid⟩
      rw [ht, hid]
      exact h₂ (h₁ hof)
    split
    · exact reconcileOrder_ensures hw hjob
    · exact Ensures.pure nofun
  · exact Ensures.pure nofun

theorem settleJob_sound {r : ApiResult PendingPaymentOutcome}
    (hof : .ofRequest job.tenantId job.orderId job.requestId ∈ K)
    (h : ∀ outcome, r = .ok outcome → Completes job outcome K) :
    Sound contract (settleJob job r) K := by
  cases r with
  | ok outcome =>
    cases outcome with
    | retry => exact sound_tx trivial
    | completed payload => exact sound_tx (h _ rfl payload rfl)
    | failed e => exact sound_tx hof
  | error e => exact Ensures.ite (fun _ => Ensures.pure trivial) fun _ => sound_tx trivial

theorem processOnePaymentReconciliation_sound {pick : TenantId × RequestId} :
    Sound contract (processOnePaymentReconciliation pick) K := by
  refine Sound.bind (sound_tx trivial) fun reclaimed K₁ _ => ?_
  split
  · exact Ensures.pure trivial
  · refine Ensures.bind (ensures_tx (t := .claimPaymentReconciliation pick)
      (P := fun (claimed : Option PaymentReconciliationJob) K' => ∀ job, claimed = some job →
        .ofRequest job.tenantId job.orderId job.requestId ∈ K' ∧
        .issued job.parentLeaseToken ∈ K' ∧
        ∀ p, job.paymentId = some p → p = paymentOf job.tenantId job.requestId) trivial
      fun claimed hallows job hjob => ?_) fun claimed K₂ h₂ hclaimed => ?_
    · exact ⟨.inr ⟨job, hjob, .inl rfl⟩, .inr ⟨job, hjob, .inr rfl⟩, hallows job hjob⟩
    · cases claimed with
      | none => exact Ensures.pure trivial
      | some job =>
        obtain ⟨hof, hissued, hjob⟩ := hclaimed job rfl
        refine Ensures.attempt (reconcilePendingPayment_ensures hof hissued hjob)
          (fun outcome K₃ h₃ hout => ?_) fun e K₃ h₃ => ?_
        · refine Sound.bind (settleJob_sound (h₃ hof) fun outcome' ho => ?_)
            fun _ K₄ _ => Ensures.pure trivial
          cases ho
          exact hout
        · exact Sound.bind (settleJob_sound (h₃ hof) nofun)
            fun _ K₄ _ => Ensures.pure trivial

end Reconciliation

/-! ## The compensation worker -/

section Compensation

variable {task : ClaimedTask}

/-- A task that is done with a payment settled it. -/
def Settles (task : ClaimedTask) (K : Set Fact) : Prop :=
  ∀ p r, taskPayment task.kind = some (p, r) → .settled p ∈ K

theorem refundTask_ensures {currency : Currency} (hknown : Known K order requestId)
    (hp : paymentId = paymentOf order.tenantId requestId) :
    Ensures contract (refundTask order fence paymentId requestId currency) K
      fun _ K' => .settled paymentId ∈ K' := by
  unfold refundTask
  split
  · refine Ensures.bind (compensatePaymentWithFence_ensures hknown hp) fun b K₁ _ hb => ?_
    cases b with
    | false => exact ensures_error
    | true => exact Ensures.pure (hb rfl)
  · exact ensures_error

theorem releaseTask_sound {reservation : InventoryReservation} :
    Sound contract (releaseTask order fence reservation) K := by
  refine Sound.bind (sound_tx trivial) fun _ K₁ _ => ?_
  exact Sound.bind releaseInventory_sound fun _ K₂ _ => sound_tx trivial

theorem processCompensationTask_ensures
    (hof : ∀ p r, taskPayment task.kind = some (p, r) →
      p = paymentOf task.tenantId r ∧ .ofRequest task.tenantId task.orderId r ∈ K) :
    Ensures contract (processCompensationTask task) K fun _ K' => Settles task K' := by
  refine Sound.bind (sound_tx trivial) fun fence K₁ h₁ => ?_
  refine Ensures.bind (ensures_tx (t := .loadPendingOrder task.tenantId task.orderId)
    (P := fun (order : PendingOrder) K' => .stored order ∈ K' ∧
      order.tenantId = task.tenantId ∧ order.id = task.orderId) trivial
    fun order hallows => ⟨.inr rfl, hallows⟩) fun order K₂ h₂ ⟨hstored, ht, hid⟩ => ?_
  split
  · rename_i reservationId sku quantity hkind
    refine releaseTask_sound.imp fun _ K' _ p r hpr => ?_
    rw [hkind] at hpr
    cases hpr
  · rename_i paymentId requestId currency hkind
    obtain ⟨hp, hreq⟩ := hof paymentId requestId (by rw [hkind]; rfl)
    have hknown : Known K₂ order requestId := by
      refine ⟨hstored, ?_⟩
      rw [ht, hid]
      exact h₂ (h₁ hreq)
    refine (refundTask_ensures hknown (ht ▸ hp)).imp fun _ K' hsettled p r hpr => ?_
    rw [hkind] at hpr
    cases hpr
    exact hsettled

theorem settleTask_sound {r : ApiResult Unit} (hclaimed : .claimed task ∈ K)
    (h : ∀ u, r = .ok u → Settles task K) : Sound contract (settleTask task r) K := by
  cases r with
  | ok u => exact sound_tx fun _ => ⟨hclaimed, h u rfl⟩
  | error e => exact Ensures.ite (fun _ => sound_tx nofun) fun _ => sound_tx trivial

theorem processOneCompensation_sound {expired pick : Nat} :
    Sound contract (processOneCompensation expired pick) K := by
  refine Sound.bind (sound_tx trivial) fun buried K₁ _ => ?_
  split
  · exact Ensures.pure trivial
  · refine Ensures.bind (ensures_tx (t := .claimCompensationTask pick)
      (P := fun (claimed : Option ClaimedTask) K' => ∀ c, claimed = some c →
        .claimed c ∈ K' ∧ ∀ p r, taskPayment c.kind = some (p, r) →
          p = paymentOf c.tenantId r ∧ .ofRequest c.tenantId c.orderId r ∈ K') trivial
      fun claimed hallows c hc => ?_) fun claimed K₂ _ hclaimed => ?_
    · refine ⟨.inr ⟨c, hc, .inl rfl⟩, fun p r hpr => ⟨hallows c hc p r hpr, ?_⟩⟩
      exact .inr ⟨c, hc, .inr ⟨p, r, hpr, rfl⟩⟩
    · cases claimed with
      | none => exact Ensures.pure trivial
      | some task =>
        obtain ⟨htask, hof⟩ := hclaimed task rfl
        refine Ensures.attempt (processCompensationTask_ensures hof)
          (fun _ K₃ h₃ hsettles => ?_) fun e K₃ h₃ => ?_
        · exact Sound.bind (settleTask_sound (h₃ htask) fun _ _ => hsettles)
            fun _ K₄ _ => Ensures.pure trivial
        · exact Sound.bind (settleTask_sound (h₃ htask) nofun)
            fun _ K₄ _ => Ensures.pure trivial

end Compensation

end CommercePlayground.Checkout
