/-
CommercePlayground.Payment.BalanceTheorems — the balance invariant of
`payments`, and the rule of one active payment per order.

`RowInv` is what every stored row satisfies: the ordered balances, the
status its balances dictate, the provider decision behind every
authorization, and the columns the CHECK constraints of migrations 001 and
012 read. It implies every CHECK (`RowInv.rowChecks`), and each of the five
writers preserves it row by row; so no write of the store is ever rejected
by a CHECK. `StoreInv` adds what relates rows to each other.
-/
import CommercePlayground.Payment.StoreTheorems

namespace CommercePlayground.PaymentStore

open Lib

variable {Q : Scope}

/-! ## Status of the balances -/

theorem statusForBalances_settled (a c r : Int) :
    settledStatus (statusForBalances a c r) = true := by
  unfold statusForBalances
  split
  · split
    · rfl
    · split <;> rfl
  · split
    · rfl
    · split <;> rfl

theorem ne_pending_of_settled {s : PaymentStatus} (h : settledStatus s = true) :
    s ≠ .pending := by
  rintro rfl
  cases h

theorem ne_failed_of_settled {s : PaymentStatus} (h : settledStatus s = true) :
    s ≠ .failed := by
  rintro rfl
  cases h

/-- A fully refunded status means that the balances agree. -/
theorem refunded_eq_captured {a c r : Int} (h : statusForBalances a c r = .refunded) :
    r = c := by
  unfold statusForBalances at h
  split at h
  · split at h
    · rename_i hc
      exact hc.1
    · split at h <;> cases h
  · split at h
    · cases h
    · split at h
      · assumption
      · cases h

/-- A captured status means that everything is captured and nothing refunded. -/
theorem full_of_captured {a c r : Int} (h : statusForBalances a c r = .captured) :
    ¬ c < a ∧ r = 0 := by
  unfold statusForBalances at h
  split at h
  · split at h
    · cases h
    · split at h <;> cases h
  · rename_i hc
    split at h
    · exact ⟨hc, by assumption⟩
    · split at h <;> cases h

/-- An authorized status means that something is left to capture. -/
theorem uncaptured_of_authorized {a c r : Int} (h : statusForBalances a c r = .authorized) :
    c < a := by
  unfold statusForBalances at h
  split at h
  · assumption
  · split at h
    · cases h
    · split at h <;> cases h

/-- Balances that agree are never those of a partial refund. -/
theorem statusForBalances_agreed (a c : Int) :
    statusForBalances a c c ≠ .partiallyRefunded := by
  unfold statusForBalances
  split
  · split
    · simp
    · split
      · omega
      · simp
  · split
    · simp
    · simp

/-! ## The row invariant -/

/-- What every stored payment satisfies. -/
structure RowInv (db : Db) (p : Payment) : Prop where
  tenant : p.id.tenantId = p.tenantId
  positive : 0 < p.amountMinor
  bounded : p.amountMinor ≤ maxAmountMinor
  refunded_nonneg : 0 ≤ p.refundedAmountMinor
  refunded_le : p.refundedAmountMinor ≤ p.capturedAmountMinor
  captured_le : p.capturedAmountMinor ≤ p.amountMinor
  status_eq : settledStatus p.status = true →
    p.status = statusForBalances p.amountMinor p.capturedAmountMinor p.refundedAmountMinor
  uncaptured : settledStatus p.status = false → p.capturedAmountMinor = 0
  proved : p.status ≠ .pending → p.status ≠ .failed →
    ∃ d ∈ db.payment.decisions, decisionMatches d p = true ∧ d.outcome = .authorized
  failed_code : p.status = .failed → p.failureCode.isSome = true
  captured_at : p.capturedAt.isSome = true ↔ p.capturedAmountMinor = p.amountMinor
  authorized_at : ∀ a, p.authorizedAt = some a → a ≤ db.now
  captured_after : capturedAfterAuthorized p = true
  lifecycle : lifecycleCheck p = some true

/-- The decision behind an authorization is found. -/
theorem proof_of_decision {db : Db} {p : Payment}
    (h : ∃ d ∈ db.payment.decisions, decisionMatches d p = true ∧ d.outcome = .authorized) :
    (paymentRow db p).hasProviderDecisionProof = true := by
  obtain ⟨d, hmem, hmatch, houtcome⟩ := h
  unfold paymentRow PaymentRow.hasProviderDecisionProof
  rw [Option.isSome_map, List.find?_isSome]
  exact ⟨d, hmem, by simp [hmatch, houtcome]⟩

/-- The status of a record is the stored one. -/
theorem RowInv.toPaymentStatus_eq {db : Db} {p : Payment} (h : RowInv db p) :
    toPaymentStatus (paymentRow db p) = p.status := by
  unfold toPaymentStatus
  cases hset : settledStatus p.status with
  | false => simp [paymentRow, hset]
  | true =>
    have hproof := proof_of_decision
      (h.proved (ne_pending_of_settled hset) (ne_failed_of_settled hset))
    have hrow : (paymentRow db p).row = p := rfl
    rw [hproof, hrow, hset, if_pos rfl, if_pos rfl]
    exact (h.status_eq hset).symm

/-- A full capture is not one of the statuses without captured funds, so a
payment whose balance is full is stamped. -/
theorem RowInv.stamped {db : Db} {p : Payment} (h : RowInv db p) (hs : p.status = .captured) :
    p.capturedAt.isSome = true := by
  refine h.captured_at.mpr ?_
  have heq := h.status_eq (by rw [hs]; rfl)
  rw [hs] at heq
  unfold statusForBalances at heq
  have hle := h.captured_le
  split at heq
  · split at heq
    · cases heq
    · split at heq <;> cases heq
  · omega

theorem stateCheck_of_lifecycle {p : Payment} (h : lifecycleCheck p = some true) :
    stateCheck p = some true := by
  simp only [lifecycleCheck, stateCheck, Tri.or_eq_true, Tri.and_eq_true, Option.some.injEq,
    decide_eq_true_eq] at h ⊢
  obtain ⟨-, hshape⟩ | ⟨hs, -⟩ | ⟨hs, -⟩ := h
  · exact .inr hshape
  · exact .inl hs
  · exact .inl hs

theorem timestampCheck_of_lifecycle {p : Payment} (h : lifecycleCheck p = some true) :
    timestampCheck p = some true := by
  simp only [lifecycleCheck, pendingShape, timestampCheck, Tri.or_eq_true, Tri.and_eq_true,
    Tri.isNull_eq_true] at h ⊢
  obtain ⟨-, ⟨-, -, hat, -⟩ | ⟨-, -, hat, -⟩⟩ | ⟨-, -, -, hat, -⟩ | ⟨-, hin, -⟩ := h
  · exact .inl hat
  · exact .inl hat
  · exact .inl hat
  · exact .inr hin

/-- The invariant implies every CHECK constraint of the table. -/
theorem RowInv.rowChecks {db : Db} {p : Payment} (h : RowInv db p) :
    PaymentStore.rowChecks p = true := by
  have hmax : maxAmountMinor = 2147483647 := rfl
  have hbound := h.bounded
  have h1 := h.positive
  have h2 := h.refunded_nonneg
  have h3 := h.refunded_le
  have h4 := h.captured_le
  have hcap : (p.status != .captured || p.capturedAt.isSome) = true := by
    by_cases hs : p.status = .captured
    · simp [h.stamped hs]
    · simp [hs]
  have hfail : (p.status != .failed || p.failureCode.isSome) = true := by
    by_cases hs : p.status = .failed
    · simp [h.failed_code hs]
    · simp [hs]
  have hbal : balanceChecks p = true := by
    simp only [balanceChecks, Bool.and_eq_true, decide_eq_true_eq]
    exact ⟨⟨⟨⟨⟨⟨by omega, by omega⟩, by omega, by omega⟩, by omega, by omega⟩, hcap⟩, hfail⟩,
      h.captured_after⟩
  simp only [PaymentStore.rowChecks, Bool.and_eq_true]
  exact ⟨⟨⟨hbal, Tri.passes_of_eq_true (timestampCheck_of_lifecycle h.lifecycle)⟩,
    Tri.passes_of_eq_true (stateCheck_of_lifecycle h.lifecycle)⟩, Tri.passes_of_eq_true h.lifecycle⟩

/-- The invariant survives new decisions and passing time. -/
theorem RowInv.mono {db db' : Db} {p : Payment} (h : RowInv db p)
    (hd : ∀ d ∈ db.payment.decisions, d ∈ db'.payment.decisions) (hn : db.now ≤ db'.now) :
    RowInv db' p :=
  { h with
    proved := fun h1 h2 => by
      obtain ⟨d, hd', hm⟩ := h.proved h1 h2
      exact ⟨d, hd d hd', hm⟩
    authorized_at := fun a ha => le_trans (h.authorized_at a ha) hn }

/-- The lifecycle check reads the status only through `pending`. -/
theorem lifecycle_of_columns {p p' : Payment} (h : lifecycleCheck p = some true)
    (hs : p.status ≠ .pending) (hs' : p'.status ≠ .pending)
    (h1 : p'.pendingResolution = p.pendingResolution)
    (h2 : p'.pendingReconciliationAt = p.pendingReconciliationAt)
    (h3 : p'.pendingResolutionAt = p.pendingResolutionAt)
    (h4 : p'.providerDecisionVerifiedAt = p.providerDecisionVerifiedAt) :
    lifecycleCheck p' = some true := by
  simp only [lifecycleCheck, Tri.or_eq_true, Tri.and_eq_true, Option.some.injEq,
    decide_eq_true_eq, h1, h2, h3, h4] at h ⊢
  obtain ⟨hp, -⟩ | ⟨-, hrest⟩ | ⟨-, hrest⟩ := h
  · exact absurd hp hs
  · exact .inr (.inl ⟨hs', hrest⟩)
  · exact .inr (.inr ⟨hs', hrest⟩)

/-! ## The five writers, row by row -/

/-- A capture within the uncaptured authorization. -/
theorem RowInv.capture {db : Db} {p : Payment} {amount : Int} (h : RowInv db p)
    (hstatus : p.status = .authorized ∨ p.status = .partiallyRefunded ∨ p.status = .refunded)
    (hpos : 0 < amount) (hle : p.capturedAmountMinor + amount ≤ p.amountMinor) :
    RowInv db (applyCapture db.now (p.capturedAmountMinor + amount) p) := by
  have hs : settledStatus p.status = true := by
    rcases hstatus with hs | hs | hs <;> rw [hs] <;> rfl
  have hnone : p.capturedAt = none := by
    cases hc : p.capturedAt with
    | none => rfl
    | some a =>
      have := h.captured_at.mp (by simp [hc])
      omega
  have h2 := h.refunded_nonneg
  have h3 := h.refunded_le
  exact
    { tenant := h.tenant
      positive := h.positive
      bounded := h.bounded
      refunded_nonneg := h.refunded_nonneg
      refunded_le := by simp only [applyCapture]; omega
      captured_le := hle
      status_eq := fun _ => rfl
      uncaptured := fun hf => by
        simp [applyCapture, statusForBalances_settled] at hf
      proved := fun _ _ => h.proved (ne_pending_of_settled hs) (ne_failed_of_settled hs)
      failed_code := fun hf =>
        absurd hf (ne_failed_of_settled (statusForBalances_settled _ _ _))
      captured_at := by
        by_cases hfull : p.capturedAmountMinor + amount = p.amountMinor
        · simp [applyCapture, hfull]
        · simp [applyCapture, hfull, hnone]
      authorized_at := h.authorized_at
      captured_after := by
        by_cases hfull : p.capturedAmountMinor + amount = p.amountMinor
        · cases ha : p.authorizedAt with
          | none => simp [capturedAfterAuthorized, applyCapture, ha]
          | some a =>
            simpa [capturedAfterAuthorized, applyCapture, hfull, hnone, ha] using
              h.authorized_at a ha
        · simp [capturedAfterAuthorized, applyCapture, hfull, hnone]
      lifecycle := lifecycle_of_columns h.lifecycle (ne_pending_of_settled hs)
        (ne_pending_of_settled (statusForBalances_settled _ _ _)) rfl rfl rfl rfl }

/-- A void of an uncaptured authorization. -/
theorem RowInv.void {db : Db} {p : Payment} (h : RowInv db p) (hstatus : p.status = .authorized)
    (hzero : p.capturedAmountMinor = 0) : RowInv db (applyVoid p) :=
  { tenant := h.tenant
    positive := h.positive
    bounded := h.bounded
    refunded_nonneg := h.refunded_nonneg
    refunded_le := h.refunded_le
    captured_le := h.captured_le
    status_eq := fun hf => by cases hf
    uncaptured := fun _ => hzero
    proved := fun _ _ => h.proved (by rw [hstatus]; decide) (by rw [hstatus]; decide)
    failed_code := fun hf => by cases hf
    captured_at := h.captured_at
    authorized_at := h.authorized_at
    captured_after := h.captured_after
    lifecycle := lifecycle_of_columns h.lifecycle (by rw [hstatus]; decide)
      (by simp [applyVoid]) rfl rfl rfl rfl }

/-- A refund within the captured funds. -/
theorem RowInv.refund {db : Db} {p : Payment} {amount : Int} (h : RowInv db p)
    (hstatus : settledStatus p.status = true) (hpos : 0 < amount)
    (hle : p.refundedAmountMinor + amount ≤ p.capturedAmountMinor) :
    RowInv db (applyRefund (p.refundedAmountMinor + amount) p) := by
  have h2 := h.refunded_nonneg
  exact
    { tenant := h.tenant
      positive := h.positive
      bounded := h.bounded
      refunded_nonneg := by simp only [applyRefund]; omega
      refunded_le := hle
      captured_le := h.captured_le
      status_eq := fun _ => rfl
      uncaptured := fun hf => by
        simp [applyRefund, statusForBalances_settled] at hf
      proved := fun _ _ =>
        h.proved (ne_pending_of_settled hstatus) (ne_failed_of_settled hstatus)
      failed_code := fun hf =>
        absurd hf (ne_failed_of_settled (statusForBalances_settled _ _ _))
      captured_at := h.captured_at
      authorized_at := h.authorized_at
      captured_after := h.captured_after
      lifecycle := lifecycle_of_columns h.lifecycle (ne_pending_of_settled hstatus)
        (ne_pending_of_settled (statusForBalances_settled _ _ _)) rfl rfl rfl rfl }

/-- A pending payment has captured nothing and carries no capture time. -/
theorem RowInv.pending_uncaptured {db : Db} {p : Payment} (h : RowInv db p)
    (hp : p.status = .pending) : p.capturedAmountMinor = 0 ∧ p.capturedAt = none := by
  have hzero := h.uncaptured (by rw [hp]; rfl)
  refine ⟨hzero, ?_⟩
  cases hc : p.capturedAt with
  | none => rfl
  | some a =>
    have := h.captured_at.mp (by simp [hc])
    have := h.positive
    omega

/-- A pending payment moved to manual reconciliation. -/
theorem RowInv.quarantine {db : Db} {p : Payment} (h : RowInv db p)
    (hp : p.status = .pending) : RowInv db (PaymentStore.quarantine p) :=
  { tenant := h.tenant
    positive := h.positive
    bounded := h.bounded
    refunded_nonneg := h.refunded_nonneg
    refunded_le := h.refunded_le
    captured_le := h.captured_le
    status_eq := h.status_eq
    uncaptured := h.uncaptured
    proved := h.proved
    failed_code := fun _ => rfl
    captured_at := h.captured_at
    authorized_at := h.authorized_at
    captured_after := h.captured_after
    lifecycle := by simp [lifecycleCheck, pendingShape, PaymentStore.quarantine, hp] }

/-- A pending payment resolved by a matching provider decision. -/
theorem RowInv.resolve {db : Db} {p : Payment} {d : ProviderDecision} (h : RowInv db p)
    (hp : p.status = .pending) (hd : d ∈ db.payment.decisions)
    (hm : decisionMatches d p = true) (hnow : d.verifiedAt ≤ db.now) :
    RowInv db (resolvePayment db.now d p) := by
  obtain ⟨hzero, hnone⟩ := h.pending_uncaptured hp
  have hpos := h.positive
  have hr1 := h.refunded_nonneg
  have hr2 := h.refunded_le
  exact
    { tenant := h.tenant
      positive := h.positive
      bounded := h.bounded
      refunded_nonneg := h.refunded_nonneg
      refunded_le := h.refunded_le
      captured_le := h.captured_le
      status_eq := fun hs => by
        cases ho : d.outcome with
        | authorized =>
          have hrz : p.refundedAmountMinor = 0 := by omega
          simp [resolvePayment, ho, statusForBalances, hzero, hrz, hpos]
        | failed => simp [resolvePayment, ho, settledStatus] at hs
      uncaptured := fun _ => hzero
      proved := fun _ hf => by
        cases ho : d.outcome with
        | authorized =>
          refine ⟨d, hd, ?_, ho⟩
          rw [(sameIdentity_resolve db.now d p).decisionMatches]
          exact hm
        | failed => exact absurd (by simp [resolvePayment, ho]) hf
      failed_code := fun hf => by
        cases ho : d.outcome with
        | authorized => simp [resolvePayment, ho] at hf
        | failed => simp [resolvePayment, ho]
      captured_at := h.captured_at
      authorized_at := fun a ha => by
        cases ho : d.outcome with
        | authorized =>
          cases hauth : p.authorizedAt with
          | none =>
            simp only [resolvePayment, ho, hauth, Option.getD_none, Option.some.injEq] at ha
            omega
          | some b =>
            simp only [resolvePayment, ho, hauth, Option.getD_some, Option.some.injEq] at ha
            have := h.authorized_at b hauth
            omega
        | failed =>
          simp only [resolvePayment, ho] at ha
          exact h.authorized_at a ha
      captured_after := by simp [capturedAfterAuthorized, resolvePayment, hnone]
      lifecycle := by
        cases ho : d.outcome with
        | authorized => simp [lifecycleCheck, resolvePayment, ho]
        | failed => simp [lifecycleCheck, resolvePayment, ho] }

theorem amount_of_requireMoney {m : Money} (h : requireMoney m = none) :
    0 < m.amountMinor ∧ m.amountMinor ≤ maxAmountMinor := by
  unfold requireMoney at h
  split at h
  · cases h
  · rename_i hm
    rw [not_or] at hm
    omega

/-- A validated authorize request carries a validated amount. -/
theorem requireMoney_of_validate {q : Request} {o : OrderId} {m : Money}
    {mt : PaymentMethodType} {token : PaymentToken} (hvalid : validate q = none)
    (hm : q.message = .authorize o m mt token) : requireMoney m = none := by
  unfold validate at hvalid
  rw [hm] at hvalid
  cases hid : requireRequestId q.requestId with
  | some e => simp [hid] at hvalid
  | none =>
    cases hmoney : requireMoney m with
    | some e => simp [hid, hmoney] at hvalid
    | none => rfl

/-- A payment just authorized, with the decision the provider already took. -/
theorem RowInv.new {db db' : Db} {t : TenantId} {r : PaymentRequestId} {o : OrderId}
    {m : Money} {mt : PaymentMethodType} {token : PaymentToken} {status : PaymentStatus}
    {p : Payment} (hmoney : requireMoney m = none)
    (hstatus : databaseStatus (forMethod token) = .ok status)
    (hp : p = newPayment db t r o m mt (forMethod token) status
      (providerDecisionOutcome (forMethod token)))
    (hdec : db'.payment.decisions =
      decisionsAfter db p (providerDecisionOutcome (forMethod token)))
    (hnow : db'.now = db.now) : RowInv db' p := by
  obtain ⟨hpos, hmax⟩ := amount_of_requireMoney hmoney
  have hzero : (0 : Int) ≤ m.amountMinor := le_of_lt hpos
  have hne : (0 : Int) ≠ m.amountMinor := ne_of_lt hpos
  subst hp
  -- one case per arm of the fault policy; the transport arms never get here
  cases token <;> cases hstatus <;>
    constructor <;>
    simp [newPayment, forMethod, providerDecisionOutcome, pendingResolution, settledStatus,
      statusForBalances, capturedAfterAuthorized, lifecycleCheck, pendingShape, hdec, hnow,
      decisionsAfter, decisionFor, decisionMatches, hpos, hmax, hzero, hne]

/-! ## The store invariant -/

/-- The rows, their keys, and one active payment per order. -/
structure StoreInv (db : Db) : Prop where
  rows : ∀ p ∈ db.payment.payments, RowInv db p
  ids : KeyUnique (·.id) db.payment.payments
  oneActive : ∀ p ∈ db.payment.payments, ∀ q ∈ db.payment.payments,
    isActive p = true → isActive q = true → p.tenantId = q.tenantId → p.orderId = q.orderId →
    p.id = q.id
  decided : ∀ d ∈ db.payment.decisions, d.verifiedAt ≤ db.now

/-- The rows after an update of one payment's row. -/
theorem mem_update_row {t : List Payment} {p r : Payment} {sel : Payment → Bool}
    {f : Payment → Payment} (hu : KeyUnique (·.id) t) (hp : p ∈ t)
    (hsel : ∀ q, sel q = true → q.id = p.id) (hr : r ∈ updateWhere sel f t) :
    r ∈ t ∨ r = f p := by
  obtain ⟨q, hq, rfl⟩ := mem_updateWhere.mp hr
  cases hs : sel q with
  | false => exact .inl (by simpa using hq)
  | true =>
    have hqp : q = p := hu.eq_of_mem hq hp (hsel q hs)
    exact .inr (by simp [hqp])

/-- Updating the row of one active payment keeps the store invariant, when the
new row satisfies the row invariant and keeps its identity. -/
theorem StoreInv.update {db : Db} (h : StoreInv db) {p : Payment} {sel : Payment → Bool}
    {f : Payment → Payment} (hp : p ∈ db.payment.payments)
    (hsel : ∀ q, sel q = true → q.id = p.id) (hsame : ∀ q, SameIdentity q (f q))
    (hact : isActive p = true) (hrow : RowInv db (f p)) :
    StoreInv (setPayments db (updateWhere sel f db.payment.payments)) where
  rows := by
    intro r hr
    rcases mem_update_row h.ids hp hsel hr with hr | rfl
    · exact (h.rows r hr).mono (fun _ hd => hd) (le_refl _)
    · exact hrow.mono (fun _ hd => hd) (le_refl _)
  ids := h.ids.updateWhere fun q _ _ => (hsame q).id
  oneActive := by
    -- an active row of the new table stands for an active row of the old one
    have hold : ∀ r ∈ updateWhere sel f db.payment.payments, isActive r = true →
        ∃ r₀ ∈ db.payment.payments, isActive r₀ = true ∧ SameIdentity r₀ r := by
      intro r hr hra
      rcases mem_update_row h.ids hp hsel hr with hr | rfl
      · exact ⟨r, hr, hra, SameIdentity.refl r⟩
      · exact ⟨p, hp, hact, hsame p⟩
    intro r hr r' hr' hra hra' ht ho
    obtain ⟨r₀, h₀, ha₀, hs₀⟩ := hold r hr hra
    obtain ⟨r₁, h₁, ha₁, hs₁⟩ := hold r' hr' hra'
    have := h.oneActive r₀ h₀ r₁ h₁ ha₀ ha₁
      (by rw [← hs₀.tenantId, ← hs₁.tenantId, ht]) (by rw [← hs₀.orderId, ← hs₁.orderId, ho])
    rw [hs₀.id, hs₁.id, this]
  decided := h.decided

/-- Ledger rows and checkout jobs do not matter to the store invariant. -/
theorem StoreInv.congr {db db' : Db} (h : StoreInv db)
    (hp : db'.payment.payments = db.payment.payments)
    (hd : db'.payment.decisions = db.payment.decisions) (hn : db'.now = db.now) :
    StoreInv db' where
  rows := by
    rw [hp]
    intro p hp'
    exact (h.rows p hp').mono (by rw [hd]; exact fun _ hx => hx) (by rw [hn])
  ids := by rw [hp]; exact h.ids
  oneActive := by rw [hp]; exact h.oneActive
  decided := by rw [hd, hn]; exact h.decided

/-- A payment that can still be captured is active. -/
theorem isActive_of_captureable {p : Payment}
    (hstatus : p.status = .authorized ∨ p.status = .partiallyRefunded ∨ p.status = .refunded)
    (hlt : p.capturedAmountMinor < p.amountMinor) : isActive p = true := by
  rcases hstatus with hs | hs | hs <;> simp [isActive, hs, hlt]

/-- A payment with funds left to refund is active. -/
theorem RowInv.isActive_of_refundable {db : Db} {p : Payment} (h : RowInv db p)
    (hstatus : settledStatus p.status = true)
    (hlt : p.refundedAmountMinor < p.capturedAmountMinor) : isActive p = true := by
  have heq := h.status_eq hstatus
  cases hs : p.status with
  | refunded =>
    rw [hs] at heq
    have := refunded_eq_captured heq.symm
    omega
  | authorized => simp [isActive, hs]
  | captured => simp [isActive, hs]
  | partiallyRefunded => simp [isActive, hs]
  | pending => rw [hs] at hstatus; cases hstatus
  | failed => rw [hs] at hstatus; cases hstatus
  | voided => rw [hs] at hstatus; cases hstatus

/-- Every effect either inserts a payment for an order without an active one,
or rewrites the row of one active payment within the row invariant, or leaves
the payments alone. -/
theorem StoreInv.effect {db db' : Db} (h : StoreInv db) (he : Effect Q db db') : StoreInv db' := by
  cases he with
  | refl => exact h
  | refuse => exact h.congr rfl rfl rfl
  | @quarantine p hmem hpending =>
    exact h.update hmem (fun q hq => (isPendingRow_iff.mp hq).2.1)
      (fun q => ⟨rfl, rfl, rfl, rfl, rfl, rfl, rfl⟩) (by simp [isActive, hpending])
      ((h.rows p hmem).quarantine hpending)
  | @resolve p rid d sel hmem hpending hop hdecision hmatch hsel =>
    refine StoreInv.congr (h.update hmem (fun q hq => (isPendingRow_iff.mp hq).2.1)
      (fun q => sameIdentity_resolve db.now d q) (by simp [isActive, hpending])
      ((h.rows p hmem).resolve hpending hdecision hmatch (h.decided d hdecision))) rfl rfl rfl
  | @act q res db₁ hq hvalid hnew hact =>
    refine StoreInv.congr (show StoreInv db₁ from ?_) rfl rfl rfl
    cases hact with
    | @authorize o m mt token order status p hm horder hpay htotal hinact hst hp hfresh =>
      have hmoney : requireMoney m = none := requireMoney_of_validate hvalid hm
      have hnew' : RowInv (setDecisions (setPayments db (db.payment.payments ++ [p]))
          (decisionsAfter db p (providerDecisionOutcome (forMethod token)))) p :=
        RowInv.new hmoney hst hp rfl rfl
      have hto : p.tenantId = q.tenantId ∧ p.orderId = o := by subst hp; exact ⟨rfl, rfl⟩
      refine ⟨?_, h.ids.append_singleton hfresh, ?_, ?_⟩
      · intro r hr
        rcases List.mem_append.mp hr with hr | hr
        · exact (h.rows r hr).mono (fun d hd => List.mem_append_left _ hd) (le_refl _)
        · rw [List.mem_singleton.mp hr]
          exact hnew'
      · intro r hr r' hr' hra hra' ht ho
        -- the order had no active payment before the new one
        rcases List.mem_append.mp hr with hr | hr <;> rcases List.mem_append.mp hr' with hr' | hr'
        · exact h.oneActive r hr r' hr' hra hra' ht ho
        · rw [List.mem_singleton.mp hr'] at ht ho
          rw [hinact r hr (ht.trans hto.1) (ho.trans hto.2)] at hra
          cases hra
        · rw [List.mem_singleton.mp hr] at ht ho
          rw [hinact r' hr' (ht.symm.trans hto.1) (ho.symm.trans hto.2)] at hra'
          cases hra'
        · rw [List.mem_singleton.mp hr, List.mem_singleton.mp hr']
      · intro d hd
        rcases List.mem_append.mp hd with hd | hd
        · exact h.decided d hd
        · simp only [Option.mem_toList, Option.map_eq_some_iff] at hd
          obtain ⟨out, -, rfl⟩ := hd
          exact le_refl _
    | @capture p m amount hm hmem ht hproof hst hpos hle =>
      exact h.update hmem (fun q hq => (isRow_iff.mp hq).2)
        (fun q => ⟨rfl, rfl, rfl, rfl, rfl, rfl, rfl⟩)
        (isActive_of_captureable hst (by omega)) ((h.rows p hmem).capture hst hpos hle)
    | @void p reason hm hmem ht hproof hst hzero =>
      exact h.update hmem (fun q hq => (isRow_iff.mp hq).2)
        (fun q => ⟨rfl, rfl, rfl, rfl, rfl, rfl, rfl⟩) (by simp [isActive, hst])
        ((h.rows p hmem).void hst hzero)
    | @refund p m reason hm hmem ht hproof hst hpos hle =>
      exact h.update hmem (fun q hq => (isRow_iff.mp hq).2)
        (fun q => ⟨rfl, rfl, rfl, rfl, rfl, rfl, rfl⟩)
        ((h.rows p hmem).isActive_of_refundable hst (by omega))
        ((h.rows p hmem).refund hst hpos hle)

/-! ## Runs -/

theorem StoreInv.effects {db db' : Db} (h : StoreInv db) (he : Effects Q db db') : StoreInv db' :=
  he.invariant h fun _ _ ha heff => ha.effect heff

theorem insertDecision_inv {db db' : Db} {d : ProviderDecision} (h : StoreInv db)
    (hd : d.verifiedAt ≤ db.now) (hi : insertDecision db d = .ok db') : StoreInv db' := by
  obtain ⟨rfl, -, -⟩ := insertDecision_ok hi
  refine ⟨?_, h.ids, h.oneActive, ?_⟩
  · intro p hp
    exact (h.rows p hp).mono (fun e he => List.mem_append_left _ he) (le_refl _)
  · intro e he
    rcases List.mem_append.mp he with he | he
    · exact h.decided e he
    · rw [List.mem_singleton.mp he]
      exact hd

/-- Every step of the payment service keeps the store invariant. -/
theorem StoreInv.step {db db' : Db} {a : Action} (h : StoreInv db)
    (hs : PaymentStore.step db a = some db') : StoreInv db' := by
  cases step_effect h.ids hs with
  | store he => exact h.effects he
  | decided hnow hi => exact insertDecision_inv h hnow hi
  | environment elapsed checkout inventory =>
    exact ⟨fun p hp => (h.rows p hp).mono (fun _ hd => hd) (Nat.le_add_right _ _), h.ids,
      h.oneActive, fun d hd => le_trans (h.decided d hd) (Nat.le_add_right _ _)⟩

theorem StoreInv.of_initial {db : Db} (h : Initial db) : StoreInv db := by
  obtain ⟨hp, -, hd⟩ := h
  refine ⟨?_, ?_, ?_, ?_⟩
  · simp [hp]
  · rw [hp]
    exact KeyUnique.nil _
  · simp [hp]
  · simp [hd]

theorem StoreInv.of_reachable {db : Db} (h : Reachable db) : StoreInv db := by
  obtain ⟨db₀, h0, hr⟩ := h
  exact hr.invariant (StoreInv.of_initial h0) fun _ _ _ hinv _ hs => hinv.step hs

/-! ## No write breaks a CHECK -/

theorem StoreInv.update_passes {db : Db} (h : StoreInv db) {p : Payment} {sel : Payment → Bool}
    {f : Payment → Payment} (hp : p ∈ db.payment.payments)
    (hsel : ∀ q, sel q = true → q.id = p.id) (hrow : RowInv db (f p)) :
    writePayments db (updateWhere sel f db.payment.payments) ≠ .error (.sql .check) := by
  refine writePayments_ne_check fun r hr => ?_
  rcases mem_update_row h.ids hp hsel hr with hr | rfl
  · exact (h.rows r hr).rowChecks
  · exact hrow.rowChecks

theorem insertDecision_ne_check {db : Db} {d : ProviderDecision} (h : 0 ≤ d.amountMinor) :
    insertDecision db d ≠ .error (.sql .check) := by
  unfold insertDecision
  split
  · simp
  · split
    · simp
    · split
      · omega
      · simp

theorem action_ne_check {db : Db} {q : Request} (h : StoreInv db) (hvalid : validate q = none) :
    action q db ≠ .error (.sql .check) := by
  intro hc
  cases hm : q.message with
  | authorize o m mt token =>
    simp only [action, hm] at hc
    obtain ⟨e, he⟩ | ⟨msg, he⟩ | ⟨order, status, p, -, -, -, -, hst, hp, heq⟩ :=
      authorizeOnce_cases q.tenantId q.requestId o m mt (forMethod token) db
    · cases he.symm.trans hc
    · cases he.symm.trans hc
    · have hmoney := requireMoney_of_validate hvalid hm
      have hrow : RowInv (setDecisions (setPayments db (db.payment.payments ++ [p]))
          (decisionsAfter db p (providerDecisionOutcome (forMethod token)))) p :=
        RowInv.new hmoney hst hp rfl rfl
      have herr := map_error (heq.symm.trans hc)
      unfold insertPayment at herr
      cases hw : writePayments db (db.payment.payments ++ [p]) with
      | error e =>
        rw [hw] at herr
        cases herr
        refine writePayments_ne_check (fun r hr => ?_) hw
        rcases List.mem_append.mp hr with hr | hr
        · exact (h.rows r hr).rowChecks
        · rw [List.mem_singleton.mp hr]
          exact hrow.rowChecks
      | ok db₁ =>
        rw [hw] at herr
        change recordDecision db₁ p (providerDecisionOutcome (forMethod token)) = _ at herr
        cases hout : providerDecisionOutcome (forMethod token) with
        | none =>
          rw [hout] at herr
          cases herr
        | some out =>
          rw [hout] at herr
          exact insertDecision_ne_check (le_of_lt hrow.positive) herr
  | capture id m =>
    simp only [action, hm] at hc
    obtain ⟨e, he⟩ | ⟨p, hmem, amount, -, rfl, -, hst, hpos, hle, -, heq⟩ :=
      captureOnce_cases q.tenantId id m db
    · cases he.symm.trans hc
    · exact h.update_passes hmem (fun r hr => (isRow_iff.mp hr).2)
        ((h.rows p hmem).capture hst hpos hle) (map_error (heq.symm.trans hc))
  | void id reason =>
    simp only [action, hm] at hc
    obtain ⟨e, he⟩ | ⟨p, hmem, -, rfl, -, hst, hzero, heq⟩ := voidOnce_cases q.tenantId id db
    · cases he.symm.trans hc
    · exact h.update_passes hmem (fun r hr => (isRow_iff.mp hr).2)
        ((h.rows p hmem).void hst hzero) (map_error (heq.symm.trans hc))
  | refund id m reason =>
    simp only [action, hm] at hc
    obtain ⟨e, he⟩ | ⟨p, hmem, -, rfl, -, hst, hpos, hle, heq⟩ :=
      refundOnce_cases q.tenantId id m db
    · cases he.symm.trans hc
    · exact h.update_passes hmem (fun r hr => (isRow_iff.mp hr).2)
        ((h.rows p hmem).refund hst hpos hle) (map_error (heq.symm.trans hc))

theorem requeueCheckoutReconciliation_ne_check (db : Db) (c : PendingPayment) :
    requeueCheckoutReconciliation db c ≠ .error (.sql .check) := by
  unfold requeueCheckoutReconciliation
  split
  · simp
  · dsimp only
    split <;> simp

theorem reconcilePending_ne_check {db : Db} {c : PendingPayment} {r : PaymentRow}
    (h : StoreInv db) (hmem : r.row ∈ db.payment.payments) (hsame : SameIdentity c.row r.row) :
    reconcilePending c r db ≠ .error (.sql .check) := by
  intro hc
  unfold reconcilePending at hc
  split at hc
  · cases hc
  · rename_i hpending
    have hpending' : r.row.status = .pending := not_not.mp hpending
    have hsel : ∀ q, isPendingRow c.row.tenantId c.row.id q = true → q.id = r.row.id :=
      fun q hq => (isPendingRow_iff.mp hq).2.1.trans hsame.id.symm
    split at hc
    · rcases bind_error hc with hw | ⟨db₁, -, h₁⟩
      · exact h.update_passes hmem hsel ((h.rows _ hmem).quarantine hpending') hw
      · cases h₁
    · rename_i d hlookup
      obtain ⟨hd, hdm⟩ := find?_some_spec hlookup
      rcases bind_error hc with hw | ⟨db₁, -, h₁⟩
      · exact h.update_passes hmem hsel ((h.rows _ hmem).resolve hpending' hd
          (by rw [hsame.decisionMatches d]; exact hdm) (h.decided d hd)) hw
      · split at h₁
        · cases h₁
        · dsimp only at h₁
          split at h₁
          · cases h₁
          · rcases bind_error h₁ with hq | ⟨db₂, -, h₂⟩
            · exact requeueCheckoutReconciliation_ne_check _ _ hq
            · cases h₂

theorem reconcilePendingPayment_ne_check {db : Db} (h : StoreInv db) (t : TenantId)
    (id : PaymentId) : reconcilePendingPayment t id db ≠ .error (.sql .check) := by
  intro hc
  unfold reconcilePendingPayment at hc
  split at hc
  · cases hc
  · rename_i c hpend
    obtain ⟨hmem, -, -, hfind, -⟩ := findPendingPayment_some hpend
    split at hc
    · cases hc
    · rename_i r hr
      have hrow : r.row = c.row := by
        unfold findPayment at hr
        rw [hfind] at hr
        cases hr
        rfl
      exact reconcilePending_ne_check h (by rw [hrow]; exact hmem)
        (by rw [hrow]; exact SameIdentity.refl _) hc

/-- The batch, candidate by candidate: each one is reconciled in a state that
satisfies the invariant. -/
theorem reconcileAll_ne_check {cs : List PendingPayment} {db : Db} (h : StoreInv db)
    (hrows : ∀ c ∈ cs, ∃ p ∈ db.payment.payments, SameIdentity c.row p)
    (hops : ∀ c ∈ cs, ∃ o ∈ db.payment.operations, Authorizes c.row c.requestId o) :
    reconcileAll cs db ≠ .error (.sql .check) := by
  induction cs generalizing db with
  | nil => simp [reconcileAll]
  | cons c cs ih =>
    have hrows' : ∀ c' ∈ cs, ∃ p ∈ db.payment.payments, SameIdentity c'.row p :=
      fun c' hc' => hrows c' (by simp [hc'])
    have hops' : ∀ c' ∈ cs, ∃ o ∈ db.payment.operations, Authorizes c'.row c'.requestId o :=
      fun c' hc' => hops c' (by simp [hc'])
    intro hc
    unfold reconcileAll at hc
    split at hc
    · rename_i r hr
      split at hc
      · obtain ⟨hmem, ht, hid, -⟩ := findPayment_some hr
        obtain ⟨hsame, hop⟩ := candidate_row h.ids (hrows c (by simp)) (hops c (by simp)) hmem
          ht hid
        rcases bind_error hc with h₁ | ⟨⟨k, db₁⟩, h₁, h₂⟩
        · exact reconcilePending_ne_check h hmem hsame h₁
        · have heff : Effect (.payment c.row.tenantId c.row.id) db db₁ :=
            reconcilePending_effect h₁ hmem hsame hop (Scope.payment_self _ _)
          rcases bind_error h₂ with h₃ | ⟨⟨m, db₂⟩, -, h₄⟩
          · exact ih (h.effect heff) (heff.candidates_rows hrows') (heff.candidates_ops hops') h₃
          · cases h₄
      · exact ih h hrows' hops' hc
    · exact ih h hrows' hops' hc

theorem reconcilePendingPayments_ne_check {db : Db} (h : StoreInv db) (n : Nat)
    (keys : List (TenantId × PaymentId)) :
    reconcilePendingPayments n keys db ≠ .error (.sql .check) := by
  unfold reconcilePendingPayments
  split
  · simp
  · exact reconcileAll_ne_check h (fun c hc => (batch_rows hc).1) (fun c hc => (batch_rows hc).2.2)

theorem insertOperation_ne_check (db : Db) (o : StoredOperation) :
    insertOperation db o ≠ .error (.sql .check) := by
  unfold insertOperation
  split
  · simp
  · split <;> simp

theorem executeIdempotently_ne_check {db : Db} {q : Request} (h : StoreInv db)
    (hvalid : validate q = none) : executeIdempotently q db ≠ .error (.sql .check) := by
  intro hc
  unfold executeIdempotently at hc
  split at hc
  · rename_i stored hstored
    split at hc
    · cases hc
    · split at hc
      · rcases bind_error hc with h₁ | ⟨db₁, -, h₂⟩
        · unfold reconcileStoredPending at h₁
          split at h₁
          · cases h₁
          · exact reconcilePendingPayment_ne_check h _ _ (map_error h₁)
        · split at h₂ <;> cases h₂
      · cases hc
  · split at hc
    · rcases bind_error hc with h₁ | ⟨db₁, -, h₂⟩
      · exact insertOperation_ne_check _ _ h₁
      · cases h₂
    · rcases bind_error hc with h₁ | ⟨db₁, -, h₂⟩
      · exact insertOperation_ne_check _ _ h₁
      · cases h₂
    · rename_i e hne hact
      cases hc
      exact action_ne_check h hvalid hact

theorem getPayment_ne_check {db : Db} (h : StoreInv db) (t : TenantId) (id : PaymentId) :
    getPayment t id db ≠ .error (.sql .check) := by
  intro hc
  unfold getPayment at hc
  rcases bind_error hc with h₁ | ⟨⟨n, db₁⟩, -, h₂⟩
  · exact reconcilePendingPayment_ne_check h _ _ h₁
  · dsimp only at h₂
    split at h₂ <;> cases h₂

/-! ## The balances of every run -/

/-- The balances and statuses of all payments. -/
def balances (db : Db) : List (PaymentId × PaymentStatus × Int × Int) :=
  db.payment.payments.map fun p =>
    (p.id, p.status, p.capturedAmountMinor, p.refundedAmountMinor)

/-- An order of 500 whose payment is captured in two parts around a partial
refund. -/
def sampleStart : Db where
  now := 0
  nextUuid := 0
  checkout :=
    { attempts := []
      orders := [⟨10, 1, ⟨1, 1⟩, 1, 1, .pending, 1, 500, 0, 0, 500, none, []⟩]
      carts := []
      promotions := []
      tasks := []
      reconciliations := []
      outbox := []
      exposures := []
      analytics := [] }
  payment := ⟨0, [], [], []⟩
  inventory := ⟨[], [], [], []⟩

/-- The payment of the sample order. -/
def samplePayment : PaymentId := ⟨1, .raw ⟨7, 4⟩⟩

def sampleRun : List Action :=
  [.request ⟨1, .raw ⟨7, 4⟩, .authorize 10 ⟨1, 500⟩ .card (.other 0)⟩,
    .request ⟨1, .raw ⟨8, 4⟩, .capture samplePayment (some ⟨1, 300⟩)⟩,
    .request ⟨1, .raw ⟨9, 4⟩, .refund samplePayment ⟨1, 300⟩ .other⟩,
    .request ⟨1, .raw ⟨10, 4⟩, .capture samplePayment none⟩]

def sampleState : Db := (run step sampleStart sampleRun).getD sampleStart

theorem reachable_of_run {db : Db} (h : Initial db) (as : List Action) :
    Reachable ((run step db as).getD db) := by
  cases hr : run step db as with
  | none => exact ⟨db, h, Reach.refl⟩
  | some db' => exact ⟨db, h, reach_of_run hr⟩

theorem sampleState_reachable : Reachable sampleState :=
  reachable_of_run ⟨rfl, rfl, rfl⟩ sampleRun

/-- An effect never rewrites the row of an inactive payment. -/
theorem StoreInv.inactive_kept {db db' : Db} (h : StoreInv db) (he : Effect Q db db') :
    ∀ p ∈ db.payment.payments, isActive p = false → p ∈ db'.payment.payments := by
  intro p hp hin
  -- an update of an active payment's row leaves every other row alone
  have hkeep : ∀ {r : Payment} {sel : Payment → Bool} {f : Payment → Payment},
      r ∈ db.payment.payments → isActive r = true → (∀ q, sel q = true → q.id = r.id) →
      p ∈ updateWhere sel f db.payment.payments := by
    intro r sel f hr hra hsel
    cases hs : sel p with
    | false => exact mem_updateWhere_of_not hp hs
    | true =>
      rw [h.ids.eq_of_mem hp hr (hsel p hs), hra] at hin
      cases hin
  cases he with
  | refl => exact hp
  | refuse => exact hp
  | quarantine hmem hpending =>
    exact hkeep hmem (by simp [isActive, hpending]) fun q hq => (isPendingRow_iff.mp hq).2.1
  | resolve hmem hpending =>
    exact hkeep hmem (by simp [isActive, hpending]) fun q hq => (isPendingRow_iff.mp hq).2.1
  | act hq hvalid hnew hact =>
    cases hact with
    | authorize => exact List.mem_append_left _ hp
    | capture hm hmem ht hproof hst hpos hle =>
      exact hkeep hmem (isActive_of_captureable hst (by omega)) fun q hq => (isRow_iff.mp hq).2
    | void hm hmem ht hproof hst hzero =>
      exact hkeep hmem (by simp [isActive, hst]) fun q hq => (isRow_iff.mp hq).2
    | refund hm hmem ht hproof hst hpos hle =>
      exact hkeep hmem ((h.rows _ hmem).isActive_of_refundable hst (by omega))
        fun q hq => (isRow_iff.mp hq).2

theorem StoreInv.inactive_step {db db' : Db} {a : Action} (h : StoreInv db)
    (hs : PaymentStore.step db a = some db') :
    ∀ p ∈ db.payment.payments, isActive p = false → p ∈ db'.payment.payments := by
  cases step_effect h.ids hs with
  | store he =>
    exact he.relates (I := StoreInv)
      (R := fun a b => ∀ p ∈ a.payment.payments, isActive p = false → p ∈ b.payment.payments)
      h (fun _ _ ha heff => ha.effect heff) (fun _ _ hp _ => hp)
      (fun _ _ _ h₁ h₂ p hp hin => h₂ p (h₁ p hp hin) hin)
      (fun _ _ ha heff => ha.inactive_kept heff)
  | decided hnow hi =>
    obtain ⟨rfl, -, -⟩ := insertDecision_ok hi
    exact fun p hp _ => hp
  | environment => exact fun p hp _ => hp

/-- The partial unique index holds a subset of the active payments. -/
theorem isActive_of_indexed {p : Payment} (h : indexed p = true) : isActive p = true := by
  unfold indexed at h
  unfold isActive
  cases hs : p.status <;> simp [hs] at h ⊢

/-- A table with one active payment per order satisfies the partial unique
index. -/
theorem activeOrderKeys_nodup {t : List Payment} (hids : KeyUnique (·.id) t)
    (hone : ∀ p ∈ t, ∀ q ∈ t, isActive p = true → isActive q = true →
      p.tenantId = q.tenantId → p.orderId = q.orderId → p.id = q.id) :
    (activeOrderKeys t).Nodup := by
  have hnd : t.Nodup := List.Nodup.of_map _ hids
  refine List.Nodup.map_on ?_ (hnd.filter _)
  intro p hp q hq heq
  obtain ⟨hp, hpi⟩ := List.mem_filter.mp hp
  obtain ⟨hq, hqi⟩ := List.mem_filter.mp hq
  obtain ⟨ht, ho⟩ := Prod.mk.inj heq
  exact hids.eq_of_mem hp hq
    (hone p hp q hq (isActive_of_indexed hpi) (isActive_of_indexed hqi) ht ho)

theorem captureOnce_ne_index {db : Db} (h : StoreInv db) (t : TenantId) (id : PaymentId)
    (m : Option Money) : captureOnce t id m db ≠ .error (.sql .activeOrderIndex) := by
  intro hc
  obtain ⟨e, he⟩ | ⟨p, hmem, amount, -, rfl, -, hst, hpos, hle, -, heq⟩ :=
    captureOnce_cases t id m db
  · cases he.symm.trans hc
  · have hupd : StoreInv (setPayments db (updateWhere (isRow t p.id)
        (applyCapture db.now (p.capturedAmountMinor + amount)) db.payment.payments)) :=
      h.update hmem (fun q hq => (isRow_iff.mp hq).2)
        (fun q => ⟨rfl, rfl, rfl, rfl, rfl, rfl, rfl⟩)
        (isActive_of_captureable hst (by omega)) ((h.rows p hmem).capture hst hpos hle)
    have hw := map_error (heq.symm.trans hc)
    unfold writePayments at hw
    split at hw
    · cases hw
    · split at hw
      · cases hw
      · split at hw
        · rename_i hdup
          exact hdup (activeOrderKeys_nodup hupd.ids hupd.oneActive)
        · cases hw

/-- At most one payment of an order is active, an inactive payment is never
rewritten again, and the partial unique index never rejects a capture. -/
theorem one_active_payment {db : Db} (h : Reachable db) :
    (∀ p ∈ db.payment.payments, ∀ q ∈ db.payment.payments,
      isActive p = true → isActive q = true → p.tenantId = q.tenantId → p.orderId = q.orderId →
      p = q) ∧
    (∀ db', Reach step (fun _ _ => True) db db' →
      ∀ p ∈ db.payment.payments, isActive p = false →
        ∀ p' ∈ db'.payment.payments, p'.id = p.id → p' = p ∧ isActive p' = false) ∧
    (∀ t id m, captureOnce t id m db ≠ .error (.sql .activeOrderIndex)) := by
  have hinv : StoreInv db := StoreInv.of_reachable h
  refine ⟨?_, ?_, captureOnce_ne_index hinv⟩
  · intro p hp q hq hpa hqa ht ho
    exact hinv.ids.eq_of_mem hp hq (hinv.oneActive p hp q hq hpa hqa ht ho)
  · intro db' hr p hp hin p' hp' hid
    have hkept : p ∈ db'.payment.payments :=
      hr.relates (I := StoreInv)
        (R := fun a b => ∀ p ∈ a.payment.payments, isActive p = false → p ∈ b.payment.payments)
        hinv (fun _ _ _ ha _ hs => ha.step hs) (fun _ _ hp _ => hp)
        (fun _ _ _ h₁ h₂ p hp hin => h₂ p (h₁ p hp hin) hin)
        (fun _ _ _ ha _ hs => ha.inactive_step hs) p hp hin
    have hinv' : StoreInv db' := hr.invariant hinv fun _ _ _ ha _ hs => ha.step hs
    have heq : p' = p := hinv'.ids.eq_of_mem hp' hkept hid
    exact ⟨heq, by rw [heq]; exact hin⟩

theorem one_active_payment_sample :
    (sampleState.payment.payments.filter isActive).length = 1 ∧
      captureOnce 1 samplePayment none sampleState ≠ .error (.sql .activeOrderIndex) :=
  ⟨by decide, (one_active_payment sampleState_reachable).2.2 _ _ _⟩

end CommercePlayground.PaymentStore
