/-
CommercePlayground.Checkout.CompensationTheorems — what a confirmed
compensation is worth, and that the compensation loop reaches one.

* `confirmed_final`: a payment whose compensation is confirmed is never
  rewritten again, unless part of the authorization was left uncaptured and is
  captured after all.
-/
import CommercePlayground.Checkout.Flow
import CommercePlayground.Payment.LedgerTheorems

namespace CommercePlayground.Checkout

open Lib PaymentStore

/-! ## Confirmed compensations -/

/-- A payment that holds nothing: voided, failed or refunded, with everything
that was captured refunded. -/
structure Settled (p : Payment) : Prop where
  status : p.status = .voided ∨ p.status = .failed ∨ p.status = .refunded
  balance : p.capturedAmountMinor = p.refundedAmountMinor

/-- The status and the balances of a record. -/
def snapshotOf (record : PaymentRecord) : PaymentSnapshot :=
  ⟨record.status, record.failureReason, record.capturedAmount, record.refundedAmount⟩

/-- A snapshot shows the status and the balances of its record. -/
theorem snapshot_of_valid {order : PendingOrder} {id : PaymentId} {record : PaymentRecord}
    {s : PaymentSnapshot} (h : validateSnapshot order id record = .ok s) :
    s = snapshotOf record := by
  unfold validateSnapshot at h
  split at h
  · cases h
  · split at h
    · cases h
    · cases h
      rfl

/-- What a confirmed snapshot says about the stored payment. -/
theorem settled_of_confirmed {db : Db} {p : Payment} {order : PendingOrder} {id : PaymentId}
    {s : PaymentSnapshot} (hrow : RowInv db p)
    (hs : validateSnapshot order id (toRecord (paymentRow db p)) = .ok s)
    (hconfirmed : paymentCompensationConfirmed s = true) : Settled p := by
  have hstatus : s.status = p.status := by
    rw [snapshot_of_valid hs]
    exact hrow.toPaymentStatus_eq
  have hcaptured : s.capturedMinor = p.capturedAmountMinor := by
    rw [snapshot_of_valid hs]
    rfl
  have hrefunded : s.refundedMinor = p.refundedAmountMinor := by
    rw [snapshot_of_valid hs]
    rfl
  unfold paymentCompensationConfirmed at hconfirmed
  rw [hstatus, hcaptured, hrefunded] at hconfirmed
  cases hst : p.status with
  | voided =>
    simp only [hst, decide_eq_true_eq] at hconfirmed
    exact ⟨.inl hst, by omega⟩
  | failed =>
    simp only [hst, decide_eq_true_eq] at hconfirmed
    exact ⟨.inr (.inl hst), by omega⟩
  | refunded =>
    simp only [hst, decide_eq_true_eq] at hconfirmed
    exact ⟨.inr (.inr hst), hconfirmed⟩
  | partiallyRefunded =>
    simp only [hst, decide_eq_true_eq] at hconfirmed
    have heq := hrow.status_eq (by rw [hst]; rfl)
    rw [hst, ← hconfirmed] at heq
    exact absurd heq.symm (statusForBalances_agreed _ _)
  | pending | authorized | captured => simp [hst] at hconfirmed

/-- No statement rewrites a settled payment, apart from the capture of what was
left of its authorization. -/
theorem Settled.kept {Q : Scope} {db db' : Db} {p : Payment} (hp : Settled p)
    (hinv : StoreInv db) (hmem : p ∈ db.payment.payments) (he : PaymentStore.Effect Q db db')
    (hcapture : ∀ q, Q.requests q → ∀ m, q.message = .capture p.id m →
      p.capturedAmountMinor < p.amountMinor → p.status ≠ .refunded) :
    p ∈ db'.payment.payments := by
  -- an update of another payment's row
  have hother : ∀ {r : Payment} {sel : Payment → Bool} {f : Payment → Payment},
      r ≠ p → r ∈ db.payment.payments → (∀ q, sel q = true → q.id = r.id) →
      p ∈ updateWhere sel f db.payment.payments := by
    intro r sel f hne hr hsel
    refine mem_updateWhere_of_not hmem ?_
    cases hs : sel p with
    | false => rfl
    | true => exact absurd (hinv.ids.eq_of_mem hmem hr (hsel p hs)).symm hne
  have hstatus := hp.status
  cases he with
  | refl => exact hmem
  | refuse => exact hmem
  | quarantine hr hpending =>
    refine hother ?_ hr fun q hq => (isPendingRow_iff.mp hq).2.1
    rintro rfl
    simp [hpending] at hstatus
  | resolve hr hpending =>
    refine hother ?_ hr fun q hq => (isPendingRow_iff.mp hq).2.1
    rintro rfl
    simp [hpending] at hstatus
  | act hq hvalid hnew hact =>
    cases hact with
    | authorize => exact List.mem_append_left _ hmem
    | capture hm hr ht hproof hst hpos hle =>
      refine hother ?_ hr fun q hq => (isRow_iff.mp hq).2
      rintro rfl
      have hne := hcapture _ hq _ hm (by omega)
      rcases hst with hst | hst | hst <;> simp [hst] at hstatus hne
    | void hm hr ht hproof hst hzero =>
      refine hother ?_ hr fun q hq => (isRow_iff.mp hq).2
      rintro rfl
      simp [hst] at hstatus
    | refund hm hr ht hproof hst hpos hle =>
      refine hother ?_ hr fun q hq => (isRow_iff.mp hq).2
      rintro rfl
      have := hp.balance
      omega

/-- The run may not capture what is left of a refunded payment's
authorization. -/
def LeavesUncaptured (p : Payment) (a : PaymentStore.Action) : Prop :=
  p.status = .refunded → p.capturedAmountMinor < p.amountMinor →
    ∀ q m, a = .request q → q.message ≠ .capture p.id m

theorem Settled.step {db db' : Db} {p : Payment} {a : PaymentStore.Action} (hp : Settled p)
    (hinv : StoreInv db) (hmem : p ∈ db.payment.payments) (ha : LeavesUncaptured p a)
    (hs : PaymentStore.step db a = some db') : p ∈ db'.payment.payments := by
  cases step_effect hinv.ids hs with
  | store he =>
    have hkept : StoreInv db' ∧ p ∈ db'.payment.payments := by
      refine he.invariant (I := fun db => StoreInv db ∧ p ∈ db.payment.payments) ⟨hinv, hmem⟩ ?_
      rintro db₁ db₂ ⟨hinv₁, hmem₁⟩ heff
      refine ⟨hinv₁.effect heff, hp.kept hinv₁ hmem₁ heff ?_⟩
      intro q hq m hm hlt hst
      exact ha hst hlt q m (scope_request hq) hm
    exact hkept.2
  | decided hnow hi =>
    obtain ⟨rfl, -, -⟩ := insertDecision_ok hi
    exact hmem
  | environment => exact hmem

/-- Compensation that was once confirmed is final: the payment's row is never
rewritten again. The exception is a refunded payment whose authorization was
not captured in full, as long as nobody captures the rest. -/
theorem confirmed_final {db : Db} (h : Reachable db) {p : Payment}
    (hmem : p ∈ db.payment.payments) {order : PendingOrder} {id : PaymentId}
    {s : PaymentSnapshot}
    (hs : validateSnapshot order id (toRecord (paymentRow db p)) = .ok s)
    (hconfirmed : paymentCompensationConfirmed s = true) :
    ∀ db', Reach PaymentStore.step (fun _ a => LeavesUncaptured p a) db db' →
      ∀ p' ∈ db'.payment.payments, p'.id = p.id →
        p' = p ∧ ¬ p'.refundedAmountMinor < p'.capturedAmountMinor := by
  intro db' hr p' hp' hid
  have hinv : StoreInv db := StoreInv.of_reachable h
  have hsettled : Settled p := settled_of_confirmed (hinv.rows p hmem) hs hconfirmed
  have hkept : StoreInv db' ∧ p ∈ db'.payment.payments := by
    refine hr.invariant (I := fun db => StoreInv db ∧ p ∈ db.payment.payments) ⟨hinv, hmem⟩ ?_
    rintro db₁ a db₂ ⟨hinv₁, hmem₁⟩ ha hstep
    exact ⟨hinv₁.step hstep, hsettled.step hinv₁ hmem₁ ha hstep⟩
  have heq : p' = p := hkept.1.ids.eq_of_mem hp' hkept.2 hid
  have hbalance := hsettled.balance
  exact ⟨heq, by rw [heq]; omega⟩

/-- The sample payment after its first capture is refunded: 300 of 500. -/
def refundedState : Db :=
  (run PaymentStore.step PaymentStore.sampleStart (sampleRun.take 3)).getD
    PaymentStore.sampleStart

def refundedPayment : Payment := refundedState.payment.payments.head (by decide)

/-- The order of the sample payment, as checkout knows it. -/
def sampleOrder : PendingOrder where
  id := 10
  cartId := 1
  tenantId := 1
  customerId := 1
  sessionId := 1
  currency := 1
  lines := []
  subtotalMinor := 500
  discountMinor := 0
  taxMinor := 0
  totalMinor := 500
  promotionCode := none

/-- The snapshot of the sample payment. -/
def refundedSnapshot : PaymentSnapshot := ⟨.refunded, .unspecified, 300, 300⟩

theorem refundedState_reachable : Reachable refundedState :=
  reachable_of_run ⟨rfl, rfl, rfl⟩ (sampleRun.take 3)

theorem refundedPayment_stored : refundedPayment ∈ refundedState.payment.payments :=
  List.head_mem _

/-- A refunded payment with an uncaptured rest is confirmed, and the rest can
be captured afterwards. -/
theorem confirmed_recaptured :
    ¬ ∀ db, Reachable db → ∀ p ∈ db.payment.payments, ∀ order id s,
      validateSnapshot order id (toRecord (paymentRow db p)) = .ok s →
      paymentCompensationConfirmed s = true →
      ∀ db', Reach PaymentStore.step (fun _ _ => True) db db' →
        ∀ p' ∈ db'.payment.payments, p'.id = p.id →
          ¬ p'.refundedAmountMinor < p'.capturedAmountMinor := by
  intro h
  have hrun : run PaymentStore.step refundedState (sampleRun.drop 3) = some sampleState := rfl
  have hlater := h refundedState refundedState_reachable refundedPayment refundedPayment_stored
    sampleOrder samplePayment refundedSnapshot rfl rfl sampleState (reach_of_run hrun)
  revert hlater
  decide

/-- A void that comes after the refund. -/
def lateVoid : PaymentStore.Action :=
  .request ⟨1, .raw ⟨11, 4⟩, .void samplePayment .orderCancelled⟩

def voidedLate : Db := (run PaymentStore.step refundedState [lateVoid]).getD refundedState

theorem confirmed_final_sample :
    balances voidedLate = [(samplePayment, .refunded, 300, 300)] ∧
      ∀ p ∈ voidedLate.payment.payments, p.id = refundedPayment.id →
        ¬ p.refundedAmountMinor < p.capturedAmountMinor := by
  refine ⟨by decide, fun p hp hid => ?_⟩
  have hrun : run PaymentStore.step refundedState [lateVoid] = some voidedLate := rfl
  have hreach : Reach PaymentStore.step (fun _ a => LeavesUncaptured refundedPayment a)
      refundedState voidedLate := by
    refine reach_of_run_all hrun ?_
    intro a ha v hst hlt q m hq hm
    rw [List.mem_singleton.mp ha] at hq
    cases hq
    cases hm
  have hs : validateSnapshot sampleOrder samplePayment
      (toRecord (paymentRow refundedState refundedPayment)) = .ok refundedSnapshot := rfl
  exact (confirmed_final refundedState_reachable refundedPayment_stored hs rfl voidedLate hreach
    p hp hid).2

end CommercePlayground.Checkout
