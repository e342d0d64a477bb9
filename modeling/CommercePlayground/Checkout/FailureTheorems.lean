/-
CommercePlayground.Checkout.FailureTheorems — when the reconciliation worker
gives a checkout up while the payment still holds funds.

`reconcile_pending_payment` looks at the payment, and once more after a
capture. From a payment that failed, was voided or was refunded nothing is
held; after a capture the worker records a compensation before it gives up. A
partially refunded payment is given up as it is: the rest of the captured
funds stays where it is, and no compensation is recorded.

* `gives_up_unheld_iff`: the two looks for which no run gives up held funds.
-/
import CommercePlayground.Checkout.Processes
import CommercePlayground.Checkout.CompensationTheorems

namespace CommercePlayground.Checkout

open Lib PaymentStore

/-! ## What a run observes -/

/-- An effect a process performed, with its result. -/
abbrev Performed := Σ e : Effect, e.Result

/-- The payment record an effect brought. -/
def recordOf : Performed → Option (PaymentId × PaymentRecord)
  | ⟨.call (.getPayment _ id), .ok record⟩ => some (id, record)
  | _ => none

/-- The payment records of a run, in order. -/
def records (trace : List Performed) : List (PaymentId × PaymentRecord) :=
  trace.filterMap recordOf

/-- The snapshots of a run, in order: the records `get_payment_snapshot`
accepts. -/
def snapshots (order : PendingOrder) (trace : List Performed) : List PaymentSnapshot :=
  (records trace).filterMap fun r => (validateSnapshot order r.1 r.2).toOption

/-- The order a transaction loaded. -/
def orderOf : Performed → Option PendingOrder
  | ⟨.tx (.loadPendingOrder ..), .ok order⟩ => some order
  | _ => none

/-- A compensation of the payment was recorded. -/
def enqueues : Performed → Bool
  | ⟨.tx (.enqueuePaymentCompensationTask ..), .ok _⟩ => true
  | _ => false

/-- The worker gave up a payment that holds nothing, or recorded its
compensation before. -/
def Unheld (order : PendingOrder) (trace : List Performed) : Prop :=
  (∃ s, (snapshots order trace).getLast? = some s ∧ s.status ≠ .pending ∧
    s.status ≠ .authorized ∧ s.capturedMinor = s.refundedMinor) ∨
  trace.any enqueues = true

/-! ## The job and the replies -/

/-- A claimed job that was registered for an order. -/
structure RegisteredFor (order : PendingOrder) (job : PaymentReconciliationJob) : Prop where
  tenantId : job.tenantId = order.tenantId
  orderId : job.orderId = order.id
  authorizeRequestId : job.authorizeRequestId = .authorize job.requestId
  merchantReference : job.merchantReference = order.id
  amountMinor : job.amountMinor = order.totalMinor
  currency : job.currency = order.currency

/-- A row as `register_pending_payment_reconciliation` writes it, whatever
happens to its status, its lease and its payment until a worker claims it. -/
theorem registeredFor_jobOf {order : PendingOrder} {lease : CheckoutLease} {db : Db}
    {paymentId : Option PaymentId} {method : PaymentMethodType} {r : Reconciliation}
    {token : Nat}
    (h : r = { newReconciliation db order lease paymentId method with
      paymentId := r.paymentId, status := r.status, checkoutLeaseToken := r.checkoutLeaseToken,
      attempts := r.attempts, availableAt := r.availableAt, leaseToken := r.leaseToken,
      leaseExpiresAt := r.leaseExpiresAt }) : RegisteredFor order (jobOf token r) := by
  rw [h]
  exact ⟨rfl, rfl, rfl, rfl, rfl, rfl⟩

/-- A record of the order's payment that the payment store can return. -/
structure RecordFor (order : PendingOrder) (id : PaymentId) (record : PaymentRecord) : Prop where
  stored : ∃ db, Reachable db ∧ ∃ p ∈ db.payment.payments, record = toRecord (paymentRow db p)
  paymentId : record.paymentId = id
  merchantReference : record.merchantReference = order.id
  currency : record.currency = order.currency
  authorizedAmount : record.authorizedAmount = order.totalMinor

/-- The replies of a run: the order is the job's, and the first two records of
the payment are `first` and `second`. Every other reply is arbitrary, and any
call may fail. -/
structure Replies (order : PendingOrder) (id : PaymentId) (first second : PaymentRecord)
    (trace : List Performed) : Prop where
  order : ∀ loaded ∈ trace.filterMap orderOf, loaded = order
  records : (records trace).take 2 <+: [(id, first), (id, second)]

/-! ## Runs of the parts -/

variable {order : PendingOrder} {job : PaymentReconciliationJob} {id : PaymentId}
  {trace : List Performed}

@[simp] theorem records_append (t₁ t₂ : List Performed) :
    records (t₁ ++ t₂) = records t₁ ++ records t₂ := by
  simp [records]

@[simp] theorem records_nil : records [] = [] := rfl

theorem ran_tx {t : Tx} {r : ApiResult t.Result} (h : Ran (tx t).run trace r) :
    trace = [⟨.tx t, r⟩] := ran_lift h

/-- A transaction brings no record. -/
theorem records_tx {t : Tx} {r : ApiResult t.Result} (h : Ran (tx t).run trace r) :
    records trace = [] := by
  rw [ran_tx h]
  rfl

theorem ran_effect {e : Effect} {r : Except ApiError e.Result}
    (h : Ran (ExceptT.lift (Prog.lift e) : Flow e.Result).run trace r) :
    ∃ x, trace = [⟨e, x⟩] ∧ r = .ok x := by
  obtain ⟨t₁, t₂, x, rfl, hlift, hdone⟩ := ran_bind h
  obtain ⟨rfl, rfl⟩ := ran_done hdone
  rw [ran_lift hlift]
  exact ⟨x, rfl, rfl⟩

theorem ran_ofResult {α : Type} {v r : ApiResult α} (h : Ran (ofResult v).run trace r) :
    trace = [] ∧ r = v := ran_done h

theorem ran_pure {α : Type} {a : α} {r : ApiResult α} (h : Ran (pure a : Flow α).run trace r) :
    trace = [] ∧ r = .ok a := ran_done h

/-- An operation under a fence: only the operation brings records. -/
theorem ran_withCheckoutFence {α : Type} {fence : CheckoutFence} {operation : Flow α} {a : α}
    (h : Ran (withCheckoutFence fence operation).run trace (.ok a)) :
    ∃ t, records trace = records t ∧ Ran operation.run t (.ok a) := by
  unfold withCheckoutFence at h
  obtain ⟨t₁, s₁, u₁, rfl, hassert, h₁⟩ := ran_andThen_ok h
  obtain ⟨t₂, s₂, u₂, rfl, hstart, h₂⟩ := ran_andThen_ok h₁
  obtain ⟨t₃, s₃, result, rfl, hoperation, h₃⟩ := ran_attempt h₂
  obtain ⟨t₄, s₄, u₄, rfl, hstop, h₄⟩ := ran_andThen_ok h₃
  obtain ⟨t₅, s₅, u₅, rfl, hassert', h₅⟩ := ran_andThen_ok h₄
  obtain ⟨rfl, rfl⟩ := ran_ofResult h₅
  obtain ⟨x₂, rfl, -⟩ := ran_effect hstart
  obtain ⟨x₄, rfl, -⟩ := ran_effect hstop
  refine ⟨t₃, ?_, hoperation⟩
  simp only [records_append, records_tx hassert, records_tx hassert', List.nil_append,
    List.append_nil]
  exact List.append_nil _

/-- A snapshot comes from the one record the look brought. -/
theorem ran_getPaymentSnapshot {s : PaymentSnapshot}
    (h : Ran (getPaymentSnapshot order id).run trace (.ok s)) :
    ∃ record, records trace = [(id, record)] ∧ validateSnapshot order id record = .ok s := by
  unfold getPaymentSnapshot at h
  obtain ⟨t₁, s₁, reply, rfl, hcall, h₁⟩ := ran_andThen_ok h
  obtain ⟨x, rfl, hx⟩ := ran_effect hcall
  cases hx
  obtain ⟨t₂, s₂, record, rfl, hrecord, h₂⟩ := ran_andThen_ok h₁
  obtain ⟨rfl, hreply⟩ := ran_ofResult hrecord
  obtain ⟨rfl, hvalid⟩ := ran_ofResult h₂
  cases reply with
  | error e => cases hreply
  | ok r =>
    cases hreply
    exact ⟨record, rfl, hvalid.symm⟩

theorem ran_observeSnapshot {s : PaymentSnapshot}
    (h : Ran (observeSnapshot job order id).run trace (.ok s)) :
    ∃ record, records trace = [(id, record)] ∧ validateSnapshot order id record = .ok s := by
  unfold observeSnapshot at h
  obtain ⟨t₁, s₁, snapshot, rfl, hfence, h₁⟩ := ran_andThen_ok h
  obtain ⟨t₂, s₂, u, rfl, hobservation, h₂⟩ := ran_andThen_ok h₁
  obtain ⟨rfl, hs⟩ := ran_pure h₂
  cases hs
  obtain ⟨t, ht, hlook⟩ := ran_withCheckoutFence hfence
  obtain ⟨record, hrecords, hvalid⟩ := ran_getPaymentSnapshot hlook
  exact ⟨record, by simp [ht, hrecords, records_tx hobservation], hvalid⟩

/-- A capture brings no record. -/
theorem records_capture {u : Unit}
    (h : Ran (withCheckoutFence job.fence (capturePayment order id job.requestId)).run trace
      (.ok u)) : records trace = [] := by
  obtain ⟨t, ht, hcapture⟩ := ran_withCheckoutFence h
  rw [ht]
  unfold capturePayment paymentOperation at hcapture
  obtain ⟨t₁, s₁, reply, rfl, hcall, h₁⟩ := ran_andThen_ok hcapture
  obtain ⟨x, rfl, -⟩ := ran_effect hcall
  obtain ⟨t₂, s₂, response, rfl, hresponse, h₂⟩ := ran_andThen_ok h₁
  obtain ⟨rfl, -⟩ := ran_ofResult hresponse
  obtain ⟨rfl, -⟩ := ran_ofResult h₂
  rfl

/-- The looks of a worker that captures, and of one that does not. -/
theorem ran_captureReconciled {s : PaymentSnapshot} {after : Option PaymentSnapshot}
    (h : Ran (captureReconciled job order id s).run trace (.ok after)) :
    (records trace = [] ∧ after = some s ∧
      ¬ (s.status = .authorized ∧ s.capturedMinor < order.totalMinor)) ∨
    ∃ record s', s.status = .authorized ∧ records trace = [(id, record)] ∧
      validateSnapshot order id record = .ok s' ∧
      after = if s'.status = .pending ∨ s'.status = .authorized then none else some s' := by
  unfold captureReconciled at h
  split at h
  · rename_i hcapture
    right
    obtain ⟨t₁, s₁, u, rfl, hcaptured, h₁⟩ := ran_andThen_ok h
    obtain ⟨t₂, s₂, s', rfl, hlook, h₂⟩ := ran_andThen_ok h₁
    obtain ⟨record, hrecords, hvalid⟩ := ran_observeSnapshot hlook
    have hrest : s₂ = [] ∧
        after = if s'.status = .pending ∨ s'.status = .authorized then none else some s' := by
      split at h₂
      · rename_i hretry
        rw [if_pos hretry]
        obtain ⟨hs₂, hafter⟩ := ran_pure h₂
        exact ⟨hs₂, Except.ok.inj hafter⟩
      · rename_i hdone
        rw [if_neg hdone]
        obtain ⟨hs₂, hafter⟩ := ran_pure h₂
        exact ⟨hs₂, Except.ok.inj hafter⟩
    refine ⟨record, s', hcapture.1, ?_, hvalid, hrest.2⟩
    simp [records_capture hcaptured, hrecords, hrest.1]
  · rename_i hnot
    obtain ⟨rfl, hafter⟩ := ran_pure h
    exact .inl ⟨rfl, Except.ok.inj hafter, hnot⟩

/-! ## Recorded compensations -/

/-- A worker that undoes a captured payment recorded its compensation first. -/
theorem enqueued_of_failure {e e' : ApiError}
    (h : Ran (reconcileCapturedPaymentFailure job order id e).run trace (.ok (.failed e'))) :
    trace.any enqueues = true := by
  unfold reconcileCapturedPaymentFailure compensateOrderPayment enqueuePaymentCompensation at h
  obtain ⟨t₁, s₁, compensated, rfl, hcompensate, -⟩ := ran_andThen_ok h
  obtain ⟨t₂, s₂, u, rfl, henqueue, -⟩ := ran_andThen_ok hcompensate
  obtain ⟨t₃, s₃, u', rfl, hfirst, -⟩ := ran_andThen_ok henqueue
  rw [ran_tx hfirst]
  rfl

/-- A run of the last step never gives up: the inventory is consumed. -/
theorem not_failed_of_finalize {e : ApiError} :
    ¬ Ran (finalizeReconciled job order id).run trace (.ok (.failed e)) := by
  have hcompleted : ∀ t, ¬ Ran (completedOutcome order id).run t (.ok (.failed e)) := by
    intro t h
    unfold completedOutcome at h
    obtain ⟨t₁, s₁, payload, -, -, h₁⟩ := ran_andThen_ok h
    obtain ⟨-, hpayload⟩ := ran_pure h₁
    cases hpayload
  intro h
  unfold finalizeReconciled at h
  obtain ⟨t₁, s₁, finalized, rfl, -, h₁⟩ := ran_attempt h
  cases finalized with
  | ok u => exact hcompleted _ h₁
  | error cause =>
    dsimp only at h₁
    split at h₁
    · obtain ⟨-, he⟩ := ran_ofResult h₁
      cases he
    · obtain ⟨t₂, s₂, committed, rfl, -, h₂⟩ := ran_andThen_ok h₁
      split at h₂
      · exact hcompleted _ h₂
      · obtain ⟨-, he⟩ := ran_ofResult h₂
        cases he

/-- After the capture a worker gives up only with a compensation on record. -/
theorem enqueued_of_fulfill {e : ApiError}
    (h : Ran (fulfillReconciled job order id).run trace (.ok (.failed e))) :
    trace.any enqueues = true := by
  unfold fulfillReconciled at h
  obtain ⟨t₁, s₁, reserved, rfl, -, h₁⟩ := ran_attempt h
  rw [List.any_append, Bool.or_eq_true]
  right
  cases reserved with
  | error cause =>
    dsimp only at h₁
    split at h₁
    · obtain ⟨-, he⟩ := ran_ofResult h₁
      cases he
    · exact enqueued_of_failure h₁
  | ok reservations =>
    obtain ⟨t₂, s₂, consumed, rfl, -, h₂⟩ := ran_attempt h₁
    rw [List.any_append, Bool.or_eq_true]
    right
    cases consumed with
    | ok u => exact absurd h₂ not_failed_of_finalize
    | error cause =>
      dsimp only at h₂
      split at h₂
      · obtain ⟨-, he⟩ := ran_ofResult h₂
        cases he
      · obtain ⟨t₃, s₃, released, rfl, -, h₃⟩ := ran_attempt h₂
        rw [List.any_append, enqueued_of_failure h₃, Bool.or_true]

/-! ## A worker that gives up -/

/-- The looks of a worker that gives a payment up. -/
inductive GivenUp (order : PendingOrder) (id : PaymentId) (trace : List Performed) : Prop where
  /-- The first look decides. -/
  | verdict {record : PaymentRecord} {e : ApiError} (hrecords : records trace = [(id, record)])
      (hverdict : snapshotVerdict (snapshotOf record) = some (.failed e))
  /-- The first look shows a capture of another amount. -/
  | inexact {record : PaymentRecord} (hrecords : records trace = [(id, record)])
      (hverdict : snapshotVerdict (snapshotOf record) = none)
      (hcapture : ¬ (record.status = .authorized ∧ record.capturedAmount < order.totalMinor))
      (hexact : capturedExactly order (snapshotOf record) = false)
  /-- The look after the capture shows another amount, or no capture. -/
  | unsettled {record after : PaymentRecord}
      (hrecords : records trace = [(id, record), (id, after)])
      (hstatus : record.status = .authorized) (hpending : after.status ≠ .pending)
      (hauthorized : after.status ≠ .authorized)
      (hexact : capturedExactly order (snapshotOf after) = false)
  /-- A compensation was recorded. -/
  | compensated (h : trace.any enqueues = true)

theorem givenUp_of_payment {e : ApiError}
    (h : Ran (reconcilePayment job order id).run trace (.ok (.failed e))) :
    GivenUp order id trace := by
  unfold reconcilePayment at h
  obtain ⟨t₁, s₁, snapshot, rfl, hlook, h₁⟩ := ran_andThen_ok h
  obtain ⟨record, hrecords, hvalid⟩ := ran_observeSnapshot hlook
  obtain rfl := snapshot_of_valid hvalid
  cases hverdict : snapshotVerdict (snapshotOf record) with
  | some outcome =>
    rw [hverdict] at h₁
    obtain ⟨rfl, houtcome⟩ := ran_pure h₁
    cases houtcome
    exact .verdict (by simp [hrecords]) hverdict
  | none =>
    rw [hverdict] at h₁
    obtain ⟨t₂, s₂, after, rfl, hcapture, h₂⟩ := ran_andThen_ok h₁
    rcases ran_captureReconciled hcapture with
      ⟨hnone, rfl, hnot⟩ | ⟨second, s', hstatus, hsecond, hvalid', rfl⟩
    · dsimp only at h₂
      split at h₂
      · exact .compensated (by simp [enqueued_of_fulfill h₂])
      · rename_i hexact
        obtain ⟨rfl, -⟩ := ran_pure h₂
        exact .inexact (by simp [hrecords, hnone]) hverdict hnot (by simpa using hexact)
    · obtain rfl := snapshot_of_valid hvalid'
      by_cases hretry : (snapshotOf second).status = .pending ∨
        (snapshotOf second).status = .authorized
      · rw [if_pos hretry] at h₂
        obtain ⟨-, he⟩ := ran_pure h₂
        cases he
      · rw [if_neg hretry] at h₂
        dsimp only at h₂
        split at h₂
        · exact .compensated (by simp [enqueued_of_fulfill h₂])
        · rename_i hexact
          obtain ⟨rfl, -⟩ := ran_pure h₂
          have hlooks : records (t₁ ++ (t₂ ++ [])) = [(id, record), (id, second)] := by
            simp [hrecords, hsecond]
          exact .unsettled hlooks hstatus (fun hp => hretry (.inl hp))
            (fun ha => hretry (.inr ha)) (by simpa using hexact)

/-- What is done before the first look does not count. -/
theorem GivenUp.prepend {t : List Performed} (h : GivenUp order id trace) (ht : records t = []) :
    GivenUp order id (t ++ trace) := by
  cases h with
  | verdict hrecords hverdict => exact .verdict (by simp [ht, hrecords]) hverdict
  | inexact hrecords hverdict hcapture hexact =>
    exact .inexact (by simp [ht, hrecords]) hverdict hcapture hexact
  | unsettled hrecords hstatus hpending hauthorized hexact =>
    exact .unsettled (by simp [ht, hrecords]) hstatus hpending hauthorized hexact
  | compensated h => exact .compensated (by simp [h])

theorem attachPayment_known (h : job.paymentId = some id) : attachPayment job id = pure () :=
  if_pos h

theorem attachPayment_new (h : job.paymentId ≠ some id) :
    attachPayment job id = tx (.attachPaymentToReconciliation job id) := if_neg h

/-- A run that gives a registered job up looked at the payment. -/
theorem givenUp_of_job {e : ApiError} {first second : PaymentRecord}
    (hjob : RegisteredFor order job) (hreplies : Replies order id first second trace)
    (h : Ran (reconcilePendingPayment job).run trace (.ok (.failed e))) :
    ∃ id', GivenUp order id' trace := by
  unfold reconcilePendingPayment at h
  rw [if_pos hjob.authorizeRequestId] at h
  obtain ⟨t₁, s₁, u₁, rfl, hassert, h₁⟩ := ran_andThen_ok h
  obtain ⟨t₂, s₂, loaded, rfl, hload, h₂⟩ := ran_andThen_ok h₁
  have hloaded : loaded = order := by
    refine hreplies.order loaded ?_
    rw [ran_tx hload]
    simp [orderOf]
  have hmatches : jobMatches job order = true := by
    unfold jobMatches
    rw [hjob.currency, hjob.amountMinor, hjob.merchantReference]
    simp
  rw [hloaded, if_pos hmatches] at h₂
  unfold reconcileOrder at h₂
  obtain ⟨t₃, s₃, found, rfl, hid, h₃⟩ := ran_andThen_ok h₂
  have hfound : records t₃ = [] := by
    unfold jobPaymentId at hid
    split at hid
    · rw [(ran_pure hid).1]
      rfl
    · exact records_tx hid
  cases found with
  | none =>
    obtain ⟨-, he⟩ := ran_pure h₃
    cases he
  | some paymentId =>
    obtain ⟨t₄, s₄, u₄, rfl, hattach, h₄⟩ := ran_andThen_ok h₃
    have hattached : records t₄ = [] := by
      by_cases hknown : job.paymentId = some paymentId
      · rw [attachPayment_known hknown] at hattach
        rw [(ran_pure hattach).1]
        rfl
      · rw [attachPayment_new hknown] at hattach
        exact records_tx hattach
    have hgiven := (givenUp_of_payment h₄).prepend hattached
    exact ⟨paymentId, ((hgiven.prepend hfound).prepend (records_tx hload)).prepend
      (records_tx hassert)⟩

/-! ## Records of the payment store -/

/-- The stored row of a record. -/
theorem RecordFor.row {record : PaymentRecord} (h : RecordFor order id record) :
    ∃ db p, RowInv db p ∧ record.status = p.status ∧
      record.authorizedAmount = p.amountMinor ∧ record.capturedAmount = p.capturedAmountMinor ∧
      record.refundedAmount = p.refundedAmountMinor := by
  obtain ⟨db, hdb, p, hp, rfl⟩ := h.stored
  have hrow := (StoreInv.of_reachable hdb).rows p hp
  exact ⟨db, p, hrow, hrow.toPaymentStatus_eq, rfl, rfl, rfl⟩

/-- A record of the order's payment passes the checks. -/
theorem RecordFor.valid {record : PaymentRecord} (h : RecordFor order id record) :
    validateSnapshot order id record = .ok (snapshotOf record) := by
  obtain ⟨db, p, hrow, -, ha, hc, hr⟩ := h.row
  have hpositive := hrow.positive
  have hnonneg := hrow.refunded_nonneg
  have hrefunded := hrow.refunded_le
  have hcaptured := hrow.captured_le
  unfold validateSnapshot
  rw [if_neg (by simp [h.paymentId, h.merchantReference]), if_neg ?_]
  · rfl
  · have htotal := h.authorizedAmount
    simp only [h.currency, not_or, not_not, not_lt, ne_eq, true_and, not_true_eq_false,
      not_false_eq_true]
    omega

/-- What the status of a record says about its balances. -/
structure Balanced (order : PendingOrder) (record : PaymentRecord) : Prop where
  captured : record.status = .captured →
    record.capturedAmount = order.totalMinor ∧ record.refundedAmount = 0
  authorized : record.status = .authorized → record.capturedAmount < order.totalMinor
  partiallyRefunded : record.status = .partiallyRefunded →
    record.capturedAmount ≠ record.refundedAmount
  rest : record.status ≠ .captured → record.status ≠ .authorized →
    record.status ≠ .partiallyRefunded → record.capturedAmount = record.refundedAmount

theorem RecordFor.balanced {record : PaymentRecord} (h : RecordFor order id record) :
    Balanced order record := by
  obtain ⟨db, p, hrow, hs, ha, hc, hr⟩ := h.row
  have htotal := h.authorizedAmount
  have hle := hrow.captured_le
  have hrefunded := hrow.refunded_le
  have hnonneg := hrow.refunded_nonneg
  have hsettled : ∀ s, p.status = s → settledStatus s = true →
      statusForBalances p.amountMinor p.capturedAmountMinor p.refundedAmountMinor = s := by
    intro s hp hset
    rw [← hrow.status_eq (hp ▸ hset), hp]
  constructor
  · intro hst
    obtain ⟨hfull, hzero⟩ := full_of_captured (hsettled .captured (hs ▸ hst) rfl)
    omega
  · intro hst
    have hleft := uncaptured_of_authorized (hsettled .authorized (hs ▸ hst) rfl)
    omega
  · intro hst heq
    have hrefund := hsettled .partiallyRefunded (hs ▸ hst) rfl
    rw [show p.refundedAmountMinor = p.capturedAmountMinor by omega] at hrefund
    exact statusForBalances_agreed _ _ hrefund
  · intro hcaptured hauthorized hrefund
    rw [hs] at hcaptured hauthorized hrefund
    cases hst : p.status with
    | captured => exact absurd hst hcaptured
    | authorized => exact absurd hst hauthorized
    | partiallyRefunded => exact absurd hst hrefund
    | refunded =>
      have heq := refunded_eq_captured (hsettled .refunded hst rfl)
      omega
    | pending | failed | voided =>
      have hzero := hrow.uncaptured (by rw [hst]; rfl)
      omega

/-! ## Runs that give up -/

theorem snapshots_one {record : PaymentRecord} (h : RecordFor order id record)
    (hrecords : records trace = [(id, record)]) :
    snapshots order trace = [snapshotOf record] := by
  simp [snapshots, hrecords, h.valid, Except.toOption]

theorem snapshots_two {first second : PaymentRecord} (h₁ : RecordFor order id first)
    (h₂ : RecordFor order id second)
    (hrecords : records trace = [(id, first), (id, second)]) :
    snapshots order trace = [snapshotOf first, snapshotOf second] := by
  simp [snapshots, hrecords, h₁.valid, h₂.valid, Except.toOption]

/-- Nothing is held when the last look shows neither a partial refund nor an
exact capture. -/
theorem RecordFor.unheld {record : PaymentRecord} (h : RecordFor order id record)
    (hlast : (snapshots order trace).getLast? = some (snapshotOf record))
    (hpending : record.status ≠ .pending) (hauthorized : record.status ≠ .authorized)
    (hcaptured : record.status ≠ .captured) (hrefund : record.status ≠ .partiallyRefunded) :
    Unheld order trace :=
  .inl ⟨snapshotOf record, hlast, hpending, hauthorized,
    h.balanced.rest hcaptured hauthorized hrefund⟩

/-- A captured record shows the exact capture. -/
theorem RecordFor.exact {record : PaymentRecord} (h : RecordFor order id record)
    (hst : record.status = .captured) : capturedExactly order (snapshotOf record) = true := by
  unfold capturedExactly snapshotOf
  have hbalance := h.balanced.captured hst
  simp [hst, hbalance.1, hbalance.2]

theorem unheld_of_givenUp {id' : PaymentId} {first second : PaymentRecord}
    (h : GivenUp order id' trace) (hreplies : Replies order id first second trace)
    (hfirst : RecordFor order id first) (hsecond : RecordFor order id second)
    (hrefund : first.status ≠ .partiallyRefunded)
    (hafter : first.status = .authorized → second.status ≠ .partiallyRefunded) :
    Unheld order trace := by
  cases h with
  | compensated h => exact .inr h
  | @verdict record e hrecords hverdict =>
    have hlook := hreplies.records
    rw [hrecords] at hlook
    obtain ⟨rfl, rfl⟩ : id' = id ∧ record = first := by simpa using hlook
    have hlast : (snapshots order trace).getLast? = some (snapshotOf record) := by
      rw [snapshots_one hfirst hrecords]
      rfl
    refine hfirst.unheld hlast ?_ ?_ ?_ hrefund <;>
      (intro hst; simp [snapshotVerdict, snapshotOf, hst] at hverdict)
  | @inexact record hrecords hverdict hcapture hexact =>
    have hlook := hreplies.records
    rw [hrecords] at hlook
    obtain ⟨rfl, rfl⟩ : id' = id ∧ record = first := by simpa using hlook
    -- the status that goes on is authorized or captured
    cases hst : record.status with
    | authorized => exact absurd ⟨hst, hfirst.balanced.authorized hst⟩ hcapture
    | captured => rw [hfirst.exact hst] at hexact; cases hexact
    | pending | failed | voided | refunded | partiallyRefunded =>
      simp [snapshotVerdict, snapshotOf, hst] at hverdict
  | @unsettled record after hrecords hstatus hpending hauthorized hexact =>
    have hlook := hreplies.records
    rw [hrecords] at hlook
    obtain ⟨⟨rfl, rfl⟩, -, rfl⟩ :
        (id' = id ∧ record = first) ∧ id' = id ∧ after = second := by
      simpa using hlook
    have hlast : (snapshots order trace).getLast? = some (snapshotOf after) := by
      rw [snapshots_two hfirst hsecond hrecords]
      rfl
    refine hsecond.unheld hlast hpending hauthorized ?_ (hafter hstatus)
    intro hst
    rw [hsecond.exact hst] at hexact
    cases hexact

/-! ## Runs in which every call succeeds -/

/-- What an operation under a fence performs. -/
def fencedTrace (fence : CheckoutFence) (t : List Performed) : List Performed :=
  ⟨.tx (.assertCheckoutFence fence), .ok ()⟩ :: ⟨.startHeartbeat fence, ()⟩ ::
    (t ++ [⟨.stopHeartbeat, ()⟩, ⟨.tx (.assertCheckoutFence fence), .ok ()⟩])

theorem fencedTrace_ran {α : Type} {fence : CheckoutFence} {operation : Flow α} {a : α}
    (h : Ran operation.run trace (.ok a)) :
    Ran (withCheckoutFence fence operation).run (fencedTrace fence trace) (.ok a) := by
  have htail : Ran (do stopHeartbeat; tx (.assertCheckoutFence fence); ofResult (.ok a) :
      Flow α).run [⟨.stopHeartbeat, ()⟩, ⟨.tx (.assertCheckoutFence fence), .ok ()⟩] (.ok a) :=
    .perform (.perform .done)
  exact .perform (.perform (Ran.attempt h htail))

/-- A look at the payment that brings `record`. -/
def lookTrace (job : PaymentReconciliationJob) (order : PendingOrder) (id : PaymentId)
    (record : PaymentRecord) : List Performed :=
  fencedTrace job.fence [⟨.call (.getPayment order.tenantId id), .ok record⟩] ++
    [⟨.tx (.recordPaymentReconciliationObservation job), .ok ()⟩]

theorem lookTrace_ran {record : PaymentRecord} (h : RecordFor order id record) :
    Ran (observeSnapshot job order id).run (lookTrace job order id record)
      (.ok (snapshotOf record)) := by
  have hlook : Ran (getPaymentSnapshot order id).run
      [⟨.call (.getPayment order.tenantId id), .ok record⟩] (.ok (snapshotOf record)) := by
    rw [← h.valid]
    exact .perform .done
  exact (fencedTrace_ran hlook).andThen (.perform .done)

/-- A capture that succeeds. -/
def captureTrace (job : PaymentReconciliationJob) (order : PendingOrder) (id : PaymentId)
    (record : PaymentRecord) : List Performed :=
  fencedTrace job.fence
    [⟨.call (.payment ⟨order.tenantId, .capture job.requestId, .capture id (some order.total)⟩),
      .ok ⟨.succeeded, record, .unspecified⟩⟩]

theorem captureTrace_ran {record : PaymentRecord} :
    Ran (withCheckoutFence job.fence (capturePayment order id job.requestId)).run
      (captureTrace job order id record) (.ok ()) :=
  fencedTrace_ran (.perform .done)

/-- The order is loaded, and the payment found in the ledger and attached
unless the job has it. -/
def startTrace (job : PaymentReconciliationJob) (order : PendingOrder) (id : PaymentId) :
    List Performed :=
  [⟨.tx (.assertCheckoutFence job.fence), .ok ()⟩,
    ⟨.tx (.loadPendingOrder job.tenantId job.orderId), .ok order⟩] ++
  if job.paymentId = none then
    [⟨.tx (.lookupAuthorizationPaymentId order job.requestId), .ok (some id)⟩,
      ⟨.tx (.attachPaymentToReconciliation job id), .ok ()⟩]
  else []

theorem startTrace_ran {outcome : PendingPaymentOutcome} (hjob : RegisteredFor order job)
    (hid : job.paymentId = none ∨ job.paymentId = some id)
    (h : Ran (reconcilePayment job order id).run trace (.ok outcome)) :
    Ran (reconcilePendingPayment job).run (startTrace job order id ++ trace) (.ok outcome) := by
  have hmatches : jobMatches job order = true := by
    unfold jobMatches
    rw [hjob.currency, hjob.amountMinor, hjob.merchantReference]
    simp
  have horder : Ran (reconcileOrder job order).run
      ((if job.paymentId = none then
        [⟨.tx (.lookupAuthorizationPaymentId order job.requestId), .ok (some id)⟩,
          ⟨.tx (.attachPaymentToReconciliation job id), .ok ()⟩] else []) ++ trace)
      (.ok outcome) := by
    unfold reconcileOrder jobPaymentId
    rcases hid with hnone | hsome
    · rw [hnone, if_pos rfl]
      refine .perform ?_
      change Ran (attachPayment job id >>= fun _ => reconcilePayment job order id).run _ _
      rw [attachPayment_new (by simp [hnone])]
      exact .perform h
    · rw [hsome, if_neg (by simp)]
      change Ran (attachPayment job id >>= fun _ => reconcilePayment job order id).run _ _
      rw [attachPayment_known hsome]
      exact h
  unfold reconcilePendingPayment
  rw [if_pos hjob.authorizeRequestId]
  refine .perform (.perform ?_)
  change Ran (if jobMatches job order then reconcileOrder job order else _ :
    Flow PendingPaymentOutcome).run _ _
  rw [if_pos hmatches]
  exact horder

theorem startTrace_spec :
    records (startTrace job order id) = [] ∧ (startTrace job order id).any enqueues = false ∧
      (startTrace job order id).filterMap orderOf = [order] := by
  unfold startTrace
  split <;> exact ⟨rfl, rfl, rfl⟩

/-- The errors of a worker that gives a partially refunded payment up. -/
def partialRefundError : ApiError := paymentReconciliationError
  "payment authorization has a partial refund and cannot complete checkout"

def inexactCaptureError : ApiError := paymentReconciliationError
  "payment capture did not settle the exact checkout amount"

/-- A worker that finds the payment partially refunded gives it up. -/
theorem partial_ran {first : PaymentRecord} (hfirst : RecordFor order id first)
    (hrefund : first.status = .partiallyRefunded) :
    Ran (reconcilePayment job order id).run (lookTrace job order id first)
      (.ok (.failed partialRefundError)) := by
  have hverdict : snapshotVerdict (snapshotOf first) = some (.failed partialRefundError) := by
    simp [snapshotVerdict, snapshotOf, hrefund, partialRefundError]
  rw [← List.append_nil (lookTrace job order id first)]
  refine (lookTrace_ran hfirst).andThen ?_
  rw [hverdict]
  exact .done

/-- So does a worker that finds it partially refunded after its capture. -/
theorem recaptured_ran {first second : PaymentRecord} (hfirst : RecordFor order id first)
    (hsecond : RecordFor order id second) (hauthorized : first.status = .authorized)
    (hrefund : second.status = .partiallyRefunded) :
    Ran (reconcilePayment job order id).run (lookTrace job order id first ++
      (captureTrace job order id second ++ lookTrace job order id second))
      (.ok (.failed inexactCaptureError)) := by
  have hverdict : snapshotVerdict (snapshotOf first) = none := by
    simp [snapshotVerdict, snapshotOf, hauthorized]
  have hcapture : (snapshotOf first).status = .authorized ∧
      (snapshotOf first).capturedMinor < order.totalMinor :=
    ⟨hauthorized, hfirst.balanced.authorized hauthorized⟩
  have hsettled : ¬ ((snapshotOf second).status = .pending ∨
      (snapshotOf second).status = .authorized) := by
    simp [snapshotOf, hrefund]
  have hexact : ¬ capturedExactly order (snapshotOf second) = true := by
    simp [capturedExactly, snapshotOf, hrefund]
  have hafter : Ran (captureReconciled job order id (snapshotOf first)).run
      (captureTrace job order id second ++ (lookTrace job order id second ++ []))
      (.ok (some (snapshotOf second))) := by
    unfold captureReconciled
    rw [if_pos hcapture]
    refine captureTrace_ran.andThen ((lookTrace_ran hsecond).andThen ?_)
    rw [if_neg hsettled]
    exact .done
  rw [List.append_nil] at hafter
  refine (lookTrace_ran hfirst).andThen ?_
  rw [hverdict, ← List.append_nil (captureTrace _ _ _ _ ++ _)]
  refine hafter.andThen ?_
  dsimp only
  rw [if_neg hexact]
  exact .done

/-- A partially refunded payment is held unless a compensation is recorded. -/
theorem RecordFor.held {record : PaymentRecord} (h : RecordFor order id record)
    (hlast : (snapshots order trace).getLast? = some (snapshotOf record))
    (hrefund : record.status = .partiallyRefunded) (hquiet : trace.any enqueues = false) :
    ¬ Unheld order trace := by
  rintro (⟨s, hs, -, -, hbalance⟩ | hany)
  · rw [hlast] at hs
    cases hs
    exact h.balanced.partiallyRefunded hrefund hbalance
  · rw [hquiet] at hany
    cases hany

/-- A run that gives up leaves nothing held, or a compensation on record,
whatever the calls bring, exactly when the first look does not show a partial
refund and neither does, after a capture, the second. -/
theorem gives_up_unheld_iff {first second : PaymentRecord} (hjob : RegisteredFor order job)
    (hid : job.paymentId = none ∨ job.paymentId = some id)
    (hfirst : RecordFor order id first) (hsecond : RecordFor order id second) :
    (∀ trace e, Ran (reconcilePendingPayment job).run trace (.ok (.failed e)) →
      Replies order id first second trace → Unheld order trace) ↔
    first.status ≠ .partiallyRefunded ∧
      (first.status = .authorized → second.status ≠ .partiallyRefunded) := by
  obtain ⟨hrecords, hquiet, horder⟩ := @startTrace_spec order job id
  constructor
  · intro h
    constructor
    · intro hrefund
      have hlooks : records (startTrace job order id ++ lookTrace job order id first) =
          [(id, first)] := by
        rw [records_append, hrecords]
        rfl
      refine hfirst.held ?_ hrefund ?_ (h _ _ (startTrace_ran hjob hid
        (partial_ran hfirst hrefund)) ⟨?_, ?_⟩)
      · rw [snapshots_one hfirst hlooks]
        rfl
      · rw [List.any_append, hquiet]
        rfl
      · rw [List.filterMap_append, horder]
        exact fun loaded hmem => List.mem_singleton.mp hmem
      · rw [hlooks]
        simp
    · intro hauthorized hrefund
      have hlooks : records (startTrace job order id ++ (lookTrace job order id first ++
          (captureTrace job order id second ++ lookTrace job order id second))) =
          [(id, first), (id, second)] := by
        rw [records_append, hrecords]
        rfl
      refine hsecond.held ?_ hrefund ?_ (h _ _ (startTrace_ran hjob hid
        (recaptured_ran hfirst hsecond hauthorized hrefund)) ⟨?_, ?_⟩)
      · rw [snapshots_two hfirst hsecond hlooks]
        rfl
      · rw [List.any_append, hquiet]
        rfl
      · rw [List.filterMap_append, horder]
        exact fun loaded hmem => List.mem_singleton.mp hmem
      · rw [hlooks]
        simp
  · rintro ⟨hrefund, hafter⟩ trace e hrun hreplies
    obtain ⟨id', hgiven⟩ := givenUp_of_job hjob hreplies hrun
    exact unheld_of_givenUp hgiven hreplies hfirst hsecond hrefund hafter

/-- The job of the sample order's payment. -/
def sampleJob : PaymentReconciliationJob :=
  jobOf 3 (newReconciliation sampleState sampleOrder ⟨1, ⟨7, 4⟩, 2⟩ (some samplePayment) .card)

theorem sampleJob_registered : RegisteredFor sampleOrder sampleJob :=
  @registeredFor_jobOf sampleOrder ⟨1, ⟨7, 4⟩, 2⟩ sampleState (some samplePayment) .card _ 3 rfl

def refundedRecord : PaymentRecord := toRecord (paymentRow refundedState refundedPayment)

theorem refundedRecord_for : RecordFor sampleOrder samplePayment refundedRecord where
  stored := ⟨refundedState, refundedState_reachable, refundedPayment, refundedPayment_stored, rfl⟩
  paymentId := rfl
  merchantReference := rfl
  currency := rfl
  authorizedAmount := rfl

/-- The sample payment is fully refunded: giving it up holds nothing. -/
theorem gives_up_unheld_sample :
    refundedRecord.status = .refunded ∧
    ∀ trace e, Ran (reconcilePendingPayment sampleJob).run trace (.ok (.failed e)) →
      Replies sampleOrder samplePayment refundedRecord refundedRecord trace →
        Unheld sampleOrder trace :=
  ⟨rfl, (gives_up_unheld_iff sampleJob_registered (.inr rfl) refundedRecord_for
    refundedRecord_for).mpr ⟨by decide, fun _ => by decide⟩⟩

/-- The sample payment in its last state: 300 of the captured 500 refunded. -/
def partialPayment : Payment := sampleState.payment.payments.head (by decide)

def partialRecord : PaymentRecord := toRecord (paymentRow sampleState partialPayment)

theorem partialRecord_for : RecordFor sampleOrder samplePayment partialRecord where
  stored := ⟨sampleState, sampleState_reachable, partialPayment, List.head_mem _, rfl⟩
  paymentId := rfl
  merchantReference := rfl
  currency := rfl
  authorizedAmount := rfl

/-- A worker that gives up while 200 are still held. -/
theorem gives_up_held :
    ¬ ∀ order job id first second, RegisteredFor order job →
      (job.paymentId = none ∨ job.paymentId = some id) →
      RecordFor order id first → RecordFor order id second →
      ∀ trace e, Ran (reconcilePendingPayment job).run trace (.ok (.failed e)) →
        Replies order id first second trace → Unheld order trace := by
  intro h
  have hgiven := h sampleOrder sampleJob samplePayment partialRecord partialRecord
    sampleJob_registered (.inr rfl) partialRecord_for partialRecord_for
    (startTrace sampleJob sampleOrder samplePayment ++
      lookTrace sampleJob sampleOrder samplePayment partialRecord) partialRefundError
    (startTrace_ran sampleJob_registered (.inr rfl) (partial_ran partialRecord_for rfl))
    ⟨fun loaded hmem => List.mem_singleton.mp hmem, ⟨[_], rfl⟩⟩
  exact partialRecord_for.held rfl rfl rfl hgiven

end CommercePlayground.Checkout
