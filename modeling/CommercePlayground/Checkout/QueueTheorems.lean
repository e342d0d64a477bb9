/-
CommercePlayground.Checkout.QueueTheorems — what each transaction does to the
queue of payment reconciliations, and the invariant of the queue.

* `QueueMove`, `QueueWrite`: the row rewrites of the queue, and what one
  transaction does to the whole table.
* `QueueInv`: keys, lease CHECKs, the bound on the attempts counter, and a
  worker's job that agrees with the row it claimed.
* `FlightInv.step`: every event keeps it.
-/
import CommercePlayground.Checkout.Reconciliation
import CommercePlayground.Checkout.FenceTheorems
import CommercePlayground.Payment.LedgerTheorems

namespace CommercePlayground.Checkout

open Lib

/-! ## Writes of the queue -/

/-- What a transaction does to a row of `checkout_payment_reconciliations`. -/
inductive QueueMove (tx : Tx) (db : Db) (r : Reconciliation) : Reconciliation → Prop where
  /-- The heartbeat. -/
  | extend (hs : r.status = .processing) : QueueMove tx db r (extendReconciliation db.now r)
  | reregister {order : PendingOrder} {lease : CheckoutLease} {paymentId : Option PaymentId}
      {methodType : PaymentMethodType} {allowExpired : Bool}
      (htx : tx = .registerPendingPaymentReconciliation order lease paymentId methodType
        allowExpired)
      (htenant : lease.tenantId = order.tenantId)
      (hsel : isReconciliation order.tenantId lease.requestId r = true) :
      QueueMove tx db r (reregistered db.now lease paymentId r)
  | wake {t : TenantId} {requestId : RequestId}
      (htx : tx = .wakePaymentReconciliation t requestId)
      (hsel : isReconciliation t requestId r = true)
      (hs : r.status = .awaitingProvider ∨ r.status = .queued) :
      QueueMove tx db r (queuedNow db.now r)
  | claim {pick : TenantId × RequestId} (htx : tx = .claimPaymentReconciliation pick)
      (hsel : isReconciliation pick.1 pick.2 r = true) (hclaim : isClaimable db r = true) :
      QueueMove tx db r (claimedReconciliation db.now db.nextUuid r)
  | exhaust (hs : r.status = .processing) (hmax : reconciliationMaxAttempts ≤ r.attempts) :
      QueueMove tx db r (awaitProvider db.now r)
  | attach {paymentId : PaymentId} (hs : r.status = .processing) :
      QueueMove tx db r { r with paymentId := some paymentId }
  | reschedule {job : PaymentReconciliationJob}
      (htx : tx = .reschedulePaymentReconciliation job) (hsel : isJob job r = true) :
      QueueMove tx db r (rescheduled db.now job.attempts r)
  | close {status : ReconciliationStatus} (hs : r.status = .processing)
      (hclosed : status = .completed ∨ status = .failed) :
      QueueMove tx db r (closedReconciliation status r)
  /-- The generation of the row was reclaimed. -/
  | transfer (hs : r.status ≠ .completed) :
      QueueMove tx db r (transferred db.now db.nextUuid r)

/-- What a transaction does to the queue: each writes it at most once. -/
inductive QueueWrite (tx : Tx) (db : Db) : List Reconciliation → Prop where
  | keep : QueueWrite tx db db.checkout.reconciliations
  | register {order : PendingOrder} {lease : CheckoutLease} {paymentId : Option PaymentId}
      {methodType : PaymentMethodType} {allowExpired : Bool}
      (htx : tx = .registerPendingPaymentReconciliation order lease paymentId methodType
        allowExpired)
      (htenant : lease.tenantId = order.tenantId)
      (hnew : ∀ r ∈ db.checkout.reconciliations,
        isReconciliation order.tenantId lease.requestId r = false) :
      QueueWrite tx db (db.checkout.reconciliations ++
        [newReconciliation db order lease paymentId methodType])
  | update {sel : Reconciliation → Bool} {f : Reconciliation → Reconciliation}
      (h : ∀ r ∈ db.checkout.reconciliations, sel r = true → QueueMove tx db r (f r)) :
      QueueWrite tx db (updateWhere sel f db.checkout.reconciliations)

/-- The transactions that write the queue. -/
def Tx.writesQueue : Tx → Bool
  | .claimCheckoutAttempt .. | .refreshCheckoutFence .. => true
  | .registerPendingPaymentReconciliation .. | .wakePaymentReconciliation .. => true
  | .claimPaymentReconciliation .. | .reclaimExhaustedPaymentReconciliation => true
  | .attachPaymentToReconciliation .. | .reschedulePaymentReconciliation .. => true
  | .completePaymentReconciliation .. | .failPaymentReconciliation .. => true
  | _ => false

theorem ReconciliationMove.writesQueue {tx : Tx} {db : Db} {r r' : Reconciliation}
    (h : ReconciliationMove tx db r r') : tx.writesQueue = true := by
  cases h with
  | extend _ htx => rw [htx]; rfl
  | register htx => rw [htx]; rfl
  | wake _ htx => rw [htx]; rfl
  | exhaust _ htx => rw [htx]; rfl
  | attach htx => rw [htx]; rfl
  | reschedule _ htx => rw [htx]; rfl
  | complete _ _ htx => rw [htx]; rfl
  | fail _ htx => rw [htx]; rfl

/-- The other transactions leave the queue alone. -/
theorem Change.queue_eq {tx : Tx} {db db' : Db} (h : Change tx db db')
    (hw : tx.writesQueue = false) : db'.checkout.reconciliations = db.checkout.reconciliations := by
  cases h with
  | reclaim _ _ _ _ htx => subst htx; cases hw
  | reconciliation htx => subst htx; cases hw
  | claimReconciliation _ htx => subst htx; cases hw
  | reconciliations hmove =>
    refine updateWhere_eq_self fun r hr => ?_
    by_contra hsel
    rw [Bool.not_eq_false] at hsel
    rw [(hmove r hr hsel).writesQueue] at hw
    cases hw
  | cart => unfold ensureCart; split <;> rfl
  | pay => unfold insertPaidEvent; split <;> rfl
  | redeem htx hr =>
    obtain ⟨t, rfl⟩ := redeemPromotion_frame hr
    rfl
  | openAttempt | attempts | uuid | order | cancel | checkOut | exposure | analytics | task | tasks | claimTask => rfl

theorem Changes.queue_eq {tx : Tx} {db db' : Db} (h : Changes tx db db')
    (hw : tx.writesQueue = false) :
    db'.checkout.reconciliations = db.checkout.reconciliations :=
  h.invariant (I := fun x => x.checkout.reconciliations = db.checkout.reconciliations) rfl
    fun _ _ ha hc => (hc.queue_eq hw).trans ha

section Runs

variable {db db' : Db}

theorem refreshCheckoutFence_queue {fence : CheckoutFence} {u : Unit}
    (h : refreshCheckoutFence fence db = .ok (u, db')) :
    QueueWrite (.refreshCheckoutFence fence) db db'.checkout.reconciliations := by
  cases fence with
  | attempt lease =>
    obtain ⟨_, -, h⟩ := bind_ok h
    cases h
    exact .keep
  | paymentReconciliation t r parent worker =>
    obtain ⟨_, -, h⟩ := bind_ok h
    obtain ⟨_, -, h⟩ := bind_ok h
    cases h
    refine .update fun r _ hsel => .extend ?_
    simp only [isClaim, isProcessing, Bool.and_eq_true, decide_eq_true_eq] at hsel
    exact hsel.2.1
  | compensation t r token id claim =>
    obtain ⟨_, -, h⟩ := bind_ok h
    obtain ⟨_, -, h⟩ := bind_ok h
    cases h
    refine .update fun r _ hsel => .extend ?_
    simp only [isProcessing, Bool.and_eq_true, decide_eq_true_eq] at hsel
    exact hsel.2.1

theorem reclaim_queue {tx : Tx} {g : Generation} :
    QueueWrite tx db (reclaim db g).checkout.reconciliations := by
  refine .update fun r _ hsel => .transfer ?_
  simp only [Bool.and_eq_true, decide_eq_true_eq] at hsel
  exact hsel.2

theorem claimStaleAttempt_queue {tx : Tx} {a : CheckoutAttempt} {c : CheckoutAttemptClaim}
    (h : claimStaleAttempt a db = .ok (c, db')) :
    QueueWrite tx db db'.checkout.reconciliations := by
  unfold claimStaleAttempt at h
  simp only at h
  split at h
  · split at h
    · split at h
      · cases h
        exact .keep
      · cases h
    · split at h
      · cases h
      · cases h
        exact reclaim_queue
  · cases h
    exact reclaim_queue

theorem claimCheckoutAttempt_queue {tx : Tx} {t : TenantId} {r : RequestId}
    {fingerprint : CheckoutInput} {c : CheckoutAttemptClaim}
    (h : claimCheckoutAttempt t r fingerprint db = .ok (c, db')) :
    QueueWrite tx db db'.checkout.reconciliations := by
  unfold claimCheckoutAttempt at h
  split at h
  · cases h
    exact .keep
  · split at h
    · cases h
    · split at h
      · split at h
        · exact claimStaleAttempt_queue h
        · cases h
          exact .keep
      all_goals
        try split at h
        all_goals first | (cases h; exact .keep) | cases h

theorem registerPendingPaymentReconciliation_queue {order : PendingOrder}
    {lease : CheckoutLease} {p : Option PaymentId} {m : PaymentMethodType} {b : Bool} {u : Unit}
    (h : registerPendingPaymentReconciliation order lease p m b db = .ok (u, db')) :
    QueueWrite (.registerPendingPaymentReconciliation order lease p m b) db
      db'.checkout.reconciliations := by
  obtain ⟨_, htenant, h⟩ := bind_ok h
  obtain ⟨_, -, h⟩ := bind_ok h
  obtain ⟨_, -, h⟩ := bind_ok h
  obtain ⟨db₁, hup, h⟩ := bind_ok h
  cases h
  have htenant' := require_ok htenant
  simp only [decide_eq_true_eq] at htenant'
  unfold upsertReconciliation at hup
  simp only at hup
  split at hup
  · split at hup
    · cases hup
      refine .update fun r _ hsel => ?_
      simp only [Bool.and_eq_true] at hsel
      exact .reregister rfl htenant' hsel.1
    · cases hup
  · rename_i hnone
    cases hup
    refine .register rfl htenant' fun r hr => ?_
    simpa using fun hsel => hnone (List.any_eq_true.mpr ⟨r, hr, hsel⟩)

theorem claimPaymentReconciliation_queue {pick : TenantId × RequestId}
    {job : Option PaymentReconciliationJob}
    (h : claimPaymentReconciliation pick db = .ok (job, db')) :
    QueueWrite (.claimPaymentReconciliation pick) db db'.checkout.reconciliations := by
  unfold claimPaymentReconciliation at h
  simp only at h
  split at h
  · cases h
    exact .keep
  · cases h
    refine .update fun r _ hsel => ?_
    simp only [Bool.and_eq_true] at hsel
    exact .claim rfl hsel.1 hsel.2

theorem failPaymentReconciliation_queue {job : PaymentReconciliationJob} {error : ApiError}
    {u : Unit} (h : failPaymentReconciliation job error db = .ok (u, db')) :
    QueueWrite (.failPaymentReconciliation job error) db db'.checkout.reconciliations := by
  obtain ⟨_, -, h⟩ := bind_ok h
  obtain ⟨_, -, h⟩ := bind_ok h
  obtain ⟨_, -, h⟩ := bind_ok h
  cases h
  have hrows : (cancelFailedOrder job (updateAttempts db (isSettledBy job)
      (fail db.now
        (boundedError error)))).checkout.reconciliations = db.checkout.reconciliations := by
    unfold cancelFailedOrder
    split <;> rfl
  simp only [updateReconciliations, setReconciliations]
  rw [hrows]
  exact .update fun r _ hsel => .close (isJob_processing hsel) (.inr rfl)

/-- **What a transaction does to the queue.** -/
theorem Tx.queueWrite {tx : Tx} {r : tx.Result} (h : tx.run db = .ok (r, db')) :
    QueueWrite tx db db'.checkout.reconciliations := by
  cases hw : tx.writesQueue with
  | false =>
    rw [(Tx.run_changes h).queue_eq hw]
    exact .keep
  | true =>
    cases tx with
    | claimCheckoutAttempt => exact claimCheckoutAttempt_queue h
    | refreshCheckoutFence => exact refreshCheckoutFence_queue h
    | registerPendingPaymentReconciliation =>
      exact registerPendingPaymentReconciliation_queue h
    | wakePaymentReconciliation =>
      obtain ⟨_, -, h⟩ := bind_ok h
      cases h
      refine .update fun r _ hsel => ?_
      simp only [Bool.and_eq_true, decide_eq_true_eq] at hsel
      exact .wake rfl hsel.1 hsel.2
    | claimPaymentReconciliation => exact claimPaymentReconciliation_queue h
    | reclaimExhaustedPaymentReconciliation =>
      cases h
      refine .update fun r _ hsel => ?_
      simp only [Bool.and_eq_true, decide_eq_true_eq] at hsel
      exact .exhaust hsel.1.1 hsel.1.2
    | attachPaymentToReconciliation =>
      obtain ⟨_, -, h⟩ := bind_ok h
      obtain ⟨_, -, h⟩ := bind_ok h
      obtain ⟨_, -, h⟩ := bind_ok h
      cases h
      refine .update fun r _ hsel => .attach ?_
      simp only [Bool.and_eq_true] at hsel
      exact isJob_processing hsel.1
    | reschedulePaymentReconciliation =>
      obtain ⟨_, -, h⟩ := bind_ok h
      obtain ⟨_, -, h⟩ := bind_ok h
      cases h
      exact .update fun r _ hsel => .reschedule rfl hsel
    | completePaymentReconciliation =>
      obtain ⟨_, -, h⟩ := bind_ok h
      obtain ⟨_, -, h⟩ := bind_ok h
      obtain ⟨_, -, h⟩ := bind_ok h
      cases h
      exact .update fun r _ hsel => .close (isJob_processing hsel) (.inl rfl)
    | failPaymentReconciliation => exact failPaymentReconciliation_queue h
    | _ => cases hw

end Runs

/-! ## Rows of the queue -/

/-- A row keeps its key. -/
theorem QueueMove.key {tx : Tx} {db : Db} {r r' : Reconciliation} (h : QueueMove tx db r r') :
    r'.tenantId = r.tenantId ∧ r'.requestId = r.requestId ∧
      r'.authorizeRequestId = r.authorizeRequestId := by
  cases h with
  | reschedule =>
    unfold rescheduled
    split <;> exact ⟨rfl, rfl, rfl⟩
  | extend | reregister | wake | claim | exhaust | attach | close | transfer =>
    exact ⟨rfl, rfl, rfl⟩

/-- Only a claim gives a row a token; any other move keeps its token and its
count, or takes the token away. -/
theorem QueueMove.token {tx : Tx} {db : Db} {r r' : Reconciliation} (h : QueueMove tx db r r')
    (hclaim : ∀ pick, tx ≠ .claimPaymentReconciliation pick) :
    r'.attempts = r.attempts ∧ (r'.leaseToken = none ∨ r'.leaseToken = r.leaseToken) := by
  cases h with
  | claim htx => exact absurd htx (hclaim _)
  | reschedule =>
    unfold rescheduled
    split <;> exact ⟨rfl, .inl rfl⟩
  | wake | exhaust | close | transfer => exact ⟨rfl, .inl rfl⟩
  | extend | reregister | attach => exact ⟨rfl, .inr rfl⟩

theorem leaseChecks_iff {r : Reconciliation} : r.leaseChecks = true ↔
    (r.leaseToken.isSome = true ↔ r.status = .processing) ∧
      (r.leaseExpiresAt.isSome = true ↔ r.status = .processing) := by
  by_cases h : r.status = .processing <;> simp [Reconciliation.leaseChecks, h]

/-- Every move writes a row that passes the lease CHECKs. -/
theorem QueueMove.leaseChecks {tx : Tx} {db : Db} {r r' : Reconciliation}
    (h : QueueMove tx db r r') (hr : r.leaseChecks = true) : r'.leaseChecks = true := by
  rw [leaseChecks_iff] at hr ⊢
  cases h with
  | extend hs => simp [extendReconciliation, hs, hr]
  | reregister =>
    by_cases hq : r.status = .queued
    · rw [hq] at hr
      simp only [reregistered, hq, if_pos]
      simpa using hr
    · simp only [reregistered, if_neg hq]
      exact hr
  | wake => simp [queuedNow]
  | claim => simp [claimedReconciliation]
  | exhaust => simp [awaitProvider]
  | attach => exact hr
  | reschedule =>
    unfold rescheduled
    split <;> simp [awaitProvider, queuedNow]
  | close _ hclosed => rcases hclosed with rfl | rfl <;> simp [closedReconciliation]
  | transfer =>
    by_cases hp : r.status = .processing
    · by_cases hlt : r.attempts < reconciliationMaxAttempts <;>
        simp [transferred, hp, hlt]
    · simp [transferred, hp]

/-- What holds of every row: the lease CHECKs, at most `MAX_ATTEMPTS` runs, the
authorize request id of a request that is not blank, and an old token. -/
structure QueueRow (nextUuid : Nat) (r : Reconciliation) : Prop where
  leases : r.leaseChecks = true
  bounded : r.attempts ≤ reconciliationMaxAttempts
  authorize : r.authorizeRequestId = .authorize r.requestId
  named : r.requestId.length ≠ 0
  token : ∀ w, r.leaseToken = some w → w < nextUuid

theorem QueueRow.move {tx : Tx} {db : Db} {n : Nat} {r r' : Reconciliation}
    (h : QueueRow db.nextUuid r) (hm : QueueMove tx db r r') (hn : db.nextUuid ≤ n)
    (hclaim : ∀ pick, tx ≠ .claimPaymentReconciliation pick) : QueueRow n r' := by
  obtain ⟨-, hreq, hauth⟩ := hm.key
  obtain ⟨hatt, htok⟩ := hm.token hclaim
  refine ⟨hm.leaseChecks h.leases, by rw [hatt]; exact h.bounded,
    by rw [hauth, hreq]; exact h.authorize, by rw [hreq]; exact h.named, ?_⟩
  intro w hw
  rcases htok with hnone | hsame
  · rw [hnone] at hw
    cases hw
  · exact Nat.lt_of_lt_of_le (h.token w (hsame ▸ hw)) hn

theorem QueueRow.mono {n m : Nat} {r : Reconciliation} (h : QueueRow n r) (hn : n ≤ m) :
    QueueRow m r :=
  ⟨h.leases, h.bounded, h.authorize, h.named, fun w hw => Nat.lt_of_lt_of_le (h.token w hw) hn⟩

/-- The queue and the jobs handed out of it. -/
structure QueueInv (db : Db) (workers : List PaymentReconciliationJob) : Prop where
  keys : KeyUnique reconciliationKey db.checkout.reconciliations
  rows : ∀ r ∈ db.checkout.reconciliations, QueueRow db.nextUuid r
  jobs : ∀ job ∈ workers, job.leaseToken < db.nextUuid ∧
    ∀ r ∈ db.checkout.reconciliations, r.leaseToken = some job.leaseToken →
      r.attempts = job.attempts

/-- A key names one row. -/
theorem QueueInv.row_eq {db : Db} {ws : List PaymentReconciliationJob} (h : QueueInv db ws)
    {r s : Reconciliation} (hr : r ∈ db.checkout.reconciliations)
    (hs : s ∈ db.checkout.reconciliations) (ht : r.tenantId = s.tenantId)
    (hq : r.requestId = s.requestId) : r = s :=
  h.keys.eq_of_mem hr hs (by simp [reconciliationKey, ht, hq])

/-- Steps that keep the queue keep the invariant. -/
theorem QueueInv.frame {db db' : Db} {ws : List PaymentReconciliationJob} (h : QueueInv db ws)
    (hq : db'.checkout.reconciliations = db.checkout.reconciliations)
    (hn : db.nextUuid ≤ db'.nextUuid) : QueueInv db' ws where
  keys := by rw [hq]; exact h.keys
  rows := by
    rw [hq]
    exact fun r hr => (h.rows r hr).mono hn
  jobs := by
    rw [hq]
    exact fun job hjob => ⟨Nat.lt_of_lt_of_le (h.jobs job hjob).1 hn, (h.jobs job hjob).2⟩

/-- An update within the row invariant that hands out no token. -/
theorem QueueInv.update {db db' : Db} {ws : List PaymentReconciliationJob} (h : QueueInv db ws)
    {sel : Reconciliation → Bool} {f : Reconciliation → Reconciliation}
    (hq : db'.checkout.reconciliations = updateWhere sel f db.checkout.reconciliations)
    (hn : db.nextUuid ≤ db'.nextUuid)
    (hkey : ∀ r ∈ db.checkout.reconciliations, sel r = true →
      reconciliationKey (f r) = reconciliationKey r)
    (hrow : ∀ r ∈ db.checkout.reconciliations, sel r = true → QueueRow db'.nextUuid (f r))
    (htok : ∀ r ∈ db.checkout.reconciliations, sel r = true →
      (f r).leaseToken = none ∨
        ((f r).attempts = r.attempts ∧ (f r).leaseToken = r.leaseToken)) :
    QueueInv db' ws where
  keys := by
    rw [hq]
    exact h.keys.updateWhere hkey
  rows := by
    rw [hq]
    intro r' hr'
    obtain ⟨r, hr, rfl⟩ := mem_updateWhere.mp hr'
    split
    · exact hrow r hr ‹_›
    · exact (h.rows r hr).mono hn
  jobs := by
    rw [hq]
    intro job hjob
    refine ⟨Nat.lt_of_lt_of_le (h.jobs job hjob).1 hn, fun r' hr' hw => ?_⟩
    obtain ⟨r, hr, rfl⟩ := mem_updateWhere.mp hr'
    split at hw
    · rename_i hsel
      rw [if_pos hsel]
      rcases htok r hr hsel with hnone | ⟨hatt, hsame⟩
      · rw [hnone] at hw
        cases hw
      · rw [hatt]
        exact (h.jobs job hjob).2 r hr (hsame ▸ hw)
    · rename_i hsel
      rw [if_neg hsel]
      exact (h.jobs job hjob).2 r hr hw

/-- A first registration. -/
theorem QueueInv.insert {db db' : Db} {ws : List PaymentReconciliationJob} (h : QueueInv db ws)
    {order : PendingOrder} {lease : CheckoutLease} {p : Option PaymentId}
    {m : PaymentMethodType}
    (hq : db'.checkout.reconciliations =
      db.checkout.reconciliations ++ [newReconciliation db order lease p m])
    (hn : db.nextUuid ≤ db'.nextUuid)
    (hnew : ∀ r ∈ db.checkout.reconciliations,
      isReconciliation order.tenantId lease.requestId r = false)
    (hnamed : lease.requestId.length ≠ 0) : QueueInv db' ws where
  keys := by
    rw [hq]
    refine h.keys.append_singleton fun r hr hkey => ?_
    have hno := hnew r hr
    simp only [reconciliationKey, newReconciliation, Prod.mk.injEq] at hkey
    simp [isReconciliation, hkey] at hno
  rows := by
    rw [hq]
    intro r hr
    rcases List.mem_append.mp hr with hr | hr
    · exact (h.rows r hr).mono hn
    · cases List.mem_singleton.mp hr
      refine ⟨rfl, Nat.zero_le _, rfl, hnamed, fun w hw => ?_⟩
      cases hw
  jobs := by
    rw [hq]
    intro job hjob
    refine ⟨Nat.lt_of_lt_of_le (h.jobs job hjob).1 hn, fun r hr hw => ?_⟩
    rcases List.mem_append.mp hr with hr | hr
    · exact (h.jobs job hjob).2 r hr hw
    · cases List.mem_singleton.mp hr
      cases hw

/-- What a claim hands out and leaves behind. -/
theorem claimPaymentReconciliation_cases {db db' : Db} {pick : TenantId × RequestId}
    {job : Option PaymentReconciliationJob}
    (h : claimPaymentReconciliation pick db = .ok (job, db')) :
    (job = none ∧ db' = db) ∨
    ∃ r ∈ db.checkout.reconciliations, isReconciliation pick.1 pick.2 r = true ∧
      isClaimable db r = true ∧ job = some (jobOf db.nextUuid r) ∧
      db' = bumpUuid (updateReconciliations db
        (fun r => isReconciliation pick.1 pick.2 r && isClaimable db r)
        (claimedReconciliation db.now db.nextUuid)) := by
  unfold claimPaymentReconciliation at h
  simp only at h
  split at h
  · cases h
    exact .inl ⟨rfl, rfl⟩
  · rename_i r hfind
    cases h
    obtain ⟨hmem, hsel⟩ := find?_some_spec hfind
    simp only [Bool.and_eq_true] at hsel
    exact .inr ⟨r, hmem, hsel.1, hsel.2, rfl, rfl⟩

theorem isReconciliation_iff {t : TenantId} {q : RequestId} {r : Reconciliation} :
    isReconciliation t q r = true ↔ r.tenantId = t ∧ r.requestId = q := by
  simp [isReconciliation]

theorem isClaimable_attempts {db : Db} {r : Reconciliation} (h : isClaimable db r = true) :
    r.attempts < reconciliationMaxAttempts := by
  simp only [isClaimable, Bool.and_eq_true, decide_eq_true_eq] at h
  exact h.1.1

/-- A claim: the job agrees with the row it took. -/
theorem QueueInv.claim {db db' : Db} {ws : List PaymentReconciliationJob}
    (h : QueueInv db ws) {pick : TenantId × RequestId} {job : Option PaymentReconciliationJob}
    (hr : claimPaymentReconciliation pick db = .ok (job, db')) :
    QueueInv db' (job.toList ++ ws) := by
  obtain ⟨rfl, rfl⟩ | ⟨r, hmem, hsel, hclaim, rfl, rfl⟩ := claimPaymentReconciliation_cases hr
  · exact h
  · obtain ⟨ht, hq⟩ := isReconciliation_iff.mp hsel
    -- a row of the new table with the fresh token is the row just claimed
    have hrows : ∀ s' ∈ updateWhere
        (fun r => isReconciliation pick.1 pick.2 r && isClaimable db r)
        (claimedReconciliation db.now db.nextUuid) db.checkout.reconciliations,
        s' = claimedReconciliation db.now db.nextUuid r ∨ s' ∈ db.checkout.reconciliations := by
      intro s' hs'
      obtain ⟨s, hs, rfl⟩ := mem_updateWhere.mp hs'
      split
      · rename_i hsel'
        simp only [Bool.and_eq_true] at hsel'
        obtain ⟨ht', hq'⟩ := isReconciliation_iff.mp hsel'.1
        rw [h.row_eq hs hmem (ht'.trans ht.symm) (hq'.trans hq.symm)]
        exact .inl rfl
      · exact .inr hs
    refine ⟨h.keys.updateWhere fun _ _ _ => rfl, fun s hs => ?_, fun j hj => ?_⟩
    · rcases hrows s hs with rfl | hold
      · have hold := h.rows r hmem
        refine ⟨by simp [leaseChecks_iff, claimedReconciliation],
          isClaimable_attempts hclaim, hold.authorize, hold.named, fun w hw => ?_⟩
        cases hw
        exact Nat.lt_succ_self _
      · exact (h.rows s hold).mono (Nat.le_succ _)
    · rcases List.mem_append.mp hj with hj | hj
      · cases List.mem_singleton.mp hj
        refine ⟨Nat.lt_succ_self _, fun s hs hw => ?_⟩
        rcases hrows s hs with rfl | hold
        · rfl
        · exact absurd ((h.rows s hold).token _ hw) (Nat.lt_irrefl _)
      · obtain ⟨hlt, hatt⟩ := h.jobs j hj
        refine ⟨Nat.lt_succ_of_lt hlt, fun s hs hw => ?_⟩
        rcases hrows s hs with rfl | hold
        · simp only [claimedReconciliation, Option.some.injEq] at hw
          omega
        · exact hatt s hold hw

/-- A transaction other than a claim. -/
theorem QueueInv.write {tx : Tx} {db db' : Db} {ws : List PaymentReconciliationJob}
    (h : QueueInv db ws) (hw : QueueWrite tx db db'.checkout.reconciliations)
    (hn : db.nextUuid ≤ db'.nextUuid)
    (hnamed : ∀ request, tx.handled = some request → request.2.length ≠ 0)
    (hclaim : ∀ pick, tx ≠ .claimPaymentReconciliation pick) : QueueInv db' ws := by
  generalize ht : db'.checkout.reconciliations = t at hw
  cases hw with
  | keep => exact h.frame ht hn
  | register htx htenant hnew =>
    exact h.insert ht hn hnew (hnamed (_, _) (by rw [htx]; rfl))
  | update hmove =>
    refine h.update ht hn (fun r hr hsel => ?_)
      (fun r hr hsel => (h.rows r hr).move (hmove r hr hsel) hn hclaim) (fun r hr hsel => ?_)
    · obtain ⟨h1, h2, -⟩ := (hmove r hr hsel).key
      simp [reconciliationKey, h1, h2]
    · obtain ⟨hatt, hnone | hsame⟩ := (hmove r hr hsel).token hclaim
      · exact .inl hnone
      · exact .inr ⟨hatt, hsame⟩

theorem Tx.handedOut_eq_nil {tx : Tx} (r : tx.Result)
    (hclaim : ∀ pick, tx ≠ .claimPaymentReconciliation pick) : tx.handedOut r = [] := by
  cases tx with
  | claimPaymentReconciliation pick => exact absurd rfl (hclaim pick)
  | _ => rfl

/-- A committed transaction keeps the invariant, the job it hands out included. -/
theorem QueueInv.run {tx : Tx} {db db' : Db} {ws : List PaymentReconciliationJob}
    {r : tx.Result} (h : QueueInv db ws) (hr : tx.run db = .ok (r, db'))
    (hnamed : ∀ request, tx.handled = some request → request.2.length ≠ 0) :
    QueueInv db' (tx.handedOut r ++ ws) := by
  by_cases hclaim : ∀ pick, tx ≠ .claimPaymentReconciliation pick
  · rw [tx.handedOut_eq_nil r hclaim]
    exact h.write (Tx.queueWrite hr) (Committed.checkout hr).fresher.uuid hnamed hclaim
  · rw [not_forall] at hclaim
    obtain ⟨pick, htx⟩ := hclaim
    rw [ne_eq, not_not] at htx
    subst htx
    exact h.claim hr

/-- Payment requeues jobs that wait, and resets their count. -/
theorem QueueInv.paymentEffect {Q : PaymentStore.Scope} {db db' : Db}
    {ws : List PaymentReconciliationJob} (h : QueueInv db ws)
    (he : PaymentStore.Effect Q db db') : QueueInv db' ws := by
  cases he with
  | act hq hvalid hnew hact => cases hact <;> exact h.frame rfl le_rfl
  | refl => exact h
  | refuse => exact h.frame rfl le_rfl
  | quarantine => exact h.frame rfl le_rfl
  | @resolve p requestId d sel hmem hpending hop hd hm hsel =>
    refine h.update rfl le_rfl (fun _ _ _ => rfl) (fun r hr hs => ?_) (fun _ _ _ => .inl rfl)
    have hrow := h.rows r hr
    refine ⟨?_, Nat.zero_le _, hrow.authorize, hrow.named, nofun⟩
    have hlease := leaseChecks_iff.mp hrow.leases
    rw [leaseChecks_iff]
    rcases (hsel r hs).2.2.2.1 with hst | hst <;> rw [hst] at hlease <;>
      simpa [PaymentStore.requeued] using hlease.2

theorem QueueInv.committed {a : Action} {db db' : Db} {ws : List PaymentReconciliationJob}
    (h : QueueInv db ws) (hc : Committed db a db')
    (hnamed : ∀ request, a.handled = some request → request.2.length ≠ 0) :
    QueueInv db' (a.handedOut db ++ ws) := by
  cases hc with
  | checkout hr =>
    simp only [Action.handedOut, hr]
    exact h.run hr hnamed
  | inventory hK heff =>
    obtain ⟨hck, -, -, hu⟩ := heff.frame
    exact h.frame (by rw [hck]) hu.ge
  | payment heff =>
    exact heff.invariant (I := fun x => QueueInv x ws) h fun _ _ ha he => ha.paymentEffect he
  | decided hnow hi =>
    obtain ⟨rfl, -, -⟩ := PaymentStore.insertDecision_ok hi
    exact h.frame rfl le_rfl
  | elapse => exact h.frame rfl le_rfl

theorem Action.handedOut_of_failed {db : Db} {a : Action} (h : a.commit db = none) :
    a.handedOut db = [] := by
  cases a with
  | checkout tx =>
    simp only [Action.commit] at h
    simp only [Action.handedOut]
    cases hr : tx.run db with
    | ok r => rw [hr] at h; cases h
    | error e => rfl
  | inventory | payment | elapse => rfl

/-! ## Runs -/

/-- The payment invariants look at no other table. -/
theorem consistent_committed {db db' : Db} {a : Action} (h : PaymentStore.Consistent db)
    (hc : Committed db a db') : PaymentStore.Consistent db' := by
  cases hc with
  | checkout hr =>
    obtain ⟨hp, -, hn⟩ := (Tx.run_changes hr).frame
    exact ⟨h.1.congr (by rw [hp]) (by rw [hp]) hn, h.2.congr (by rw [hp]) (by rw [hp])⟩
  | inventory hK heff =>
    obtain ⟨-, hp, hn, -⟩ := heff.frame
    exact ⟨h.1.congr (by rw [hp]) (by rw [hp]) hn, h.2.congr (by rw [hp]) (by rw [hp])⟩
  | payment heff =>
    exact heff.invariant h fun _ _ ha he => ⟨ha.1.effect he, ha.2.effect ha.1 he⟩
  | @decided d _ hnow hi =>
    exact h.step (a := .decide d) (by simp [PaymentStore.step, hnow, hi])
  | elapse => exact h.step (a := .environment _ db.checkout db.inventory) rfl

/-- The invariant of a run. -/
structure FlightInv (s : Flight) : Prop where
  queue : QueueInv s.db s.workers
  payment : PaymentStore.Consistent s.db
  reservations : KeyUnique Inventory.reservationKey s.db.inventory.reservations
  handlers : ∀ request ∈ s.handlers, request.2.length ≠ 0

theorem FlightInv.keyed {s : Flight} (h : FlightInv s) : Keyed s.db :=
  ⟨h.payment.1.ids, h.reservations⟩

theorem FlightInv.initial {s : Flight} (h : s.Initial) : FlightInv s where
  queue := by
    refine ⟨?_, ?_, ?_⟩
    · rw [h.reconciliations]
      exact KeyUnique.nil _
    · simp [h.reconciliations]
    · simp [h.workers]
  payment := ⟨PaymentStore.StoreInv.of_initial h.payment,
    PaymentStore.LedgerInv.of_initial h.payment⟩
  reservations := by
    rw [h.reservations]
    exact KeyUnique.nil _
  handlers := by simp [h.handlers]

/-- What an action of a run may assume, and what it does. -/
theorem Flight.step_act {s u : Flight} {a : Action} (h : s.step (.act a) = some u) :
    (∀ job, a.job = some job → job ∈ s.workers) ∧
    (∀ request, a.handled = some request → request ∈ s.handlers) ∧
    u = { s with db := (a.commit s.db).getD s.db, workers := a.handedOut s.db ++ s.workers } := by
  simp only [Flight.step] at h
  split at h
  · rename_i hguard
    simp only [Bool.and_eq_true, Option.all_eq_true, decide_eq_true_eq] at hguard
    cases h
    exact ⟨hguard.1, hguard.2, rfl⟩
  · cases h

theorem FlightInv.step {s u : Flight} {e : Event} (h : FlightInv s) (hs : s.step e = some u) :
    FlightInv u := by
  cases e with
  | arrive t q =>
    simp only [Flight.step] at hs
    split at hs
    · cases hs
    · cases hs
      refine ⟨h.queue, h.payment, h.reservations, ?_⟩
      intro request hmem
      rcases List.mem_cons.mp hmem with rfl | hmem
      · assumption
      · exact h.handlers request hmem
  | leave t q =>
    simp only [Flight.step] at hs
    split at hs
    · cases hs
      exact ⟨h.queue, h.payment, h.reservations,
        fun request hmem => h.handlers request (List.mem_of_mem_erase hmem)⟩
    · cases hs
  | stop job =>
    simp only [Flight.step] at hs
    split at hs
    · cases hs
      exact ⟨⟨h.queue.keys, h.queue.rows,
        fun j hj => h.queue.jobs j (List.mem_of_mem_erase hj)⟩, h.payment, h.reservations,
        h.handlers⟩
    · cases hs
  | act a =>
    obtain ⟨-, hnamed, rfl⟩ := Flight.step_act hs
    cases hcommit : a.commit s.db with
    | none =>
      rw [Action.handedOut_of_failed hcommit]
      exact h
    | some db' =>
      have hc := committed_of_commit h.keyed hcommit
      exact ⟨h.queue.committed hc fun request hr => h.handlers request (hnamed request hr),
        consistent_committed h.payment hc, (h.keyed.committed hc).reservations, h.handlers⟩

end CommercePlayground.Checkout
