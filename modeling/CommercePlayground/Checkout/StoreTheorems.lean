/-
CommercePlayground.Checkout.StoreTheorems — what a checkout transaction can do.

`Change tx db db'` is one write statement of the transaction `tx`, with the
guard under which the transaction issues it; `Changes` is their sequence.
`run_changes` says that a committed transaction is such a sequence, and every
invariant of the checkout tables is then a case analysis over `Change`.

* `AttemptMove`, `TaskMove`, `ReconciliationMove`: the row rewrites of the
  three fenced tables, one constructor for each SET clause.
* `lockCheckoutFence_generation`: a writer that passes its fence acts for the
  generation the attempt has.
-/
import CommercePlayground.Checkout.Store

namespace CommercePlayground.Checkout

open Lib

/-! ## Fences -/

theorem require_ok {c : Bool} {e : ApiError} {u : Unit} (h : require c e = .ok u) :
    c = true := by
  unfold require at h
  split at h
  · assumption
  · cases h

theorem isGeneration_iff {g : Generation} {a : CheckoutAttempt} : isGeneration g a = true ↔
    a.tenantId = g.tenantId ∧ a.requestId = g.requestId ∧ a.leaseToken = g.token := by
  simp [isGeneration]

/-- Some attempt has the generation `g`. -/
def Current (db : Db) (g : Generation) : Prop :=
  ∃ a ∈ db.checkout.attempts, isGeneration g a = true

/-- Some attempt, or some claimed reconciliation, is of the generation `g`. -/
def Owned (db : Db) (g : Generation) : Prop :=
  Current db g ∨ ∃ r ∈ db.checkout.reconciliations,
    isReconciliationOf g r = true ∧ r.status = .processing

theorem current_of_any {db : Db} {g : Generation} {p : CheckoutAttempt → Bool}
    (h : (db.checkout.attempts.any fun a => isGeneration g a && p a) = true) :
    Current db g := by
  obtain ⟨a, ha, hp⟩ := List.any_eq_true.mp h
  simp only [Bool.and_eq_true] at hp
  exact ⟨a, ha, hp.1⟩

theorem isLiveLease_generation {now : Nat} {g : Generation} {a : CheckoutAttempt}
    (h : isLiveLease now g a = true) : isGeneration g a = true ∧ a.status = .started := by
  simp only [isLiveLease, Bool.and_eq_true, decide_eq_true_eq] at h
  exact ⟨h.1.1, h.1.2⟩

theorem current_of_lease {db : Db} {g : Generation}
    (h : db.checkout.attempts.any (isLiveLease db.now g) = true) : Current db g := by
  obtain ⟨a, ha, hp⟩ := List.any_eq_true.mp h
  exact ⟨a, ha, (isLiveLease_generation hp).1⟩

/-- A writer that passes its fence acts for the attempt's own generation. -/
theorem lockCheckoutFence_generation {db : Db} {fence : CheckoutFence} {u : Unit}
    (h : lockCheckoutFence db fence = .ok u) : Current db fence.generation := by
  cases fence with
  | attempt lease => exact current_of_lease (require_ok h)
  | paymentReconciliation t r parent worker =>
    obtain ⟨_, hparent, -⟩ := bind_ok h
    exact current_of_any (require_ok hparent)
  | compensation t r token id claim =>
    obtain ⟨_, hparent, -⟩ := bind_ok h
    exact current_of_any (require_ok hparent)

theorem writerFence_owned {db : Db} {t : TenantId} {fence : CheckoutFence}
    {sts : List AttemptStatus} (h : writerFence db t fence sts = true) :
    Owned db (fence.generationIn t) := by
  cases fence with
  | attempt lease => exact .inl (current_of_any h)
  | paymentReconciliation _ r parent worker =>
    obtain ⟨rec, hrec, hp⟩ := List.any_eq_true.mp h
    simp only [Bool.and_eq_true, decide_eq_true_eq] at hp
    exact .inr ⟨rec, hrec, hp⟩
  | compensation => cases h

/-- A reconciliation worker that passes its fence holds its claim. -/
theorem lockCheckoutFence_claim {db : Db} {job : PaymentReconciliationJob} {u : Unit}
    (h : lockCheckoutFence db job.fence = .ok u) :
    ∃ r ∈ db.checkout.reconciliations,
      isClaim db.now job.fence.generation job.leaseToken r = true := by
  obtain ⟨_, -, hclaim⟩ := bind_ok h
  exact List.any_eq_true.mp (require_ok hclaim)

/-- What an attempt fence guards is a started attempt. -/
theorem lockCheckoutFence_started {db : Db} {lease : CheckoutLease} {u : Unit}
    (h : lockCheckoutFence db (.attempt lease) = .ok u) :
    ∃ a ∈ db.checkout.attempts,
      isGeneration (CheckoutFence.attempt lease).generation a = true ∧ a.status = .started := by
  obtain ⟨a, ha, hp⟩ := List.any_eq_true.mp (require_ok h)
  exact ⟨a, ha, isLiveLease_generation hp⟩

/-! ## Row moves -/

/-- What a transaction does to a row of `checkout_attempts`. -/
inductive AttemptMove (tx : Tx) (db : Db) (a : CheckoutAttempt) : CheckoutAttempt → Prop where
  /-- The heartbeat. -/
  | extend {fence : CheckoutFence} (hs : a.status = .started)
      (htx : tx = .refreshCheckoutFence fence) : AttemptMove tx db a (extendLease db.now a)
  | link {input : CheckoutInput} {quote : QuoteResponse} {lease : CheckoutLease} {o : Order}
      (htx : tx = .createPendingOrder input quote lease)
      (hsel : isLinkable (orderGeneration input lease) o.id a = true)
      (ho : o ∈ db.checkout.orders) (hto : o.tenantId = input.tenantId)
      (hro : o.checkoutRequestId = lease.requestId) :
      AttemptMove tx db a { a with orderId := some o.id, updatedAt := db.now }
  | respond {lease : CheckoutLease} {status : AttemptStatus} {orderId : Option OrderId}
      {payload : CheckoutPayload}
      (htx : tx = .recordCheckoutResponse lease status orderId payload)
      (hsel : isLiveLease db.now (CheckoutFence.attempt lease).generation a = true)
      (hst : status = .pending ∨ status = .paid ∨ status = .degraded) :
      AttemptMove tx db a (respond db.now status orderId payload a)
  /-- A stale attempt whose order turns out to be paid. -/
  | replay {payload : CheckoutPayload} {orderId : OrderId} {fingerprint : CheckoutInput}
      (hs : a.status = .started) (ho : a.orderId = some orderId)
      (htx : tx = .claimCheckoutAttempt a.tenantId a.requestId fingerprint) :
      AttemptMove tx db a (respond db.now .paid (some orderId) payload a)
  | reconciled {job : PaymentReconciliationJob} {payload : CheckoutPayload}
      (htx : tx = .completePaymentReconciliation job payload)
      (hsel : isSettledBy job a = true) :
      AttemptMove tx db a (respond db.now .paid (some job.orderId) payload a)
  | fail {lease : CheckoutLease} {error : ApiError}
      (htx : tx = .recordCheckoutFailure lease error)
      (hsel : isLiveLease db.now (CheckoutFence.attempt lease).generation a = true) :
      AttemptMove tx db a (fail db.now error a)
  | failReconciled {job : PaymentReconciliationJob} {error : ApiError}
      (htx : tx = .failPaymentReconciliation job error) (hsel : isSettledBy job a = true)
      (hclaim : ∃ r ∈ db.checkout.reconciliations,
        isClaim db.now job.fence.generation job.leaseToken r = true) :
      AttemptMove tx db a (fail db.now (boundedError error) a)

/-- What a transaction does to a row of `checkout_compensation_tasks`, apart
from claiming it. -/
inductive TaskMove (tx : Tx) (db : Db) (t : CompensationTask) : CompensationTask → Prop where
  /-- The heartbeat. -/
  | extend (hs : t.status = .processing) : TaskMove tx db t (extendClaim db.now t)
  | requeue {g : Generation} (howned : Owned db g) (htenant : t.tenantId = g.tenantId)
      (hkey : t.taskKey.token = g.token)
      (hpayment : ∀ p, t.taskKey.base = .payment p → ∃ order r fence,
        tx = .enqueuePaymentCompensationTask order p r fence ∧
          g.requestId = fence.generation.requestId) :
      TaskMove tx db t (requeuedTask db.now g t)
  | activate (hs : t.status = .prepared) : TaskMove tx db t
      { t with status := .queued, availableAt := min t.availableAt db.now, updatedAt := db.now }
  | begin {order : PendingOrder} {key : TaskKey} {fence : CheckoutFence}
      (htx : tx = .beginCompensationOperation order key fence)
      (hsel : isFencedTask order key fence [.prepared, .queued, .processing] t = true) :
      TaskMove tx db t
        { t with
          remoteOperationStartedAt := t.remoteOperationStartedAt.or (some db.now)
          remoteOperationCompletedAt := none
          updatedAt := db.now }
  | complete : TaskMove tx db t
      { t with remoteOperationCompletedAt := some db.now, updatedAt := db.now }
  | resolve {order : PendingOrder} {base : TaskBaseKey} {fence : CheckoutFence}
      (htx : tx = .resolveCompensationIntent order base fence)
      (hsel : isFencedTask order ⟨base, fence.generation.token⟩ fence [.queued] t = true) :
      TaskMove tx db t (closedTask db.now .completed t)
  | finish {task : ClaimedTask} (htx : tx = .finishCompensationTask task false)
      (hsel : isHeldBy db.now task t = true) :
      TaskMove tx db t (closedTask db.now .completed t)
  /-- A dead letter. -/
  | bury (hs : t.status = .processing) : TaskMove tx db t (closedTask db.now .failed t)
  | reschedule {task : ClaimedTask} (htx : tx = .rescheduleCompensationTask task)
      (hs : t.status = .processing) :
      TaskMove tx db t
        { closedTask db.now .queued t with
          availableAt := db.now + retryDelay task.attempts }

/-- What a transaction does to a row of `checkout_payment_reconciliations`,
apart from claiming it. -/
inductive ReconciliationMove (tx : Tx) (db : Db) (r : Reconciliation) :
    Reconciliation → Prop where
  /-- The heartbeat. -/
  | extend {fence : CheckoutFence} (hs : r.status = .processing)
      (htx : tx = .refreshCheckoutFence fence) :
      ReconciliationMove tx db r (extendReconciliation db.now r)
  | register {order : PendingOrder} {lease : CheckoutLease} {paymentId : Option PaymentId}
      {methodType : PaymentMethodType} {allowExpired : Bool}
      (htx : tx = .registerPendingPaymentReconciliation order lease paymentId methodType
        allowExpired)
      (hsel : isReconciliation order.tenantId lease.requestId r = true)
      (horder : r.orderId = order.id) (htenant : lease.tenantId = order.tenantId)
      (hparent : ∃ a ∈ db.checkout.attempts,
        isGeneration (CheckoutFence.attempt lease).generation a = true ∧ a.status = .started)
      (hpayment : paymentId.all (paymentExists db order.tenantId) = true) :
      ReconciliationMove tx db r (reregistered db.now lease paymentId r)
  | wake {t : TenantId} {requestId : RequestId}
      (hs : r.status = .awaitingProvider ∨ r.status = .queued)
      (htx : tx = .wakePaymentReconciliation t requestId) :
      ReconciliationMove tx db r (queuedNow db.now r)
  | exhaust (hs : r.status = .processing)
      (htx : tx = .reclaimExhaustedPaymentReconciliation) :
      ReconciliationMove tx db r (awaitProvider db.now r)
  | attach {job : PaymentReconciliationJob} {paymentId : PaymentId}
      (htx : tx = .attachPaymentToReconciliation job paymentId) (hsel : isJob job r = true)
      (hp : r.paymentId = none ∨ r.paymentId = some paymentId)
      (hpayment : paymentExists db job.tenantId paymentId = true) :
      ReconciliationMove tx db r { r with paymentId := some paymentId }
  | reschedule {job : PaymentReconciliationJob} (hs : r.status = .processing)
      (htx : tx = .reschedulePaymentReconciliation job) :
      ReconciliationMove tx db r (rescheduled db.now job.attempts r)
  /-- A completed job's attempt is paid. -/
  | complete {job : PaymentReconciliationJob} {payload : CheckoutPayload}
      (hs : r.status = .processing)
      (hpaid : ∃ a ∈ db.checkout.attempts,
        isAttempt r.tenantId r.requestId a = true ∧ a.status = .paid)
      (htx : tx = .completePaymentReconciliation job payload) :
      ReconciliationMove tx db r (closedReconciliation .completed r)
  | fail {job : PaymentReconciliationJob} {error : ApiError} (hs : r.status = .processing)
      (htx : tx = .failPaymentReconciliation job error) :
      ReconciliationMove tx db r (closedReconciliation .failed r)

/-- The four cancellations of a pending order, with what each checks. -/
inductive Cancels (tx : Tx) (db : Db) (tenantId : TenantId) (id : OrderId) : Prop where
  | fenced {order : PendingOrder} {fence : CheckoutFence}
      (htx : tx = .cancelOrderFenced order fence)
      (ht : order.tenantId = tenantId) (hid : order.id = id)
  | compensated {order : PendingOrder} {fence : CheckoutFence}
      (htx : tx = .cancelOrderIfCompensated order fence)
      (ht : order.tenantId = tenantId) (hid : order.id = id)
  | finished {task : ClaimedTask} (htx : tx = .finishCompensationTask task false)
      (ht : task.tenantId = tenantId) (hid : task.orderId = id)
  | failed {job : PaymentReconciliationJob} {error : ApiError}
      (htx : tx = .failPaymentReconciliation job error)
      (ht : job.tenantId = tenantId) (hid : job.orderId = id)
      (hclaim : ∃ r ∈ db.checkout.reconciliations,
        isClaim db.now job.fence.generation job.leaseToken r = true)

/-! ## Changes -/

/-- One write of the transaction `tx`. -/
inductive Change (tx : Tx) (db : Db) : Db → Prop where
  | openAttempt {t : TenantId} {r : RequestId} {fingerprint : CheckoutInput}
      (hnew : ∀ a ∈ db.checkout.attempts, isAttempt t r a = false)
      (htx : tx = .claimCheckoutAttempt t r fingerprint) :
      Change tx db (bumpUuid (setAttempts db
        (db.checkout.attempts ++ [newAttempt db t r fingerprint])))
  | reclaim {a : CheckoutAttempt} (ha : a ∈ db.checkout.attempts) (hs : a.status = .started)
      (hstale : isStale db.now a = true)
      (hsafe : staleReclaimOrderIsSafe a.orderId ((linkedOrder db a).map (·.status)) = true)
      (htx : tx = .claimCheckoutAttempt a.tenantId a.requestId a.requestFingerprint) :
      Change tx db (Checkout.reclaim db ⟨a.tenantId, a.requestId, a.leaseToken⟩)
  | attempts {sel : CheckoutAttempt → Bool} {f : CheckoutAttempt → CheckoutAttempt}
      (h : ∀ a ∈ db.checkout.attempts, sel a = true → AttemptMove tx db a (f a)) :
      Change tx db (updateAttempts db sel f)
  | uuid : Change tx db (bumpUuid db)
  | cart {input : CheckoutInput} {cartId : CartId} : Change tx db (ensureCart input cartId db)
  | order {input : CheckoutInput} {quote : QuoteResponse} {lease : CheckoutLease}
      {cartId : CartId} {totals : QuoteTotals} {lines : List OrderLine}
      (htx : tx = .createPendingOrder input quote lease)
      (hcart : checkCart input cartId db = .ok ())
      (hnew : orderOfRequest db input.tenantId lease.requestId = none)
      (hlines : (lines.map (·.variantId)).Nodup) :
      Change tx db (bumpUuid (setOrders db
        (db.checkout.orders ++ [newOrder input lease cartId totals lines db.nextUuid])))
  | cancel {t : TenantId} {id : OrderId} (h : Cancels tx db t id) :
      Change tx db (cancelOrder db t id)
  | pay {order : PendingOrder} {paymentId : PaymentId} {fence : CheckoutFence}
      (htx : tx = .finalizeOrder order paymentId fence)
      (hone : affected (isPendingOrder order.tenantId order.id) db.checkout.orders = 1) :
      Change tx db (insertPaidEvent order paymentId (payOrder db order))
  | checkOut {order : PendingOrder} {paymentId : PaymentId} {fence : CheckoutFence}
      (htx : tx = .finalizeOrder order paymentId fence) :
      Change tx db (checkOutCart db order)
  | redeem {order : PendingOrder} {paymentId : PaymentId} {fence : CheckoutFence} {db' : Db}
      (htx : tx = .finalizeOrder order paymentId fence)
      (h : redeemPromotion order db = .ok db') : Change tx db db'
  | exposure {order : PendingOrder} : Change tx db (insertExposure order db)
  | analytics {order : PendingOrder} {paymentId : PaymentId} :
      Change tx db (insertAnalytics order paymentId db)
  | task {order : PendingOrder} {fence : CheckoutFence} {base : TaskBaseKey} {kind : TaskKind}
      (hkey : ∀ t ∈ db.checkout.tasks,
        isTaskKey order.tenantId ⟨base, fence.generation.token⟩ t = false)
      (hkind : (∃ p r, tx = .enqueuePaymentCompensationTask order p r fence ∧
          base = .payment p ∧ kind = .payment p r order.currency ∧
          paymentExists db order.tenantId p = true) ∨
        ∃ r rs, tx = .enqueueInventoryCompensationTasks order rs fence ∧ r ∈ rs ∧
          base = .inventory r.reservationId ∧
          kind = .inventoryRelease r.reservationId r.sku r.quantity)
      (howned : Owned db (fence.generationIn order.tenantId)) :
      Change tx db (bumpUuid (setTasks db
        (db.checkout.tasks ++ [newTask db order fence base kind])))
  | tasks {sel : CompensationTask → Bool} {f : CompensationTask → CompensationTask}
      (h : ∀ t ∈ db.checkout.tasks, sel t = true → TaskMove tx db t (f t)) :
      Change tx db (updateTasks db sel f)
  | claimTask {pick : Nat} {t : CompensationTask} (ht : t ∈ db.checkout.tasks)
      (hpick : t.id = pick) (hclaim : isClaimableTask db t = true) :
      Change tx db (bumpUuid (updateTasks db
        (fun t => decide (t.id = pick) && isClaimableTask db t)
        (claimedTask db.now db.nextUuid)))
  | reconciliation {order : PendingOrder} {lease : CheckoutLease}
      {paymentId : Option PaymentId} {methodType : PaymentMethodType} {allowExpired : Bool}
      (htx : tx = .registerPendingPaymentReconciliation order lease paymentId methodType
        allowExpired)
      (htenant : lease.tenantId = order.tenantId)
      (hnew : ∀ r ∈ db.checkout.reconciliations,
        isReconciliation order.tenantId lease.requestId r = false)
      (hparent : ∃ a ∈ db.checkout.attempts,
        isGeneration (CheckoutFence.attempt lease).generation a = true ∧ a.status = .started)
      (hpayment : paymentId.all (paymentExists db order.tenantId) = true) :
      Change tx db (setReconciliations db (db.checkout.reconciliations ++
        [newReconciliation db order lease paymentId methodType]))
  | reconciliations {sel : Reconciliation → Bool} {f : Reconciliation → Reconciliation}
      (h : ∀ r ∈ db.checkout.reconciliations, sel r = true →
        ReconciliationMove tx db r (f r)) :
      Change tx db (updateReconciliations db sel f)
  | claimReconciliation {pick : TenantId × RequestId} {sel : Reconciliation → Bool}
      (h : ∀ r ∈ db.checkout.reconciliations, sel r = true → isClaimable db r = true)
      (htx : tx = .claimPaymentReconciliation pick) :
      Change tx db (bumpUuid (updateReconciliations db sel
        (claimedReconciliation db.now db.nextUuid)))

/-- The writes of a transaction, in order. -/
inductive Changes (tx : Tx) (db : Db) : Db → Prop where
  | refl : Changes tx db db
  | tail {db₁ db₂ : Db} : Changes tx db db₁ → Change tx db₁ db₂ → Changes tx db db₂

theorem Change.toChanges {tx : Tx} {db db' : Db} (h : Change tx db db') : Changes tx db db' :=
  .tail .refl h

theorem Changes.trans {tx : Tx} {a b c : Db} (h₁ : Changes tx a b) (h₂ : Changes tx b c) :
    Changes tx a c := by
  induction h₂ with
  | refl => exact h₁
  | tail _ hc ih => exact .tail ih hc

/-- What every write keeps, a transaction keeps. -/
theorem Changes.invariant {tx : Tx} {I : Db → Prop} {db db' : Db} (h : Changes tx db db')
    (h0 : I db) (hstep : ∀ a b, I a → Change tx a b → I b) : I db' := by
  induction h with
  | refl => exact h0
  | tail _ hc ih => exact hstep _ _ ih hc

/-! ## Every transaction is a sequence of changes -/

section Runs

variable {db db' : Db}

theorem refreshCheckoutFence_changes {fence : CheckoutFence} {u : Unit}
    (h : refreshCheckoutFence fence db = .ok (u, db')) :
    Changes (.refreshCheckoutFence fence) db db' := by
  cases fence with
  | attempt lease =>
    obtain ⟨_, -, h⟩ := bind_ok h
    cases h
    exact (Change.attempts fun a _ hsel =>
      .extend (isLiveLease_generation hsel).2 rfl).toChanges
  | paymentReconciliation t r parent worker =>
    obtain ⟨_, -, h⟩ := bind_ok h
    obtain ⟨_, -, h⟩ := bind_ok h
    cases h
    refine (Change.reconciliations fun r _ hsel => .extend ?_ rfl).toChanges
    simp only [isClaim, isProcessing, Bool.and_eq_true, decide_eq_true_eq] at hsel
    exact hsel.2.1
  | compensation t r token id claim =>
    obtain ⟨_, -, h⟩ := bind_ok h
    obtain ⟨_, -, h⟩ := bind_ok h
    cases h
    refine Changes.tail (.tail (.tail .refl (.tasks fun t _ hsel => .extend ?_))
      (.attempts fun a _ hsel => .extend (isLiveLease_generation hsel).2 rfl))
      (.reconciliations fun r _ hsel => .extend ?_ rfl)
    · simp only [isClaimedTask, Bool.and_eq_true, decide_eq_true_eq] at hsel
      exact hsel.1.2.2.2.1
    · simp only [isProcessing, Bool.and_eq_true, decide_eq_true_eq] at hsel
      exact hsel.2.1

theorem claimStaleAttempt_changes {a : CheckoutAttempt} {c : CheckoutAttemptClaim}
    (ha : a ∈ db.checkout.attempts) (hs : a.status = .started)
    (hstale : isStale db.now a = true) (h : claimStaleAttempt a db = .ok (c, db')) :
    Changes (.claimCheckoutAttempt a.tenantId a.requestId a.requestFingerprint) db db' := by
  unfold claimStaleAttempt at h
  simp only at h
  split at h
  · rename_i o ho
    split at h
    · split at h
      · cases h
        refine (Change.attempts fun a' _ hsel => ?_).toChanges
        simp only [Bool.and_eq_true, decide_eq_true_eq] at hsel
        obtain ⟨ht, hr, -⟩ := isGeneration_iff.mp hsel.1
        exact .replay hsel.2.1 hsel.2.2 (by rw [ht, hr])
      · cases h
    · split at h
      · cases h
      · rename_i hsafe
        cases h
        exact (Change.reclaim ha hs hstale (by simpa using hsafe) rfl).toChanges
  · rename_i hnone
    cases h
    exact (Change.reclaim ha hs hstale (by simp [staleReclaimOrderIsSafe, hnone]) rfl).toChanges

theorem claimCheckoutAttempt_changes {t : TenantId} {r : RequestId}
    {fingerprint : CheckoutInput} {c : CheckoutAttemptClaim}
    (h : claimCheckoutAttempt t r fingerprint db = .ok (c, db')) :
    Changes (.claimCheckoutAttempt t r fingerprint) db db' := by
  unfold claimCheckoutAttempt at h
  split at h
  · rename_i hnone
    cases h
    refine (Change.openAttempt (fun a ha => ?_) rfl).toChanges
    simpa using List.find?_eq_none.mp hnone a ha
  · rename_i a ha
    obtain ⟨hmem, hkey⟩ := find?_some_spec ha
    simp only [isAttempt, decide_eq_true_eq] at hkey
    obtain ⟨rfl, rfl⟩ := hkey
    split at h
    · cases h
    · rename_i hsame
      rw [not_not] at hsame
      subst hsame
      split at h
      · rename_i hs
        split at h
        · rename_i hstale
          exact claimStaleAttempt_changes hmem hs hstale h
        · cases h
          exact .refl
      all_goals
        try split at h
        all_goals first | (cases h; exact .refl) | cases h

/-- The link of an attempt to the order of its request. -/
theorem linkOrder_changes {input : CheckoutInput} {quote : QuoteResponse}
    {lease : CheckoutLease} {o : Order} {m : String} (ho : o ∈ db.checkout.orders)
    (hto : o.tenantId = input.tenantId) (hro : o.checkoutRequestId = lease.requestId)
    (h : linkOrder (orderGeneration input lease) o.id m db = .ok db') :
    Changes (.createPendingOrder input quote lease) db db' := by
  unfold linkOrder at h
  simp only at h
  split at h
  · cases h
    exact (Change.attempts fun a _ hsel => .link rfl hsel ho hto hro).toChanges
  · cases h

theorem orderOfRequest_some {t : TenantId} {r : RequestId} {o : Order}
    (h : orderOfRequest db t r = some o) :
    o ∈ db.checkout.orders ∧ o.tenantId = t ∧ o.checkoutRequestId = r := by
  obtain ⟨hmem, hp⟩ := find?_some_spec h
  simp only [decide_eq_true_eq] at hp
  exact ⟨hmem, hp⟩

theorem ensureCart_orders (input : CheckoutInput) (cartId : CartId) (db : Db) :
    (ensureCart input cartId db).checkout.orders = db.checkout.orders := by
  unfold ensureCart
  split <;> rfl

theorem createPendingOrder_changes {input : CheckoutInput} {quote : QuoteResponse}
    {lease : CheckoutLease} {order : PendingOrder}
    (h : createPendingOrder input quote lease db = .ok (order, db')) :
    Changes (.createPendingOrder input quote lease) db db' := by
  obtain ⟨_, -, h⟩ := bind_ok h
  obtain ⟨_, -, h⟩ := bind_ok h
  split at h
  · -- the request has an order: only the attempt is linked
    rename_i o ho
    obtain ⟨hmem, ht, hr⟩ := orderOfRequest_some ho
    obtain ⟨_, -, h⟩ := bind_ok h
    obtain ⟨db₁, hlink, h⟩ := bind_ok h
    cases h
    exact linkOrder_changes hmem ht hr hlink
  · rename_i hnone
    obtain ⟨totals, -, h⟩ := bind_ok h
    obtain ⟨⟨⟩, hcart, h⟩ := bind_ok h
    obtain ⟨lines, -, h⟩ := bind_ok h
    obtain ⟨_, -, h⟩ := bind_ok h
    obtain ⟨_, hnodup, h⟩ := bind_ok h
    obtain ⟨db₃, hlink, h⟩ := bind_ok h
    cases h
    have hnew : orderOfRequest (ensureCart input (chosenCart input db) (bumpUuid db))
        input.tenantId lease.requestId = none := by
      unfold orderOfRequest
      rw [ensureCart_orders]
      exact hnone
    refine Changes.trans (.tail (.tail (.tail .refl .uuid) .cart)
      (.order rfl hcart hnew (by simpa using require_ok hnodup)))
      (linkOrder_changes (List.mem_append_right _ (List.mem_singleton_self _)) rfl rfl hlink)

theorem recordCheckoutResponse_changes {lease : CheckoutLease} {status : AttemptStatus}
    {orderId : Option OrderId} {payload : CheckoutPayload} {u : Unit}
    (h : recordCheckoutResponse lease status orderId payload db = .ok (u, db')) :
    Changes (.recordCheckoutResponse lease status orderId payload) db db' := by
  obtain ⟨_, -, h⟩ := bind_ok h
  obtain ⟨_, hst, h⟩ := bind_ok h
  cases h
  have hst' := require_ok hst
  simp only [decide_eq_true_eq] at hst'
  exact (Change.attempts fun a _ hsel => .respond rfl hsel hst').toChanges

theorem recordCheckoutFailure_changes {lease : CheckoutLease} {error : ApiError} {u : Unit}
    (h : recordCheckoutFailure lease error db = .ok (u, db')) :
    Changes (.recordCheckoutFailure lease error) db db' := by
  obtain ⟨_, -, h⟩ := bind_ok h
  cases h
  exact (Change.attempts fun a _ hsel => .fail rfl hsel).toChanges

theorem cancelOrderFenced_changes {order : PendingOrder} {fence : CheckoutFence} {u : Unit}
    (h : cancelOrderFenced order fence db = .ok (u, db')) :
    Changes (.cancelOrderFenced order fence) db db' := by
  obtain ⟨_, -, h⟩ := bind_ok h
  obtain ⟨_, -, h⟩ := bind_ok h
  cases h
  exact (Change.cancel (.fenced rfl rfl rfl)).toChanges

theorem cancelOrderIfCompensated_changes {order : PendingOrder} {fence : CheckoutFence}
    {u : Unit} (h : cancelOrderIfCompensated order fence db = .ok (u, db')) :
    Changes (.cancelOrderIfCompensated order fence) db db' := by
  obtain ⟨_, -, h⟩ := bind_ok h
  obtain ⟨_, -, h⟩ := bind_ok h
  cases h
  exact (Change.cancel (.compensated rfl rfl rfl)).toChanges

/-- The paid event only reads and writes the outbox. -/
theorem insertPaidEvent_eq (order : PendingOrder) (p : PaymentId) (db : Db) :
    ∃ t, insertPaidEvent order p db = setOutbox db t ∧
      ∀ db₁ : Db, db₁.checkout.outbox = db.checkout.outbox →
        insertPaidEvent order p db₁ = setOutbox db₁ t := by
  unfold insertPaidEvent
  split
  · rename_i hex
    refine ⟨db.checkout.outbox, rfl, fun db₁ ho => ?_⟩
    rw [if_pos (by rw [ho]; exact hex), ← ho]
    rfl
  · rename_i hno
    refine ⟨_, rfl, fun db₁ ho => ?_⟩
    rw [if_neg (by rw [ho]; exact hno), ho]

theorem redeemPromotion_outbox {order : PendingOrder} (t : List OutboxEvent)
    (h : redeemPromotion order db = .ok db') :
    db'.checkout.outbox = db.checkout.outbox ∧
      redeemPromotion order (setOutbox db t) = .ok (setOutbox db' t) := by
  unfold redeemPromotion at h ⊢
  split at h
  · cases h
    exact ⟨rfl, rfl⟩
  · simp only at h ⊢
    split at h
    · rename_i hone
      cases h
      refine ⟨rfl, ?_⟩
      rw [if_pos (by exact hone)]
      rfl
    · cases h

theorem finalizeOrder_changes {order : PendingOrder} {p : PaymentId} {fence : CheckoutFence}
    {u : Unit} (h : finalizeOrder order p fence db = .ok (u, db')) :
    Changes (.finalizeOrder order p fence) db db' := by
  obtain ⟨_, -, h⟩ := bind_ok h
  obtain ⟨_, hone, h⟩ := bind_ok h
  obtain ⟨_, -, h⟩ := bind_ok h
  obtain ⟨db₃, hredeem, h⟩ := bind_ok h
  cases h
  have hone' := require_ok hone
  simp only [Bool.and_eq_true, decide_eq_true_eq] at hone'
  -- the event touches no table the other statements read, so it moves up
  obtain ⟨t, ht, hcomm⟩ := insertPaidEvent_eq order p (payOrder db order)
  obtain ⟨hout, hredeem'⟩ := redeemPromotion_outbox t hredeem
  rw [hcomm (insertAnalytics order p (insertExposure order db₃)) hout]
  have hredeemed : Changes (.finalizeOrder order p fence) db (setOutbox db₃ t) := by
    refine .tail (.tail (.tail .refl (.pay rfl hone'.1)) (.checkOut rfl)) (.redeem rfl ?_)
    rw [ht]
    exact hredeem'
  exact .tail (.tail hredeemed .exposure) .analytics

theorem lockRegistration_started {lease : CheckoutLease} {b : Bool} {u : Unit}
    (h : lockRegistration lease b db = .ok u) :
    ∃ a ∈ db.checkout.attempts,
      isGeneration (CheckoutFence.attempt lease).generation a = true ∧ a.status = .started := by
  unfold lockRegistration at h
  split at h
  · obtain ⟨a, ha, hp⟩ := List.any_eq_true.mp (require_ok h)
    simp only [Bool.and_eq_true, decide_eq_true_eq] at hp
    exact ⟨a, ha, hp⟩
  · exact lockCheckoutFence_started h

theorem registerPendingPaymentReconciliation_changes {order : PendingOrder}
    {lease : CheckoutLease} {p : Option PaymentId} {m : PaymentMethodType} {b : Bool} {u : Unit}
    (h : registerPendingPaymentReconciliation order lease p m b db = .ok (u, db')) :
    Changes (.registerPendingPaymentReconciliation order lease p m b) db db' := by
  obtain ⟨_, htenant, h⟩ := bind_ok h
  obtain ⟨_, hlock, h⟩ := bind_ok h
  obtain ⟨_, hpay, h⟩ := bind_ok h
  obtain ⟨db₁, hup, h⟩ := bind_ok h
  cases h
  have htenant' := require_ok htenant
  simp only [decide_eq_true_eq] at htenant'
  have hparent := lockRegistration_started hlock
  have hpay' := require_ok hpay
  unfold upsertReconciliation at hup
  simp only at hup
  split at hup
  · split at hup
    · cases hup
      refine (Change.reconciliations fun r _ hsel => ?_).toChanges
      simp only [Bool.and_eq_true, decide_eq_true_eq] at hsel
      exact .register rfl hsel.1 hsel.2.1 htenant' hparent hpay'
    · cases hup
  · rename_i hnone
    cases hup
    refine (Change.reconciliation rfl htenant' (fun r hr => ?_) hparent hpay').toChanges
    simpa using fun hsel => hnone (List.any_eq_true.mpr ⟨r, hr, hsel⟩)

theorem wakePaymentReconciliation_changes {t : TenantId} {r : RequestId} {u : Unit}
    (h : wakePaymentReconciliation t r db = .ok (u, db')) :
    Changes (.wakePaymentReconciliation t r) db db' := by
  obtain ⟨_, -, h⟩ := bind_ok h
  cases h
  refine (Change.reconciliations fun r _ hsel => .wake ?_ rfl).toChanges
  simp only [Bool.and_eq_true, decide_eq_true_eq] at hsel
  exact hsel.2

theorem claimPaymentReconciliation_changes {pick : TenantId × RequestId}
    {job : Option PaymentReconciliationJob}
    (h : claimPaymentReconciliation pick db = .ok (job, db')) :
    Changes (.claimPaymentReconciliation pick) db db' := by
  unfold claimPaymentReconciliation at h
  simp only at h
  split at h
  · cases h
    exact .refl
  · cases h
    refine (Change.claimReconciliation (fun r _ hsel => ?_) rfl).toChanges
    simp only [Bool.and_eq_true] at hsel
    exact hsel.2

theorem isJob_processing {job : PaymentReconciliationJob} {r : Reconciliation}
    (h : isJob job r = true) : r.status = .processing := by
  simp only [isJob, Bool.and_eq_true, decide_eq_true_eq] at h
  exact h.2.1

theorem reclaimExhaustedPaymentReconciliation_changes {b : Bool}
    (h : reclaimExhaustedPaymentReconciliation db = .ok (b, db')) :
    Changes .reclaimExhaustedPaymentReconciliation db db' := by
  cases h
  refine (Change.reconciliations fun r _ hsel => .exhaust ?_ rfl).toChanges
  simp only [Bool.and_eq_true, decide_eq_true_eq] at hsel
  exact hsel.1.1

theorem attachPaymentToReconciliation_changes {job : PaymentReconciliationJob} {p : PaymentId}
    {u : Unit} (h : attachPaymentToReconciliation job p db = .ok (u, db')) :
    Changes (.attachPaymentToReconciliation job p) db db' := by
  obtain ⟨_, -, h⟩ := bind_ok h
  obtain ⟨_, -, h⟩ := bind_ok h
  obtain ⟨_, hpay, h⟩ := bind_ok h
  cases h
  refine (Change.reconciliations fun r _ hsel => ?_).toChanges
  simp only [Bool.and_eq_true, decide_eq_true_eq] at hsel
  exact .attach rfl hsel.1 hsel.2 (require_ok hpay)

theorem reschedulePaymentReconciliation_changes {job : PaymentReconciliationJob}
    {u : Unit} (h : reschedulePaymentReconciliation job db = .ok (u, db')) :
    Changes (.reschedulePaymentReconciliation job) db db' := by
  obtain ⟨_, -, h⟩ := bind_ok h
  obtain ⟨_, -, h⟩ := bind_ok h
  cases h
  exact (Change.reconciliations fun r _ hsel =>
    .reschedule (isJob_processing hsel) rfl).toChanges

theorem isJob_key {job : PaymentReconciliationJob} {r : Reconciliation}
    (h : isJob job r = true) :
    r.tenantId = job.tenantId ∧ r.requestId = job.requestId ∧
      r.checkoutLeaseToken = job.parentLeaseToken := by
  simp only [isJob, isReconciliationOf, Bool.and_eq_true, decide_eq_true_eq] at h
  exact h.1

theorem isSettledBy_key {job : PaymentReconciliationJob} {a : CheckoutAttempt}
    (h : isSettledBy job a = true) :
    isAttempt job.tenantId job.requestId a = true ∧ a.leaseToken = job.parentLeaseToken ∧
      (a.status = .pending ∨ a.status = .failed ∨ a.status = .started) ∧
      a.orderId = some job.orderId := by
  simp only [isSettledBy, isGeneration, Bool.and_eq_true, decide_eq_true_eq] at h
  simp only [isAttempt, decide_eq_true_eq]
  exact ⟨⟨h.1.1.1, h.1.1.2.1⟩, h.1.1.2.2, h.1.2, h.2⟩

/-- After the attempt update of a completed job, the job's attempt is paid. -/
theorem completed_attempt_paid {job : PaymentReconciliationJob} (payload : CheckoutPayload)
    (h : (decide (affected (isSettledBy job) db.checkout.attempts = 1) ||
      decide (attemptStatus db job.tenantId job.requestId = some .paid)) = true) :
    ∃ a ∈ (updateAttempts db (isSettledBy job)
        (respond db.now .paid (some job.orderId) payload)).checkout.attempts,
      isAttempt job.tenantId job.requestId a = true ∧ a.status = .paid := by
  simp only [Bool.or_eq_true, decide_eq_true_eq] at h
  rcases h with hone | hpaid
  · obtain ⟨a, ha, hsel⟩ := exists_of_affected_ne_zero (by rw [hone]; decide)
    exact ⟨_, mem_updateWhere_of_pos ha hsel, (isSettledBy_key hsel).1, rfl⟩
  · obtain ⟨a, hfind, hst⟩ := Option.map_eq_some_iff.mp hpaid
    obtain ⟨ha, hkey⟩ := find?_some_spec hfind
    have hsel : isSettledBy job a = false := by
      by_contra hsel
      rw [Bool.not_eq_false] at hsel
      rcases (isSettledBy_key hsel).2.2.1 with h' | h' | h' <;> rw [h'] at hst <;> cases hst
    exact ⟨a, mem_updateWhere_of_not ha hsel, hkey, hst⟩

theorem completePaymentReconciliation_changes {job : PaymentReconciliationJob}
    {payload : CheckoutPayload} {u : Unit}
    (h : completePaymentReconciliation job payload db = .ok (u, db')) :
    Changes (.completePaymentReconciliation job payload) db db' := by
  obtain ⟨_, -, h⟩ := bind_ok h
  obtain ⟨_, hattempt, h⟩ := bind_ok h
  obtain ⟨_, -, h⟩ := bind_ok h
  cases h
  have hpaid := completed_attempt_paid payload (require_ok hattempt)
  refine Changes.tail (.tail .refl (.attempts fun a _ hsel => .reconciled rfl hsel))
    (.reconciliations fun r _ hsel => .complete (isJob_processing hsel) ?_ rfl)
  obtain ⟨ht, hr, -⟩ := isJob_key hsel
  rw [ht, hr]
  exact hpaid

theorem failPaymentReconciliation_changes {job : PaymentReconciliationJob} {error : ApiError}
    {u : Unit} (h : failPaymentReconciliation job error db = .ok (u, db')) :
    Changes (.failPaymentReconciliation job error) db db' := by
  obtain ⟨_, hlock, h⟩ := bind_ok h
  obtain ⟨_, -, h⟩ := bind_ok h
  obtain ⟨_, -, h⟩ := bind_ok h
  cases h
  have hclaim := lockCheckoutFence_claim hlock
  refine Changes.tail (.trans (.tail .refl
    (.attempts fun a _ hsel => .failReconciled rfl hsel hclaim)) ?_)
    (.reconciliations fun r _ hsel => .fail (isJob_processing hsel) rfl)
  unfold cancelFailedOrder
  split
  · exact (Change.cancel (Cancels.failed rfl rfl rfl (by exact hclaim))).toChanges
  · exact .refl

/-- What an enqueue inserts or makes due again. -/
theorem enqueueTask_changes {tx : Tx} {order : PendingOrder} {fence : CheckoutFence}
    {base : TaskBaseKey} {kind : TaskKind} {m : String}
    (hkind : (∃ p r, tx = .enqueuePaymentCompensationTask order p r fence ∧
        base = .payment p ∧ kind = .payment p r order.currency) ∨
      ∃ r rs, tx = .enqueueInventoryCompensationTasks order rs fence ∧ r ∈ rs ∧
        base = .inventory r.reservationId ∧
        kind = .inventoryRelease r.reservationId r.sku r.quantity)
    (h : enqueueTask order fence base kind m db = .ok db') : Changes tx db db' := by
  unfold enqueueTask at h
  simp only at h
  split at h
  · cases h
  · rename_i hfence
    rw [Bool.not_eq_false] at hfence
    have howned := writerFence_owned hfence
    split at h
    · cases h
      refine (Change.tasks fun t _ hsel => ?_).toChanges
      have hkey : t.tenantId = order.tenantId ∧ t.taskKey = ⟨base, fence.generation.token⟩ :=
        of_decide_eq_true hsel
      refine .requeue howned hkey.1 (by rw [hkey.2]; rfl) fun p hp => ?_
      rw [hkey.2] at hp
      rcases hkind with ⟨p', r, htx, hb, -⟩ | ⟨r, rs, htx, -, hb, -⟩
      · cases hb.symm.trans hp
        exact ⟨order, r, fence, htx, rfl⟩
      · cases hb.symm.trans hp
    · rename_i hnone
      split at h
      · cases h
      · rename_i hvalid
        cases h
        refine (Change.task (fun t ht => ?_) ?_ howned).toChanges
        · rw [← Bool.not_eq_true]
          exact fun hsel => hnone (List.any_eq_true.mpr ⟨t, ht, hsel⟩)
        · rcases hkind with ⟨p, r, htx, hb, hk⟩ | hk
          · refine .inl ⟨p, r, htx, hb, hk, ?_⟩
            subst hk
            simpa [taskRowValid, newTask] using hvalid
          · exact .inr hk

theorem enqueueReleases_changes {order : PendingOrder} {fence : CheckoutFence}
    {rs all : List InventoryReservation} (hsub : ∀ r ∈ rs, r ∈ all)
    (h : enqueueReleases order fence rs db = .ok db') :
    Changes (.enqueueInventoryCompensationTasks order all fence) db db' := by
  induction rs generalizing db with
  | nil =>
    cases h
    exact .refl
  | cons r rs ih =>
    obtain ⟨db₁, hone, hrest⟩ := bind_ok h
    refine (enqueueTask_changes (.inr ⟨r, all, rfl, hsub r (by simp), rfl, rfl⟩) hone).trans ?_
    exact ih (fun r' hr' => hsub r' (by simp [hr'])) hrest

theorem enqueueInventoryCompensationTasks_changes {order : PendingOrder}
    {rs : List InventoryReservation} {fence : CheckoutFence} {u : Unit}
    (h : enqueueInventoryCompensationTasks order rs fence db = .ok (u, db')) :
    Changes (.enqueueInventoryCompensationTasks order rs fence) db db' := by
  obtain ⟨_, -, h⟩ := bind_ok h
  obtain ⟨db₁, henq, h⟩ := bind_ok h
  cases h
  exact enqueueReleases_changes (fun _ hr => hr) henq

theorem enqueuePaymentCompensationTask_changes {order : PendingOrder} {p : PaymentId}
    {r : RequestId} {fence : CheckoutFence} {u : Unit}
    (h : enqueuePaymentCompensationTask order p r fence db = .ok (u, db')) :
    Changes (.enqueuePaymentCompensationTask order p r fence) db db' := by
  obtain ⟨_, -, h⟩ := bind_ok h
  obtain ⟨db₁, henq, h⟩ := bind_ok h
  cases h
  exact enqueueTask_changes (.inl ⟨p, r, rfl, rfl, rfl⟩) henq

theorem isFencedTask_status {order : PendingOrder} {key : TaskKey} {fence : CheckoutFence}
    {sts : List TaskStatus} {t : CompensationTask}
    (h : isFencedTask order key fence sts t = true) : t.status ∈ sts := by
  simp only [isFencedTask, Bool.and_eq_true, decide_eq_true_eq] at h
  exact h.2.2.2

theorem activateCompensationIntent_changes {tx : Tx} {order : PendingOrder} {key : TaskKey}
    {fence : CheckoutFence} {u : Unit}
    (h : activateCompensationIntent order key fence db = .ok (u, db')) : Changes tx db db' := by
  obtain ⟨_, -, h⟩ := bind_ok h
  obtain ⟨_, -, h⟩ := bind_ok h
  cases h
  refine (Change.tasks fun t _ hsel => .activate ?_).toChanges
  simp only [Bool.and_eq_true] at hsel
  exact List.mem_singleton.mp (isFencedTask_status hsel.1)

theorem resolveCompensationIntent_changes {order : PendingOrder} {base : TaskBaseKey}
    {fence : CheckoutFence} {u : Unit}
    (h : resolveCompensationIntent order base fence db = .ok (u, db')) :
    Changes (.resolveCompensationIntent order base fence) db db' := by
  obtain ⟨_, -, h⟩ := bind_ok h
  obtain ⟨_, -, h⟩ := bind_ok h
  cases h
  refine (Change.tasks fun t _ hsel => .resolve rfl ?_).toChanges
  simp only [Bool.and_eq_true] at hsel
  exact hsel.1

theorem beginCompensationOperation_changes {order : PendingOrder} {key : TaskKey}
    {fence : CheckoutFence} {u : Unit}
    (h : beginCompensationOperation order key fence db = .ok (u, db')) :
    Changes (.beginCompensationOperation order key fence) db db' := by
  obtain ⟨_, -, h⟩ := bind_ok h
  obtain ⟨_, -, h⟩ := bind_ok h
  cases h
  exact (Change.tasks fun t _ hsel => .begin rfl hsel).toChanges

theorem completeCompensationOperation_changes {tx : Tx} {order : PendingOrder} {key : TaskKey}
    {fence : CheckoutFence} {u : Unit}
    (h : completeCompensationOperation order key fence db = .ok (u, db')) :
    Changes tx db db' := by
  obtain ⟨_, -, h⟩ := bind_ok h
  obtain ⟨_, -, h⟩ := bind_ok h
  cases h
  exact (Change.tasks fun t _ _ => .complete).toChanges

theorem claimCompensationTask_changes {tx : Tx} {pick : Nat} {task : Option ClaimedTask}
    (h : claimCompensationTask pick db = .ok (task, db')) : Changes tx db db' := by
  unfold claimCompensationTask at h
  simp only at h
  split at h
  · cases h
    exact .refl
  · rename_i t hfind
    cases h
    obtain ⟨hmem, hsel⟩ := find?_some_spec hfind
    simp only [Bool.and_eq_true, decide_eq_true_eq] at hsel
    exact (Change.claimTask hmem hsel.1 hsel.2).toChanges

theorem isHeldBy_processing {now : Nat} {task : ClaimedTask} {t : CompensationTask}
    (h : isHeldBy now task t = true) : t.status = .processing := by
  simp only [isHeldBy, Bool.and_eq_true, decide_eq_true_eq] at h
  exact h.1.2.2.1

theorem finishCompensationTask_changes {task : ClaimedTask} {failed : Bool} {u : Unit}
    (h : finishCompensationTask task failed db = .ok (u, db')) :
    Changes (.finishCompensationTask task failed) db db' := by
  obtain ⟨_, -, h⟩ := bind_ok h
  obtain ⟨_, -, h⟩ := bind_ok h
  cases failed with
  | true =>
    cases h
    exact (Change.tasks fun t _ hsel => .bury (isHeldBy_processing hsel)).toChanges
  | false =>
    cases h
    refine Changes.trans (.tail .refl (.tasks fun t _ hsel => .finish rfl hsel)) ?_
    unfold cancelFinishedOrder
    split
    · exact (Change.cancel (.finished rfl rfl rfl)).toChanges
    · exact .refl

theorem deadLetterExpiredCompensationTask_changes {tx : Tx} {pick : Nat} {b : Bool}
    (h : deadLetterExpiredCompensationTask pick db = .ok (b, db')) : Changes tx db db' := by
  cases h
  refine (Change.tasks fun t _ hsel => .bury ?_).toChanges
  simp only [Bool.and_eq_true, decide_eq_true_eq] at hsel
  exact hsel.1.2.1

theorem rescheduleCompensationTask_changes {task : ClaimedTask} {u : Unit}
    (h : rescheduleCompensationTask task db = .ok (u, db')) :
    Changes (.rescheduleCompensationTask task) db db' := by
  cases h
  exact (Change.tasks fun t _ hsel => .reschedule rfl (isHeldBy_processing hsel)).toChanges

theorem assertCheckoutFence_eq {fence : CheckoutFence} {u : Unit}
    (h : assertCheckoutFence fence db = .ok (u, db')) : db' = db := by
  cases fence <;> (obtain ⟨_, -, h⟩ := bind_ok h; cases h; rfl)

theorem loadPendingOrder_eq {t : TenantId} {id : OrderId} {order : PendingOrder}
    (h : loadPendingOrder t id db = .ok (order, db')) : db' = db := by
  unfold loadPendingOrder at h
  split at h
  · cases h
  · split at h <;> cases h
    rfl

theorem finalizationCommitted_eq {order : PendingOrder} {b : Bool}
    (h : finalizationCommitted order db = .ok (b, db')) : db' = db := by
  unfold finalizationCommitted at h
  simp only at h
  split at h
  · cases h
  · split at h
    · split at h <;> cases h
      rfl
    · split at h <;> cases h
      rfl

/-- A committed transaction is a sequence of its changes. -/
theorem Tx.run_changes {tx : Tx} {r : tx.Result} (h : tx.run db = .ok (r, db')) :
    Changes tx db db' := by
  cases tx with
  | claimCheckoutAttempt => exact claimCheckoutAttempt_changes h
  | assertCheckoutFence => exact assertCheckoutFence_eq h ▸ .refl
  | refreshCheckoutFence => exact refreshCheckoutFence_changes h
  | createPendingOrder => exact createPendingOrder_changes h
  | loadPendingOrder => exact loadPendingOrder_eq h ▸ .refl
  | recordCheckoutResponse => exact recordCheckoutResponse_changes h
  | recordCheckoutFailure => exact recordCheckoutFailure_changes h
  | cancelOrderFenced => exact cancelOrderFenced_changes h
  | cancelOrderIfCompensated => exact cancelOrderIfCompensated_changes h
  | finalizationCommitted => exact finalizationCommitted_eq h ▸ .refl
  | finalizeOrder => exact finalizeOrder_changes h
  | registerPendingPaymentReconciliation =>
    exact registerPendingPaymentReconciliation_changes h
  | wakePaymentReconciliation => exact wakePaymentReconciliation_changes h
  | claimPaymentReconciliation => exact claimPaymentReconciliation_changes h
  | reclaimExhaustedPaymentReconciliation =>
    exact reclaimExhaustedPaymentReconciliation_changes h
  | recordPaymentReconciliationObservation =>
    obtain ⟨_, -, h⟩ := bind_ok h
    obtain ⟨_, -, h⟩ := bind_ok h
    cases h
    exact .refl
  | attachPaymentToReconciliation => exact attachPaymentToReconciliation_changes h
  | reschedulePaymentReconciliation => exact reschedulePaymentReconciliation_changes h
  | completePaymentReconciliation => exact completePaymentReconciliation_changes h
  | failPaymentReconciliation => exact failPaymentReconciliation_changes h
  | lookupAuthorizationPaymentId =>
    cases h
    exact .refl
  | paidReconciliationPayload =>
    cases h
    exact .refl
  | enqueueInventoryCompensationTasks => exact enqueueInventoryCompensationTasks_changes h
  | enqueuePaymentCompensationTask => exact enqueuePaymentCompensationTask_changes h
  | activateCompensationIntent => exact activateCompensationIntent_changes h
  | resolveCompensationIntent => exact resolveCompensationIntent_changes h
  | beginCompensationOperation => exact beginCompensationOperation_changes h
  | completeCompensationOperation => exact completeCompensationOperation_changes h
  | claimCompensationTask => exact claimCompensationTask_changes h
  | compensationFence =>
    obtain ⟨_, -, h⟩ := bind_ok h
    cases h
    exact .refl
  | finishCompensationTask => exact finishCompensationTask_changes h
  | deadLetterExpiredCompensationTask => exact deadLetterExpiredCompensationTask_changes h
  | rescheduleCompensationTask => exact rescheduleCompensationTask_changes h

end Runs

end CommercePlayground.Checkout
